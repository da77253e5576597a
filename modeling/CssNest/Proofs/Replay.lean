import CssNest.Proofs.Sheet

/-!
# A node of a sheet and the placements that reach it

A sheet grows by placements that come in any order: some end at a given node, some pass
through it on their way down, some turn off above it, and some belong to another media type.
Only the first two kinds matter for the node. It is there as soon as there is one of them,
and it is the block that these placements alone build from nothing, each along what is left
of its path.

The step is `Sheet.node?_place`: a placement that reaches the node acts on it as it would act
on a block of its own, and any other leaves it alone. Everything else is an induction over
the placements.
-/

namespace CssNest

namespace Placement

/-- Whether the way to the place ends at or passes through `path` under `media`. -/
def reaches (media : String) (path : List String) (a : Placement) : Bool :=
  a.media == media && path.isPrefixOf (Selector.path a.selector)

/-- What is left of the way behind `path`, and the text. -/
def below (path : List String) (a : Placement) : List String × String :=
  ((Selector.path a.selector).drop path.length, a.text)

theorem reaches_iff {media : String} {path : List String} {a : Placement} :
    a.reaches media path = true ↔ a.media = media ∧ path <+: Selector.path a.selector := by
  unfold reaches
  rw [Bool.and_eq_true, beq_iff_eq, List.isPrefixOf_iff_prefix]

end Placement

namespace Block

/-- Adds rule texts one after the other, each along its path, with the blocks that are missing. -/
def replay (b : Block) (steps : List (List String × String)) : Block :=
  steps.foldl (fun b step => modifyAt (fun c => c.addRule step.2) step.1 b) b

/-! ## One step, seen from a node -/

/-- A block that is missing can be taken for an empty one, as long as the way goes on. -/
theorem descend?_getD_empty {path : List String} (hpath : path ≠ []) (found : Option Block) :
    (found.getD empty).descend? path = found.bind fun b => b.descend? path := by
  cases found with
  | some b => rfl
  | none =>
      cases path with
      | nil => exact absurd rfl hpath
      | cons segment path => rfl

/-- A node that is missing can be taken for an empty one, wherever the way ends. -/
theorem getD_descend?_getD_empty (path : List String) (found : Option Block) :
    ((found.getD empty).descend? path).getD empty
      = (found.bind fun b => b.descend? path).getD empty := by
  cases path with
  | nil => cases found <;> rfl
  | cons segment path => rw [descend?_getD_empty (by simp)]

/--
A change at `target` that leaves the nested blocks alone there changes the nodes on the way, each
along the rest of the way, and no other node.
-/
theorem descend?_modifyAt {f : Block → Block} (hf : ∀ b, (f b).children = b.children)
    (path target : List String) (b : Block) :
    (modifyAt f target b).descend? path
      = if path <+: target then
          some (modifyAt f (target.drop path.length) ((b.descend? path).getD empty))
        else b.descend? path := by
  induction path generalizing target b with
  | nil => rw [if_pos List.nil_prefix]; rfl
  | cons segment path ih =>
      cases target with
      | nil =>
          -- the change is made to the block itself, and the nested blocks stay
          rw [if_neg (by simp), modifyAt, descend?, child?, hf]
          rfl
      | cons s target =>
          rw [modifyAt, descend?, child?, children, lookup_upsert, descend?, child?]
          by_cases hs : segment = s
          · subst hs
            rw [if_pos (by simp), Option.bind_some, ih, getD_descend?_getD_empty]
            by_cases hp : path <+: target
            · rw [if_pos hp, if_pos (List.cons_prefix_cons.mpr ⟨rfl, hp⟩)]
              rfl
            · have hpath : path ≠ [] := by
                rintro rfl
                exact hp List.nil_prefix
              rw [if_neg hp, if_neg fun h => hp (List.cons_prefix_cons.mp h).2,
                descend?_getD_empty hpath]
          · rw [if_neg (by simpa using hs), if_neg fun h => hs (List.cons_prefix_cons.mp h).1]

end Block

namespace Sheet

/-- The block at a path under a media type. -/
def node? (s : Sheet) (media : String) (path : List String) : Option Block :=
  (s.block? media).bind fun b => b.descend? path

/-- A placement acts on the nodes that it reaches, and leaves every other node alone. -/
theorem node?_place (s : Sheet) (a : Placement) (media : String) (path : List String) :
    (s.place a).node? media path
      = if a.reaches media path then
          some (((s.node? media path).getD .empty).replay [a.below path])
        else s.node? media path := by
  unfold node? block? place
  rw [OrderedMap.get?_eq_lookup, OrderedMap.toList_update, lookup_upsert,
    OrderedMap.get?_eq_lookup]
  by_cases hm : media = a.media
  · subst hm
    have hchildren : ∀ b : Block, (b.addRule a.text).children = b.children := fun _ => rfl
    rw [if_pos (by simp), Option.bind_some, Block.descend?_modifyAt hchildren,
      Block.getD_descend?_getD_empty]
    by_cases hp : path <+: Selector.path a.selector
    · rw [if_pos hp, if_pos (Placement.reaches_iff.mpr ⟨rfl, hp⟩)]
      rfl
    · have hpath : path ≠ [] := by
        rintro rfl
        exact hp List.nil_prefix
      rw [if_neg hp, if_neg fun h => hp (Placement.reaches_iff.mp h).2,
        Block.descend?_getD_empty hpath]
  · rw [if_neg (by simpa using hm), if_neg fun h => hm (Placement.reaches_iff.mp h).1.symm]

/-! ## A whole run of placements -/

theorem node?_empty (media : String) (path : List String) : empty.node? media path = none := by
  unfold node? block?
  rw [OrderedMap.get?_eq_lookup]
  rfl

/-- After a run a node has gone through the steps that reach it, and no others. -/
theorem node?_placeAll (s : Sheet) (as : List Placement) (media : String) (path : List String) :
    (s.placeAll as).node? media path
      = if as.any (Placement.reaches media path) then
          some (((s.node? media path).getD .empty).replay
            ((as.filter (Placement.reaches media path)).map (Placement.below path)))
        else s.node? media path := by
  unfold placeAll
  induction as generalizing s with
  | nil => rfl
  | cons a as ih =>
      rw [List.foldl_cons, ih, node?_place, List.any_cons, List.filter_cons]
      by_cases ha : a.reaches media path = true
      · rw [if_pos ha, if_pos ha, ha, Bool.true_or, if_pos rfl]
        by_cases hrest : as.any (Placement.reaches media path) = true
        · rw [if_pos hrest]
          rfl
        · -- this was the last step that reaches the node
          have hnone : as.filter (Placement.reaches media path) = [] := by
            rw [List.filter_eq_nil_iff]
            intro a' ha' hreach
            exact hrest (List.any_eq_true.mpr ⟨a', ha', hreach⟩)
          rw [if_neg hrest, hnone]
          rfl
      · have hfalse : a.reaches media path = false := by simpa using ha
        rw [if_neg ha, if_neg ha, hfalse, Bool.false_or]

/-- A run adds its media types, each at its first use. -/
theorem mediaTypes_placeAll (s : Sheet) (as : List Placement) :
    (s.placeAll as).mediaTypes = (as.map Placement.media).foldl pushNew s.mediaTypes := by
  unfold placeAll
  induction as generalizing s with
  | nil => rfl
  | cons a as ih =>
      have hstep : (s.place a).mediaTypes = pushNew s.mediaTypes a.media :=
        OrderedMap.keys_update _ _ _ _
      rw [List.foldl_cons, ih, hstep, List.map_cons, List.foldl_cons]

/--
**A node depends on the placements that reach it and on nothing else.** Whatever the
placements, there is a node at a path under a media type exactly if one of them has that
media type and a path that begins with this one. Such a node is, down to the order of its
nested blocks and the place of its rule texts at every depth, the block that these
placements build from an empty one, in their order, each along the rest of its path. The
media types are those of the placements, in the order of first use.
-/
theorem placeAll_node_eq_replay (as : List Placement) (media : String) (path : List String) :
    let s := empty.placeAll as
    ((s.node? media path).isSome
        ↔ ∃ a ∈ as, a.media = media ∧ path <+: Selector.path a.selector)
      ∧ (∀ b, s.node? media path = some b → b = Block.empty.replay
          ((as.filter fun a => a.media = media ∧ path <+: Selector.path a.selector).map fun a =>
            ((Selector.path a.selector).drop path.length, a.text)))
      ∧ s.mediaTypes = (as.map Placement.media).eraseDups := by
  intro s
  have hpred : (fun a : Placement => decide (a.media = media ∧ path <+: Selector.path a.selector))
      = Placement.reaches media path := by
    funext a
    rw [Bool.eq_iff_iff, decide_eq_true_eq, Placement.reaches_iff]
  have hrun := node?_placeAll empty as media path
  rw [node?_empty] at hrun
  refine ⟨?_, ?_, ?_⟩
  · -- a node is there exactly if some step reaches it
    have hany : (s.node? media path).isSome = as.any (Placement.reaches media path) := by
      rw [hrun]
      cases as.any (Placement.reaches media path) <;> rfl
    rw [hany, List.any_eq_true]
    constructor
    · rintro ⟨a, ha, hreach⟩
      exact ⟨a, ha, Placement.reaches_iff.mp hreach⟩
    · rintro ⟨a, ha, hreach⟩
      exact ⟨a, ha, Placement.reaches_iff.mpr hreach⟩
  · intro b hb
    rw [hpred]
    rw [hrun] at hb
    split at hb
    · exact (Option.some.inj hb).symm
    · exact absurd hb (by simp)
  · have hmedia := mediaTypes_placeAll empty as
    rw [← distinct_eq_eraseDups]
    exact hmedia

end Sheet

end CssNest
