import CssNest.Proofs.OrderedMap
import CssNest.Sheet.Render

/-!
# What a block holds

A block is read in two ways. `textsAt` follows a path and gives the rule texts found
there; `walk` goes through the whole block in the order in which it is written, and gives
every rule text with its path. The first is easy to follow through insertions, the second
is what a reader of the output sees.

They agree on every block in which

* no segment is used twice,
* the place of the rule texts is set exactly when there are some, and
* that place is not behind the last nested block,

at every depth. Insertion starts from such a block and keeps it so.
-/

namespace CssNest

/-! ## Inserting into a list -/

theorem insertAt_of_le {α : Type} {n : Nat} {xs : List α} (hn : n ≤ xs.length) (x : α) :
    insertAt (some n) x xs = xs.take n ++ x :: xs.drop n :=
  if_pos hn

theorem map_insertAt {α β : Type} (g : α → β) (i : Option Nat) (x : α) (xs : List α) :
    (insertAt i x xs).map g = insertAt i (g x) (xs.map g) := by
  cases i with
  | none => rfl
  | some i =>
      unfold insertAt
      dsimp only
      rw [List.length_map]
      split
      · rw [List.map_append, List.map_cons, List.map_take, List.map_drop]
      · rfl

/-- Where a member that adds nothing is inserted does not matter. -/
theorem filter_flatten_insertAt_of_nil {α : Type} {P : α → Bool} {x : List α}
    (hx : x.filter P = []) (i : Option Nat) (xs : List (List α)) :
    (insertAt i x xs).flatten.filter P = xs.flatten.filter P := by
  cases i with
  | none => rfl
  | some i =>
      unfold insertAt
      dsimp only
      split
      · rw [List.flatten_append, List.flatten_cons, List.filter_append, List.filter_append, hx,
          List.nil_append, ← List.filter_append, ← List.flatten_append, List.take_append_drop]
      · rfl

/-- If all others add nothing, only the inserted member counts. -/
theorem filter_flatten_insertAt_of_others {α : Type} {P : α → Bool} {xs : List (List α)}
    (hxs : ∀ l ∈ xs, l.filter P = []) {i : Nat} (hi : i ≤ xs.length) (x : List α) :
    (insertAt (some i) x xs).flatten.filter P = x.filter P := by
  have hnil : ∀ ys : List (List α), (∀ l ∈ ys, l ∈ xs) → ys.flatten.filter P = [] := by
    intro ys hys
    rw [List.filter_flatten, List.flatten_eq_nil_iff]
    intro l hl
    obtain ⟨y, hy, rfl⟩ := List.mem_map.mp hl
    exact hxs y (hys y hy)
  rw [insertAt_of_le hi, List.flatten_append, List.flatten_cons, List.filter_append,
    List.filter_append, hnil _ fun _ hl => List.mem_of_mem_take hl,
    hnil _ fun _ hl => List.mem_of_mem_drop hl, List.nil_append, List.append_nil]

/--
Reading the bindings of one key out of a tagged listing of all of them. `tag` puts the
key on what is listed, and `P` asks for the key and for `Q` of the rest.
-/
theorem filter_flatMap_bindings {κ ν β γ : Type} [BEq κ] [LawfulBEq κ] {l : List (κ × ν)}
    (hnd : (l.map Prod.fst).Nodup) (tag : κ → β → γ) (g : ν → List β) {P : γ → Bool}
    {Q : β → Bool} (key : κ) (htag : ∀ k b, P (tag k b) = (k == key && Q b)) :
    (l.flatMap fun e => (g e.2).map (tag e.1)).filter P
      = ((l.lookup key).map fun v => ((g v).filter Q).map (tag key)).getD [] := by
  have hother : ∀ k, k ≠ key → ∀ bs : List β, (bs.map (tag k)).filter P = [] := by
    intro k hk bs
    rw [List.filter_map, List.map_eq_nil_iff, List.filter_eq_nil_iff]
    intro b _
    rw [Function.comp_apply, htag, beq_false_of_ne hk]
    simp
  induction l with
  | nil => rfl
  | cons e l ih =>
      obtain ⟨k, v⟩ := e
      rw [List.map_cons, List.nodup_cons] at hnd
      rw [List.flatMap_cons, List.filter_append, List.lookup_cons]
      by_cases hk : k = key
      · -- this binding is the only one of the key
        subst hk
        have hrest : (l.flatMap fun e => (g e.2).map (tag e.1)).filter P = [] := by
          rw [List.filter_flatMap, List.flatMap_eq_nil_iff]
          intro e he
          refine hother e.1 ?_ _
          intro hek
          exact hnd.1 (List.mem_map.mpr ⟨e, he, hek⟩)
        have hfilter : P ∘ tag k = Q := by
          funext b
          rw [Function.comp_apply, htag, beq_self_eq_true, Bool.true_and]
        rw [hrest, List.append_nil, beq_self_eq_true, List.filter_map, hfilter]
        rfl
      · have hkey : (key == k) = false := beq_false_of_ne fun h => hk h.symm
        rw [hother k hk, List.nil_append, ih hnd.2, hkey]

namespace Block

/-! ## The two readings -/

mutual

/-- Every rule text with its path below the block, in the order in which they are written. -/
def walk : Block → List (List String × String)
  | mk children rules rulesAt =>
    (insertAt rulesAt (rules.map fun text => ([], text)) (walkChildren children)).flatten

/-- The rule texts of the nested blocks, one list for each. -/
def walkChildren : List (String × Block) → List (List (List String × String))
  | [] => []
  | (segment, block) :: rest =>
    (block.walk.map fun q => (segment :: q.1, q.2)) :: walkChildren rest

end

/-- The rule texts at a path below the block. -/
def textsAt (b : Block) (path : List String) : List String :=
  ((b.descend? path).map rules).getD []

theorem walkChildren_eq_map (cs : List (String × Block)) :
    walkChildren cs = cs.map fun c => c.2.walk.map fun q => (c.1 :: q.1, q.2) := by
  induction cs with
  | nil => rw [walkChildren, List.map_nil]
  | cons c cs ih =>
      obtain ⟨segment, block⟩ := c
      rw [walkChildren, ih, List.map_cons]

/-- The walk meets the entries of a block one after the other. -/
theorem walk_eq_entries (b : Block) :
    b.walk = b.entries.flatMap fun
      | .rules texts => texts.map fun text => ([], text)
      | .child segment block => block.walk.map fun q => (segment :: q.1, q.2) := by
  obtain ⟨children, rs, i⟩ := b
  rw [walk, walkChildren_eq_map, entries, List.flatMap_def, map_insertAt, List.map_map]
  rfl

@[simp] theorem textsAt_nil (b : Block) : b.textsAt [] = b.rules := rfl

theorem textsAt_cons (b : Block) (segment : String) (path : List String) :
    b.textsAt (segment :: path)
      = ((b.children.lookup segment).map fun c => c.textsAt path).getD [] := by
  unfold textsAt
  rw [descend?, child?]
  cases b.children.lookup segment <;> rfl

@[simp] theorem textsAt_empty (path : List String) : empty.textsAt path = [] := by
  cases path with
  | nil => rfl
  | cons segment path => rfl

/-! ## Well-formed blocks -/

/-- What insertion keeps: at every depth segments differ and the rule texts have a place. -/
inductive WellFormed : Block → Prop where
  | mk {children : List (String × Block)} {rules : List String} {rulesAt : Option Nat} :
      (children.map Prod.fst).Nodup → (∀ c ∈ children, WellFormed c.2) →
      (rulesAt = none ↔ rules = []) → (∀ i, rulesAt = some i → i ≤ children.length) →
      WellFormed (.mk children rules rulesAt)

theorem wellFormed_empty : WellFormed empty :=
  .mk (by simp) (by simp) (by simp) (by simp)

theorem WellFormed.addRule {b : Block} (h : WellFormed b) (text : String) :
    WellFormed (b.addRule text) := by
  cases h with
  | @mk cs rs i hnd hchildren _ hle =>
      refine .mk hnd hchildren ?_ ?_
      · cases i <;> simp [rules, rulesAt]
      · intro j hj
        cases i with
        | none =>
            have : cs.length = j := Option.some.inj hj
            exact Nat.le_of_eq this.symm
        | some i => exact hle j hj

/-- A change below the block keeps it well formed if it does so where it happens. -/
theorem WellFormed.modifyAt {f : Block → Block} (hf : ∀ b, WellFormed b → WellFormed (f b))
    (path : List String) {b : Block} (h : WellFormed b) : WellFormed (modifyAt f path b) := by
  induction path generalizing b with
  | nil => exact hf b h
  | cons segment path ih =>
      cases h with
      | @mk cs rs i hnd hchildren hiff hle =>
          have hkeys := keys_upsert segment empty (Block.modifyAt f path) cs
          refine .mk ?_ (forall_mem_upsert hchildren wellFormed_empty fun _ => ih) hiff ?_
          · rw [children, hkeys]
            exact nodup_pushNew hnd segment
          · intro j hj
            -- the nested blocks can only become more
            have hlen : cs.length ≤ (upsert segment empty (Block.modifyAt f path) cs).length := by
              have hcount := congrArg List.length hkeys
              rw [List.length_map] at hcount
              rw [hcount, ← List.length_map (f := Prod.fst)]
              unfold pushNew
              split
              · exact Nat.le_refl _
              · rw [List.length_append]
                omega
            exact Nat.le_trans (hle j hj) hlen

/-! ## Blocks that grow step by step -/

/-- A way down from a block, which makes the nested blocks it lacks, and a text left at its end. -/
structure Visit where
  path : List String
  text : Option String
deriving DecidableEq, Repr

/-- Goes the way of a visit and leaves its text, if it has one. -/
def visit (b : Block) (v : Visit) : Block :=
  modifyAt (fun c => (v.text.map c.addRule).getD c) v.path b

/-- The block after some visits. -/
def visitAll (b : Block) (vs : List Visit) : Block := vs.foldl visit b

theorem WellFormed.visit {b : Block} (h : WellFormed b) (v : Visit) :
    WellFormed (b.visit v) := by
  refine h.modifyAt ?_ v.path
  intro c hc
  cases v.text with
  | none => exact hc
  | some text => exact hc.addRule text

/-- Whatever is visited, a block that starts well formed stays so. -/
theorem WellFormed.visitAll {b : Block} (h : WellFormed b) (vs : List Visit) :
    WellFormed (b.visitAll vs) := by
  unfold Block.visitAll
  induction vs generalizing b with
  | nil => exact h
  | cons v vs ih => exact ih (h.visit v)

/-! ## The texts at a path -/

/-- Adding a rule text at one path leaves those at all others alone. -/
theorem textsAt_modifyAt_addRule (text : String) (target : List String) (b : Block)
    (path : List String) :
    (modifyAt (fun c => c.addRule text) target b).textsAt path
      = if path = target then b.textsAt path ++ [text] else b.textsAt path := by
  induction target generalizing b path with
  | nil =>
      rw [modifyAt]
      cases path with
      | nil => rfl
      | cons segment path => rw [textsAt_cons, textsAt_cons, if_neg (by simp)]; rfl
  | cons s target ih =>
      rw [modifyAt]
      cases path with
      | nil => rw [if_neg (by simp)]; rfl
      | cons segment path =>
          rw [textsAt_cons, textsAt_cons, children, lookup_upsert]
          by_cases hs : segment = s
          · subst hs
            rw [if_pos (by simp), Option.map_some, Option.getD_some, ih]
            cases hc : b.children.lookup segment with
            | none => simp
            | some c => simp
          · rw [if_neg (by simpa using hs), if_neg (by simp [hs])]

/-- Below a nested block every path starts with its segment. -/
theorem filter_walkChildren_nil {cs : List (String × Block)} :
    ∀ l ∈ walkChildren cs, l.filter (fun q => q.1 == []) = [] := by
  intro l hl
  rw [walkChildren_eq_map] at hl
  obtain ⟨c, _, rfl⟩ := List.mem_map.mp hl
  rw [List.filter_eq_nil_iff]
  intro q hq
  obtain ⟨q', _, rfl⟩ := List.mem_map.mp hq
  simp

/-- Picking a path out of the walk gives the rule texts at that path. -/
theorem WellFormed.filter_walk {b : Block} (h : WellFormed b) (path : List String) :
    b.walk.filter (fun q => q.1 == path) = (b.textsAt path).map fun text => (path, text) := by
  induction path generalizing b with
  | nil =>
      cases h with
      | @mk cs rs i _ _ hiff hle =>
          rw [walk, textsAt_nil, rules]
          cases i with
          | none =>
              rw [hiff.mp rfl, filter_flatten_insertAt_of_nil rfl, List.filter_flatten,
                List.map_nil, List.flatten_eq_nil_iff]
              intro l hl
              obtain ⟨l', hl', rfl⟩ := List.mem_map.mp hl
              exact filter_walkChildren_nil l' hl'
          | some i =>
              have hi : i ≤ (walkChildren cs).length := by
                rw [walkChildren_eq_map, List.length_map]
                exact hle i rfl
              rw [filter_flatten_insertAt_of_others filter_walkChildren_nil hi,
                List.filter_eq_self.mpr]
              intro q hq
              obtain ⟨text, _, rfl⟩ := List.mem_map.mp hq
              simp
  | cons segment path ih =>
      cases h with
      | @mk cs rs i hnd hchildren _ _ =>
          have hrules : (rs.map fun text => (([] : List String), text)).filter
              (fun q => q.1 == segment :: path) = [] := by
            rw [List.filter_eq_nil_iff]
            intro q hq
            obtain ⟨text, _, rfl⟩ := List.mem_map.mp hq
            simp
          rw [walk, filter_flatten_insertAt_of_nil hrules, walkChildren_eq_map,
            ← List.flatMap_def, filter_flatMap_bindings hnd (fun s q => (s :: q.1, q.2)) walk
              segment (Q := fun q => q.1 == path) (fun _ _ => by simp), textsAt_cons, children]
          cases hc : cs.lookup segment with
          | none => rfl
          | some c =>
              rw [Option.map_some, Option.getD_some, ih (hchildren _ (mem_of_lookup hc)),
                List.map_map]
              simp

end Block

end CssNest
