import CssNest.Proofs.Replay

/-!
# The order of a block's entries

Where the rule texts of a block stand among its nested blocks is a number, written down once, at
the first text, and read later against a list of nested blocks that has grown since. What comes
of it is simple. At a given node a visit does at most one thing: it goes on into a nested block,
or it leaves a text. The entries of the node are these deeds, each kind of them at its first
occurrence, as if the rule texts were one more nested block.

`keys_visitAll` says so of the outermost block, from what one visit does to it. A node further down
is the outermost block of what the visits do below it (`getD_descend?_visitAll`).
-/

namespace CssNest

/-! ## Insertion and first occurrences -/

theorem insertAt_perm {α : Type} {n : Nat} {xs : List α} (hn : n ≤ xs.length) (x : α) :
    (insertAt (some n) x xs).Perm (x :: xs) := by
  rw [insertAt_of_le hn]
  conv_rhs => rw [← List.take_append_drop n xs]
  exact List.perm_middle

/-- A list that grows at its end keeps what was inserted in its place. -/
theorem insertAt_concat {α : Type} {i : Option Nat} {xs : List α} (hi : ∀ n ∈ i, n ≤ xs.length)
    (x y : α) : insertAt i x (xs ++ [y]) = insertAt i x xs ++ [y] := by
  cases i with
  | none => rfl
  | some n =>
      have hn : n ≤ xs.length := hi n rfl
      have hlonger : n ≤ (xs ++ [y]).length := by
        rw [List.length_append]
        omega
      rw [insertAt_of_le hn, insertAt_of_le hlonger, List.take_append_of_le_length hn,
        List.drop_append_of_le_length hn, List.append_assoc, List.cons_append]

section Distinct

variable {α : Type} [BEq α] [LawfulBEq α]

theorem idxOf_concat_lt_iff (xs : List α) (x a b : α) :
    (xs ++ [x]).idxOf a < (xs ++ [x]).idxOf b
      ↔ xs.idxOf a < xs.idxOf b ∨ (a ∉ xs ∧ b ∉ xs ∧ a = x ∧ b ≠ x) := by
  have hlast : [x].idxOf a < [x].idxOf b ↔ a = x ∧ b ≠ x := by
    grind [List.idxOf_nil]
  rw [List.idxOf_append, List.idxOf_append]
  by_cases ha : a ∈ xs
  · have hlt : xs.idxOf a < xs.length := List.idxOf_lt_length_iff.mpr ha
    by_cases hb : b ∈ xs
    · simp [ha, hb]
    · have hmissing : xs.idxOf b = xs.length := List.idxOf_eq_length hb
      simp only [ha, hb, if_true, if_false]
      omega
  · have hmissing : xs.idxOf a = xs.length := List.idxOf_eq_length ha
    have hle : xs.idxOf b ≤ xs.length := List.idxOf_le_length
    by_cases hb : b ∈ xs
    · simp only [ha, hb, if_true, if_false, not_true, false_and, and_false, or_false]
      omega
    · simp only [ha, hb, if_false, not_false_eq_true, true_and, ← hlast]
      omega

/-- What occurs first still comes first when repetitions are left out. -/
theorem idxOf_distinct_lt_iff (xs : List α) (a b : α) :
    (distinct xs).idxOf a < (distinct xs).idxOf b ↔ xs.idxOf a < xs.idxOf b := by
  induction xs using List.reverseRecOn with
  | nil => rfl
  | append_singleton xs x ih =>
      rw [distinct_concat, idxOf_concat_lt_iff]
      by_cases hx : x ∈ xs
      · -- nothing new, so nothing that was missing before
        rw [pushNew_of_mem (mem_distinct.mpr hx), ih]
        constructor
        · exact .inl
        · rintro (hlt | ⟨ha, -, rfl, -⟩)
          · exact hlt
          · exact absurd hx ha
      · rw [pushNew_of_notMem (mt mem_distinct.mp hx), idxOf_concat_lt_iff, ih, mem_distinct,
          mem_distinct]

/-- Leaving out what is missing and leaving out repetitions can be done in either order. -/
theorem filterMap_distinct (xs : List (Option α)) :
    (distinct xs).filterMap id = distinct (xs.filterMap id) := by
  induction xs using List.reverseRecOn with
  | nil => rfl
  | append_singleton xs x ih =>
      rw [distinct_concat, List.filterMap_append]
      cases x with
      | none =>
          have hnone : [(none : Option α)].filterMap id = [] := rfl
          rw [hnone, List.append_nil, ← ih]
          by_cases hx : none ∈ distinct xs
          · rw [pushNew_of_mem hx]
          · rw [pushNew_of_notMem hx, List.filterMap_append]
            exact List.append_nil _
      | some a =>
          have hmem : a ∈ distinct (xs.filterMap id) ↔ some a ∈ distinct xs := by
            rw [← ih, List.mem_filterMap]
            exact ⟨fun ⟨_, ho, hoa⟩ => hoa ▸ ho, fun ha => ⟨some a, ha, rfl⟩⟩
          have hsome : [some a].filterMap id = [a] := rfl
          rw [hsome, distinct_concat]
          by_cases ha : some a ∈ distinct xs
          · rw [pushNew_of_mem ha, pushNew_of_mem (hmem.mpr ha), ih]
          · rw [pushNew_of_notMem ha, pushNew_of_notMem (mt hmem.mp ha), List.filterMap_append, ih]
            rfl

end Distinct

namespace Block

/-! ## What a visit does at a node -/

/-- What a visit can do at one node. -/
inductive Deed where
  /-- It goes on into a nested block, which it makes if there is none. -/
  | opens (segment : String)
  /-- It leaves a rule text. -/
  | adds (text : String)
deriving DecidableEq, Repr

/-- The segment of the nested block, none for a rule text. -/
def Deed.segment? : Deed → Option String
  | opens segment => some segment
  | adds _ => none

/-- The rule text, none for a nested block. -/
def Deed.text? : Deed → Option String
  | opens _ => none
  | adds text => some text

/-- The segment of a nested block, none for the rule texts. -/
def Entry.segment? : Entry → Option String
  | rules _ => none
  | child segment _ => some segment

/-- The rule texts, none for a nested block. -/
def Entry.texts? : Entry → Option (List String)
  | rules texts => some texts
  | child _ _ => none

/-- What a visit does at the block where it starts. -/
def Visit.deed? (v : Visit) : Option Deed :=
  match v.path with
  | segment :: _ => some (.opens segment)
  | [] => v.text.map .adds

/-- What a visit is for the node at `path`, if it gets there. -/
def Visit.below? (path : List String) (v : Visit) : Option Visit :=
  if path <+: v.path then some ⟨v.path.drop path.length, v.text⟩ else none

/-- What some visits do at the node at `path`, one after the other. -/
def deedsAt (path : List String) (vs : List Visit) : List Deed :=
  vs.filterMap fun v => (v.below? path).bind Visit.deed?

theorem visitAll_cons (b : Block) (v : Visit) (vs : List Visit) :
    b.visitAll (v :: vs) = (b.visit v).visitAll vs := rfl

/-! ## The outermost block -/

/-- The segments of the entries, in order; `none` stands for the rule texts. -/
def keys (b : Block) : List (Option String) := b.entries.map Entry.segment?

theorem keys_eq_insertAt (b : Block) : b.keys = insertAt b.rulesAt none (b.segments.map some) := by
  unfold keys entries segments
  rw [map_insertAt, List.map_map, List.map_map]
  rfl

theorem WellFormed.le_children {b : Block} (h : WellFormed b) :
    ∀ i ∈ b.rulesAt, i ≤ b.children.length := by
  cases h with
  | mk _ _ _ hle => exact hle

theorem WellFormed.rulesAt_eq_none_iff {b : Block} (h : WellFormed b) :
    b.rulesAt = none ↔ b.rules = [] := by
  cases h with
  | mk _ _ hiff _ => exact hiff

theorem WellFormed.nodup_segments {b : Block} (h : WellFormed b) : b.segments.Nodup := by
  cases h with
  | mk hnd _ _ _ => exact hnd

theorem WellFormed.le_segments {b : Block} (h : WellFormed b) :
    ∀ i ∈ b.rulesAt, i ≤ (b.segments.map some).length := by
  intro i hi
  unfold segments
  rw [List.length_map, List.length_map]
  exact h.le_children i hi

/-- The first rule text opens an entry behind all nested blocks, and a later one moves nothing. -/
theorem WellFormed.keys_addRule {b : Block} (h : WellFormed b) (text : String) :
    (b.addRule text).keys = pushNew b.keys none := by
  have hsegments : (b.addRule text).segments = b.segments := rfl
  have hplace : (b.addRule text).rulesAt = b.rulesAt.or (some b.children.length) := rfl
  rw [keys_eq_insertAt, keys_eq_insertAt, hsegments, hplace]
  cases hi : b.rulesAt with
  | none =>
      have hlen : b.children.length = (b.segments.map some).length := by
        unfold segments
        rw [List.length_map, List.length_map]
      have hnew : none ∉ b.segments.map some := by simp
      rw [Option.none_or, hlen, insertAt_of_le (Nat.le_refl _), List.take_length, List.drop_length]
      exact (pushNew_of_notMem hnew).symm
  | some i =>
      have hle : i ≤ (b.segments.map some).length := h.le_segments i hi
      have hmem : none ∈ insertAt (some i) none (b.segments.map some) :=
        (insertAt_perm hle none).mem_iff.mpr List.mem_cons_self
      rw [Option.some_or, pushNew_of_mem hmem]

/-- A nested block that is new goes behind all entries, and one that is there stays in its place. -/
theorem WellFormed.keys_modifyAt {b : Block} (h : WellFormed b) (f : Block → Block)
    (segment : String) (path : List String) :
    (Block.modifyAt f (segment :: path) b).keys = pushNew b.keys (some segment) := by
  have hsegments : (Block.modifyAt f (segment :: path) b).segments = pushNew b.segments segment :=
    keys_upsert segment empty (Block.modifyAt f path) b.children
  have hplace : (Block.modifyAt f (segment :: path) b).rulesAt = b.rulesAt := rfl
  have hmem : some segment ∈ insertAt b.rulesAt none (b.segments.map some)
      ↔ segment ∈ b.segments := by
    cases hi : b.rulesAt with
    | none => simp [insertAt]
    | some i => simp [(insertAt_perm (h.le_segments i hi) none).mem_iff]
  rw [keys_eq_insertAt, keys_eq_insertAt, hsegments, hplace]
  by_cases hold : segment ∈ b.segments
  · rw [pushNew_of_mem hold, pushNew_of_mem (hmem.mpr hold)]
  · rw [pushNew_of_notMem hold, pushNew_of_notMem (mt hmem.mp hold), List.map_append]
    exact insertAt_concat h.le_segments none (some segment)

theorem WellFormed.keys_visit {b : Block} (h : WellFormed b) (v : Visit) :
    (b.visit v).keys = (v.deed?.map Deed.segment?).elim b.keys (pushNew b.keys) := by
  obtain ⟨path, text⟩ := v
  cases path with
  | cons segment path => exact h.keys_modifyAt _ segment path
  | nil =>
      cases text with
      | none => rfl
      | some text => exact h.keys_addRule text

theorem WellFormed.keys_visitAll {b : Block} (h : WellFormed b) (vs : List Visit) :
    (b.visitAll vs).keys
      = ((vs.filterMap Visit.deed?).map Deed.segment?).foldl pushNew b.keys := by
  induction vs generalizing b with
  | nil => rfl
  | cons v vs ih =>
      have hstep := h.keys_visit v
      rw [visitAll_cons, ih (h.visit v), hstep, List.filterMap_cons]
      cases v.deed? <;> rfl

theorem rules_visit (b : Block) (v : Visit) :
    (b.visit v).rules = b.rules ++ (v.deed?.bind Deed.text?).toList := by
  obtain ⟨path, text⟩ := v
  cases path with
  | cons segment path => exact (List.append_nil _).symm
  | nil =>
      cases text with
      | none => exact (List.append_nil _).symm
      | some text => rfl

theorem rules_visitAll (b : Block) (vs : List Visit) :
    (b.visitAll vs).rules = b.rules ++ (vs.filterMap Visit.deed?).filterMap Deed.text? := by
  induction vs generalizing b with
  | nil => exact (List.append_nil _).symm
  | cons v vs ih =>
      rw [visitAll_cons, ih, rules_visit, List.append_assoc,
        List.filterMap_cons]
      cases v.deed? with
      | none => rfl
      | some deed => cases deed <;> rfl

/-! ## A node further down -/

theorem descend?_append (b : Block) (path path' : List String) :
    b.descend? (path ++ path') = (b.descend? path).bind fun c => c.descend? path' := by
  induction path generalizing b with
  | nil => rfl
  | cons segment path ih =>
      rw [List.cons_append, descend?, descend?]
      cases b.child? segment with
      | none => rfl
      | some c => exact ih c

/-- A visit is a visit to every node on its way, and to no other node. -/
theorem getD_descend?_visit (b : Block) (v : Visit) (path : List String) :
    ((b.visit v).descend? path).getD empty
      = (v.below? path).elim ((b.descend? path).getD empty)
          ((b.descend? path).getD empty).visit := by
  have hchildren : ∀ c : Block, ((v.text.map c.addRule).getD c).children = c.children := by
    intro c
    cases v.text <;> rfl
  rw [visit, descend?_modifyAt hchildren, Visit.below?]
  split <;> rfl

theorem getD_descend?_visitAll (b : Block) (vs : List Visit) (path : List String) :
    ((b.visitAll vs).descend? path).getD empty
      = ((b.descend? path).getD empty).visitAll (vs.filterMap (Visit.below? path)) := by
  induction vs generalizing b with
  | nil => rfl
  | cons v vs ih =>
      rw [visitAll_cons, ih, getD_descend?_visit, List.filterMap_cons]
      cases v.below? path <;> rfl

/-- A node is what the visits build from nothing, each along the rest of its way. -/
theorem eq_visitAll_of_descend? {vs : List Visit} {path : List String} {b : Block}
    (hb : (empty.visitAll vs).descend? path = some b) :
    b = empty.visitAll (vs.filterMap (Visit.below? path)) := by
  have hstart : (empty.descend? path).getD empty = empty := by
    cases path <;> rfl
  have hnode := getD_descend?_visitAll empty vs path
  rw [hb, hstart] at hnode
  exact hnode

theorem deedsAt_eq (path : List String) (vs : List Visit) :
    deedsAt path vs = (vs.filterMap (Visit.below? path)).filterMap Visit.deed? :=
  List.filterMap_filterMap.symm

theorem keys_of_descend? {vs : List Visit} {path : List String} {b : Block}
    (hb : (empty.visitAll vs).descend? path = some b) :
    b.keys = distinct ((deedsAt path vs).map Deed.segment?) := by
  rw [eq_visitAll_of_descend? hb, wellFormed_empty.keys_visitAll, ← deedsAt_eq]
  rfl

theorem rules_of_descend? {vs : List Visit} {path : List String} {b : Block}
    (hb : (empty.visitAll vs).descend? path = some b) :
    b.rules = (deedsAt path vs).filterMap Deed.text? := by
  rw [eq_visitAll_of_descend? hb, rules_visitAll, ← deedsAt_eq]
  rfl

/-! ## Entries -/

theorem filterMap_text_ne_nil (deeds : List Deed) :
    deeds.filterMap Deed.text? ≠ [] ↔ ∃ text, Deed.adds text ∈ deeds := by
  rw [Ne, List.filterMap_eq_nil_iff]
  constructor
  · intro h
    obtain ⟨deed, hmem, htext⟩ : ∃ deed ∈ deeds, deed.text? ≠ none := by
      simpa using h
    cases deed with
    | opens segment => exact absurd rfl htext
    | adds text => exact ⟨text, hmem⟩
  · rintro ⟨text, hmem⟩ hnone
    exact absurd (hnone _ hmem) (by simp [Deed.text?])

/-- Apart from the order, a block holds its nested blocks and the rule texts, if there are any. -/
theorem WellFormed.entries_perm {b : Block} (h : WellFormed b) :
    b.entries.Perm ((if b.rules = [] then [] else [Entry.rules b.rules])
      ++ b.children.map fun c => Entry.child c.1 c.2) := by
  unfold entries
  cases hi : b.rulesAt with
  | none =>
      rw [if_pos (h.rulesAt_eq_none_iff.mp hi)]
      exact List.Perm.refl _
  | some i =>
      have hne : b.rules ≠ [] := by
        intro hnil
        rw [h.rulesAt_eq_none_iff.mpr hnil] at hi
        exact absurd hi (by simp)
      have hle : i ≤ (b.children.map fun c => Entry.child c.1 c.2).length := by
        rw [List.length_map]
        exact h.le_children i hi
      rw [if_neg hne]
      exact insertAt_perm hle _

theorem WellFormed.child_mem_entries {b : Block} (h : WellFormed b) {segment : String} {c : Block} :
    Entry.child segment c ∈ b.entries ↔ b.child? segment = some c := by
  have hchildren : Entry.child segment c ∈ b.entries ↔ (segment, c) ∈ b.children := by
    rw [h.entries_perm.mem_iff]
    split <;> simp
  rw [hchildren]
  exact ⟨fun hc => lookup_of_mem h.nodup_segments hc, mem_of_lookup⟩

/-- The rule texts are one entry, if there are any. -/
theorem WellFormed.filterMap_texts {b : Block} (h : WellFormed b) :
    b.entries.filterMap Entry.texts? = if b.rules = [] then [] else [b.rules] := by
  have hblocks : (b.children.map fun c => Entry.child c.1 c.2).filterMap Entry.texts? = [] := by
    rw [List.filterMap_map, List.filterMap_eq_nil_iff]
    intro c _
    rfl
  have hperm := h.entries_perm.filterMap Entry.texts?
  rw [List.filterMap_append, hblocks, List.append_nil] at hperm
  split at hperm
  · next hnil =>
      rw [if_pos hnil]
      exact hperm.eq_nil
  · next hne =>
      rw [if_neg hne]
      exact List.perm_singleton.mp hperm

/--
**The entries of a node stand in the order of their insertion.** Take any node of a block that grew
from nothing by any visits. A place is set for its rule texts exactly if a text was left there, and
it is never behind the last nested block. Its entries are the nested blocks, each once, in the
order in which visits first went into them, and each the node one segment further down; and one
entry with all the texts that were left, in their order, if there were any. A nested block comes
before the texts exactly if a visit went into it before the first text was left.
-/
theorem entries_follow_deeds {vs : List Visit} {path : List String} {b : Block}
    (hb : (empty.visitAll vs).descend? path = some b) :
    let deeds := deedsAt path vs
    let texts := deeds.filterMap Deed.text?
    (b.rulesAt.isSome ↔ ∃ text, Deed.adds text ∈ deeds)
      ∧ (∀ i ∈ b.rulesAt, i ≤ b.children.length)
      ∧ b.entries.filterMap Entry.segment? = (deeds.filterMap Deed.segment?).eraseDups
      ∧ (∀ segment c, Entry.child segment c ∈ b.entries
          ↔ (empty.visitAll vs).descend? (path ++ [segment]) = some c)
      ∧ b.entries.filterMap Entry.texts? = (if texts = [] then [] else [texts])
      ∧ ∀ segment, (b.entries.map Entry.segment?).idxOf (some segment)
            < (b.entries.map Entry.segment?).idxOf none
          ↔ (deeds.map Deed.segment?).idxOf (some segment)
            < (deeds.map Deed.segment?).idxOf none := by
  intro deeds texts
  have hwf : WellFormed b := by
    rw [eq_visitAll_of_descend? hb]
    exact wellFormed_empty.visitAll _
  have hkeys : b.entries.map Entry.segment? = distinct (deeds.map Deed.segment?) :=
    keys_of_descend? hb
  have hrules : b.rules = texts := rules_of_descend? hb
  refine ⟨?_, hwf.le_children, ?_, ?_, ?_, ?_⟩
  · have hsome : b.rulesAt.isSome ↔ texts ≠ [] := by
      rw [← hrules, Option.isSome_iff_ne_none]
      exact not_congr hwf.rulesAt_eq_none_iff
    exact hsome.trans (filterMap_text_ne_nil deeds)
  · have hsegments := filterMap_distinct (deeds.map Deed.segment?)
    rw [← hkeys, List.filterMap_map, List.filterMap_map] at hsegments
    rw [← distinct_eq_eraseDups]
    exact hsegments
  · intro segment c
    rw [hwf.child_mem_entries, descend?_append, hb, Option.bind_some, descend?]
    cases b.child? segment <;> rfl
  · rw [hwf.filterMap_texts, hrules]
  · intro segment
    rw [hkeys]
    exact idxOf_distinct_lt_iff _ _ _

/-- At `nav` there is a block, then a text, then another block, and then both kinds once more. -/
def navVisits : List Visit :=
  [⟨["nav", "a"], some "color: red"⟩, ⟨["nav"], some "top: 0;"⟩, ⟨["nav", ">ul", "li"], none⟩,
    ⟨["nav"], some "left: 0"⟩, ⟨["nav", "a", "b"], none⟩, ⟨["p"], some "top: 1px"⟩]

theorem entries_navVisits :
    ∃ b, (empty.visitAll navVisits).descend? ["nav"] = some b
      ∧ b.rulesAt.isSome
      ∧ b.entries.filterMap Entry.segment? = ["a", ">ul"]
      ∧ b.entries.filterMap Entry.texts? = [["top: 0;", "left: 0"]]
      ∧ (b.entries.map Entry.segment?).idxOf (some "a")
          < (b.entries.map Entry.segment?).idxOf none
      ∧ ¬ (b.entries.map Entry.segment?).idxOf (some ">ul")
          < (b.entries.map Entry.segment?).idxOf none := by
  obtain ⟨b, hb⟩ : ∃ b, (empty.visitAll navVisits).descend? ["nav"] = some b := ⟨_, rfl⟩
  have hdeeds : deedsAt ["nav"] navVisits
      = [.opens "a", .adds "top: 0;", .opens ">ul", .adds "left: 0", .opens "a"] := by decide
  obtain ⟨hset, -, hsegments, -, htexts, horder⟩ := entries_follow_deeds hb
  rw [hdeeds] at hset hsegments htexts horder
  refine ⟨b, hb, hset.mpr ⟨"top: 0;", by decide⟩, hsegments.trans (by decide),
    htexts.trans (by decide), (horder "a").mpr (by decide), ?_⟩
  exact mt (horder ">ul").mp (by decide)

end Block

end CssNest
