import CssNest.Distinct
import CssNest.OrderedMap
import CssNest.Sheet.Block
import Mathlib.Data.List.Induction

/-!
# Ordered maps as lists of bindings

An ordered map finds the slot of a key through its index. Seen through `toList` the
index disappears: a lookup is a search from the front, and an update is `upsert`, which
changes a binding in place or puts a new one at the end. The nested blocks of a block
are such a list of bindings from the start, so both share the lemmas of the first half.
-/

namespace CssNest

/-! ## Lists without repetition -/

section Distinct

variable {α : Type} [BEq α] [LawfulBEq α]

theorem pushNew_of_mem {xs : List α} {x : α} (h : x ∈ xs) : pushNew xs x = xs :=
  if_pos (List.contains_iff_mem.mpr h)

theorem pushNew_of_notMem {xs : List α} {x : α} (h : x ∉ xs) : pushNew xs x = xs ++ [x] :=
  if_neg fun hc => h (List.contains_iff_mem.mp hc)

theorem mem_pushNew {xs : List α} {x y : α} : y ∈ pushNew xs x ↔ y ∈ xs ∨ y = x := by
  by_cases hx : x ∈ xs
  · rw [pushNew_of_mem hx]
    exact ⟨Or.inl, fun h => h.elim id fun heq => heq ▸ hx⟩
  · rw [pushNew_of_notMem hx, List.mem_append, List.mem_singleton]

/-- `pushNew` only ever adds what is missing. -/
theorem nodup_pushNew {xs : List α} (h : xs.Nodup) (x : α) : (pushNew xs x).Nodup := by
  by_cases hx : x ∈ xs
  · rw [pushNew_of_mem hx]
    exact h
  · rw [pushNew_of_notMem hx, List.nodup_append]
    refine ⟨h, by simp, ?_⟩
    intro a ha b hb hab
    rw [List.mem_singleton] at hb
    subst hab hb
    exact hx ha

/-- What is put at the end counts only if it is new. -/
theorem eraseDups_concat (xs : List α) (x : α) :
    (xs ++ [x]).eraseDups = pushNew xs.eraseDups x := by
  rw [List.eraseDups_append]
  by_cases hx : x ∈ xs
  · rw [pushNew_of_mem (List.mem_eraseDups.mpr hx)]
    simp [List.removeAll, hx]
  · rw [pushNew_of_notMem fun h => hx (List.mem_eraseDups.mp h)]
    simp [List.removeAll, hx, List.eraseDups_cons]

theorem distinct_concat {β : Type} [BEq β] (xs : List β) (x : β) :
    distinct (xs ++ [x]) = pushNew (distinct xs) x := by
  unfold distinct
  rw [List.foldl_append]
  rfl

/-- Each member is kept at its first occurrence, as the standard library keeps it. -/
theorem distinct_eq_eraseDups (xs : List α) : distinct xs = xs.eraseDups := by
  -- `distinct` folds from the left, so the induction takes members off the right end
  induction xs using List.reverseRecOn with
  | nil => rfl
  | append_singleton xs x ih => rw [distinct_concat, ih, eraseDups_concat]

theorem mem_distinct {xs : List α} {x : α} : x ∈ distinct xs ↔ x ∈ xs := by
  rw [distinct_eq_eraseDups, List.mem_eraseDups]

end Distinct

/-! ## Lists of bindings -/

section Bindings

variable {κ ν : Type} [BEq κ]

/-- Whatever holds of the bound values and is kept by the change holds afterwards. -/
theorem forall_mem_upsert {P : ν → Prop} {k : κ} {fresh : ν} {f : ν → ν} {l : List (κ × ν)}
    (hl : ∀ p ∈ l, P p.2) (hfresh : P fresh) (hf : ∀ v, P v → P (f v)) :
    ∀ p ∈ upsert k fresh f l, P p.2 := by
  induction l with
  | nil =>
      intro p hp
      rw [upsert, List.mem_singleton] at hp
      subst hp
      exact hf fresh hfresh
  | cons q l ih =>
      obtain ⟨a, v⟩ := q
      have hv : P v := hl (a, v) (by simp)
      have hrest : ∀ p ∈ l, P p.2 := fun p hp => hl p (List.mem_cons_of_mem _ hp)
      intro p hp
      rw [upsert] at hp
      split at hp
      · rcases List.mem_cons.mp hp with h | h
        · subst h
          exact hf v hv
        · exact hrest p h
      · rcases List.mem_cons.mp hp with h | h
        · subst h
          exact hv
        · exact ih hrest p h

variable [LawfulBEq κ]

/-- What a search finds is there. -/
theorem mem_of_lookup {l : List (κ × ν)} {k : κ} {v : ν} (h : l.lookup k = some v) :
    (k, v) ∈ l := by
  obtain ⟨l₁, l₂, hl, _⟩ := List.lookup_eq_some_iff.mp h
  rw [hl]
  simp

/-- If no key is bound twice, every binding is found. -/
theorem lookup_of_mem {l : List (κ × ν)} (hnd : (l.map Prod.fst).Nodup) {e : κ × ν}
    (he : e ∈ l) : l.lookup e.1 = some e.2 := by
  induction l with
  | nil => exact absurd he (by simp)
  | cons a l ih =>
      obtain ⟨k, v⟩ := a
      rw [List.map_cons, List.nodup_cons] at hnd
      rw [List.lookup_cons]
      rcases List.mem_cons.mp he with h | h
      · rw [h, beq_self_eq_true]
      · have hne : e.1 ≠ k := by
          intro hek
          exact hnd.1 (List.mem_map.mpr ⟨e, h, hek⟩)
        rw [beq_false_of_ne hne]
        exact ih hnd.2 h

/-- A key that is new goes to the end, and no key ever moves. -/
theorem keys_upsert (k : κ) (fresh : ν) (f : ν → ν) (l : List (κ × ν)) :
    (upsert k fresh f l).map Prod.fst = pushNew (l.map Prod.fst) k := by
  induction l with
  | nil => rfl
  | cons p l ih =>
      obtain ⟨key, v⟩ := p
      rw [upsert]
      by_cases h : key = k
      · subst h
        simp [pushNew]
      · have hk : (k == key) = false := by simpa using fun h' => h h'.symm
        rw [if_neg (by simpa using h), List.map_cons, ih]
        unfold pushNew
        simp only [List.map_cons, List.contains_cons, hk, Bool.false_or]
        split <;> rfl

/-- Whatever holds of the keys and of `k` holds of the keys afterwards. -/
theorem forall_key_upsert {P : κ → Prop} {k : κ} {fresh : ν} {f : ν → ν} {l : List (κ × ν)}
    (hl : ∀ p ∈ l, P p.1) (hk : P k) : ∀ p ∈ upsert k fresh f l, P p.1 := by
  intro p hp
  have hmem : p.1 ∈ pushNew (l.map Prod.fst) k := by
    rw [← keys_upsert k fresh f l]
    exact List.mem_map_of_mem hp
  rcases mem_pushNew.mp hmem with hold | hnew
  · obtain ⟨q, hq, hqp⟩ := List.mem_map.mp hold
    rw [← hqp]
    exact hl q hq
  · rw [hnew]
    exact hk

/-- The binding of `k` is changed, or made from `fresh`, and every other one is kept. -/
theorem lookup_upsert (k : κ) (fresh : ν) (f : ν → ν) (l : List (κ × ν)) (key : κ) :
    (upsert k fresh f l).lookup key
      = if key == k then some (f ((l.lookup k).getD fresh)) else l.lookup key := by
  induction l with
  | nil =>
      rw [upsert, List.lookup_cons]
      cases key == k <;> rfl
  | cons p l ih =>
      obtain ⟨a, v⟩ := p
      rw [upsert]
      by_cases ha : a = k
      · subst ha
        rw [if_pos (by simp), List.lookup_cons, List.lookup_cons_self, List.lookup_cons]
        cases key == a <;> rfl
      · have hka : (k == a) = false := by simpa using fun h => ha h.symm
        rw [if_neg (by simpa using ha)]
        simp only [List.lookup_cons, ih, hka]
        by_cases h : key = k
        · subst h
          simp [hka]
        · have hne : (key == k) = false := by simpa using h
          rw [hne]
          rfl

/-- A key that is missing is put at the end. -/
theorem upsert_of_notMem {k : κ} {fresh : ν} {f : ν → ν} {l : List (κ × ν)}
    (h : ∀ v, (k, v) ∉ l) : upsert k fresh f l = l ++ [(k, f fresh)] := by
  induction l with
  | nil => rfl
  | cons p l ih =>
      obtain ⟨a, v⟩ := p
      have ha : a ≠ k := by
        intro hak
        exact h v (by rw [hak]; exact List.mem_cons_self ..)
      rw [upsert, if_neg (by simpa using ha), ih fun w hw => h w (List.mem_cons_of_mem _ hw)]
      rfl

/-- If position `i` alone has the key, that is where the change happens. -/
theorem upsert_eq_modify {k : κ} {fresh : ν} {f : ν → ν} {l : List (κ × ν)} {i : Nat} {v : ν}
    (hi : l[i]? = some (k, v)) (honly : ∀ j w, l[j]? = some (k, w) → j = i) :
    upsert k fresh f l = l.modify i fun p => (p.1, f p.2) := by
  induction l generalizing i with
  | nil => simp at hi
  | cons p l ih =>
      obtain ⟨a, u⟩ := p
      rw [upsert]
      cases i with
      | zero =>
          rw [List.getElem?_cons_zero, Option.some.injEq, Prod.mk.injEq] at hi
          rw [if_pos (by simpa using hi.1)]
          rfl
      | succ i =>
          have ha : a ≠ k := by
            intro hak
            subst hak
            exact absurd (honly 0 u rfl) (by omega)
          rw [List.getElem?_cons_succ] at hi
          rw [if_neg (by simpa using ha), List.modify_succ_cons, ih hi]
          intro j w hj
          have := honly (j + 1) w (by rw [List.getElem?_cons_succ]; exact hj)
          omega

end Bindings

/-! ## The map -/

namespace OrderedMap

variable {κ ν : Type} [BEq κ] [Hashable κ]

/-- A slot of the list holds the key that the index has for it. -/
theorem index_eq_some_iff (m : OrderedMap κ ν) (k : κ) (i : Nat) :
    m.index[k]? = some i ↔ ∃ v, m.toList[i]? = some (k, v) := by
  rw [m.agrees]
  unfold toList
  simp only [Array.getElem?_toList]

/-- A key without a slot is bound nowhere. -/
theorem notMem_of_index {m : OrderedMap κ ν} {k : κ} (h : m.index[k]? = none) (v : ν) :
    (k, v) ∉ m.toList := by
  intro hv
  obtain ⟨i, hi⟩ := List.mem_iff_getElem?.mp hv
  have := (m.index_eq_some_iff k i).mpr ⟨v, hi⟩
  rw [h] at this
  exact absurd this (by simp)

/-- No key is bound twice. -/
theorem nodup_keys (m : OrderedMap κ ν) : m.keys.Nodup := by
  unfold keys
  unfold List.Nodup
  rw [List.pairwise_iff_getElem]
  intro i j hi hj hij heq
  rw [List.length_map] at hi hj
  rw [List.getElem_map, List.getElem_map] at heq
  -- one key in two slots would give the index two answers
  have h1 : m.index[m.toList[i].1]? = some i :=
    (m.index_eq_some_iff _ i).mpr ⟨_, List.getElem?_eq_getElem hi⟩
  have h2 : m.index[m.toList[j].1]? = some j :=
    (m.index_eq_some_iff _ j).mpr ⟨_, List.getElem?_eq_getElem hj⟩
  rw [heq, h2] at h1
  exact absurd (Option.some.inj h1) (by omega)

variable [LawfulBEq κ]

/-- A lookup through the index is a search from the front. -/
theorem get?_eq_lookup (m : OrderedMap κ ν) (k : κ) : m.get? k = m.toList.lookup k := by
  unfold get?
  cases hi : m.index[k]? with
  | none =>
      symm
      rw [Option.bind_none, Option.map_none, List.lookup_eq_none_iff]
      intro p hp
      rw [bne_iff_ne]
      intro hk
      subst hk
      exact notMem_of_index hi p.2 hp
  | some i =>
      obtain ⟨v, hv⟩ := (m.index_eq_some_iff k i).mp hi
      have hlook : m.toList.lookup k = some v := by
        rw [List.lookup_eq_some_iff]
        refine ⟨m.toList.take i, m.toList.drop (i + 1), ?_, ?_⟩
        · obtain ⟨hlt, hget⟩ := List.getElem?_eq_some_iff.mp hv
          rw [← hget, List.getElem_cons_drop, List.take_append_drop]
        · intro p hp
          rw [bne_iff_ne]
          intro hk
          subst hk
          obtain ⟨j, hj⟩ := List.mem_iff_getElem?.mp hp
          have hji : j < i := by
            have := (List.getElem?_eq_some_iff.mp hj).1
            rw [List.length_take] at this
            omega
          rw [List.getElem?_take_of_lt hji] at hj
          have := (m.index_eq_some_iff p.1 j).mpr ⟨p.2, hj⟩
          rw [hi] at this
          exact absurd (Option.some.inj this) (by omega)
      have hslot : m.entries[i]? = some (k, v) := by
        rw [← Array.getElem?_toList]
        exact hv
      rw [hlook, Option.bind_some, hslot, Option.map_some]

variable [LawfulHashable κ]

@[simp] theorem toList_empty : (empty : OrderedMap κ ν).toList = [] := rfl

/-- An update through the index is an `upsert` of the list. -/
theorem toList_update (m : OrderedMap κ ν) (k : κ) (fresh : ν) (f : ν → ν) :
    (m.update k fresh f).toList = upsert k fresh f m.toList := by
  unfold update
  split
  · rename_i i hi
    obtain ⟨v, hv⟩ := (m.index_eq_some_iff k i).mp hi
    rw [upsert_eq_modify hv ?_]
    · simp [toList, modifySlot]
    · intro j w hj
      have := (m.index_eq_some_iff k j).mpr ⟨w, hj⟩
      rw [hi] at this
      exact (Option.some.inj this).symm
  · rename_i hnone
    rw [upsert_of_notMem (notMem_of_index hnone)]
    simp [toList, push]

/-- An update keeps every key in its place and puts a new one at the end. -/
theorem keys_update (m : OrderedMap κ ν) (k : κ) (fresh : ν) (f : ν → ν) :
    (m.update k fresh f).keys = pushNew m.keys k := by
  unfold keys
  rw [toList_update, keys_upsert]

/-- Binding a pair is an `upsert` that forgets the old value. -/
theorem toList_insert (m : OrderedMap κ ν) (k : κ) (v : ν) :
    (m.insert k v).2.toList = upsert k v (fun _ => v) m.toList :=
  m.toList_update k v fun _ => v

/-- Binding pairs with different keys one after the other lists them as they come. -/
theorem toList_ofList {pairs : List (κ × ν)} (hnd : (pairs.map Prod.fst).Nodup) :
    (ofList pairs).toList = pairs := by
  -- the invariant of the fold: the keys still to come are new to the map
  have hfold : ∀ (ps : List (κ × ν)) (m : OrderedMap κ ν),
      (ps.map Prod.fst).Nodup → (∀ p ∈ ps, ∀ v, (p.1, v) ∉ m.toList) →
      (ps.foldl (fun m p => (m.insert p.1 p.2).2) m).toList = m.toList ++ ps := by
    intro ps
    induction ps with
    | nil => intro m _ _; simp
    | cons p ps ih =>
        intro m hps hfresh
        rw [List.map_cons, List.nodup_cons] at hps
        have hstep : (m.insert p.1 p.2).2.toList = m.toList ++ [p] := by
          rw [toList_insert, upsert_of_notMem (hfresh p (by simp))]
        rw [List.foldl_cons, ih _ hps.2, hstep, List.append_assoc]
        · rfl
        · intro q hq v hv
          rw [hstep, List.mem_append, List.mem_singleton] at hv
          rcases hv with hv | hv
          · exact hfresh q (List.mem_cons_of_mem _ hq) v hv
          · exact hps.1 (List.mem_map.mpr ⟨q, hq, by rw [← hv]⟩)
  unfold ofList
  rw [hfold pairs empty hnd (by simp)]
  rfl

end OrderedMap

end CssNest
