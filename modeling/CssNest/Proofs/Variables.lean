import CssNest.Proofs.OrderedMap
import CssNest.Variables.Extract
import Mathlib.Data.List.Nodup
import Std.Data.String.ToNat

/-!
# The names of variables

A variable's name is its category, an underscore and a number. A category may have
underscores of its own, but a number has none, so the last underscore of a name tells the
two apart: no two variables share a name, whatever their categories.

The rest of the file follows the table through `define`. A table is `Sound` when its
categories are the fixed ones and the names of each category count up from one. What has
a name keeps it from then on, so the table at the end of a stylesheet explains every
reference made on the way.
-/

namespace CssNest

/-! ## Names -/

/-- A mark that occurs in neither tail splits a list in one way only. -/
theorem append_cons_inj_of_notMem {α : Type} {xs ys ds es : List α} {mark : α}
    (hd : mark ∉ ds) (he : mark ∉ es) (h : xs ++ mark :: ds = ys ++ mark :: es) :
    xs = ys ∧ ds = es := by
  rcases List.append_eq_append_iff.mp h with ⟨as, hys, hds⟩ | ⟨as, hxs, hes⟩
  · cases as with
    | nil =>
        rw [List.nil_append, List.cons_inj_right] at hds
        exact ⟨by rw [hys, List.append_nil], hds⟩
    | cons a as =>
        -- the mark of `ys` would stand inside `ds`
        rw [List.cons_append, List.cons.injEq] at hds
        exact absurd (by rw [hds.2]; simp) hd
  · cases as with
    | nil =>
        rw [List.nil_append, List.cons_inj_right] at hes
        exact ⟨by rw [hxs, List.append_nil], hes.symm⟩
    | cons a as =>
        rw [List.cons_append, List.cons.injEq] at hes
        exact absurd (by rw [hes.2]; simp) he

/-- In a list whose members have different keys, a key picks out one member. -/
theorem filter_eq_singleton {α β : Type} [BEq β] [LawfulBEq β] {g : α → β} {l : List α}
    (hnd : (l.map g).Nodup) {x : α} (hx : x ∈ l) : l.filter (fun y => g y == g x) = [x] := by
  induction l with
  | nil => exact absurd hx (by simp)
  | cons a l ih =>
      rw [List.map_cons, List.nodup_cons] at hnd
      rcases List.mem_cons.mp hx with h | h
      · subst h
        have hrest : l.filter (fun y => g y == g x) = [] := by
          rw [List.filter_eq_nil_iff]
          intro y hy hyx
          exact hnd.1 (List.mem_map.mpr ⟨y, hy, eq_of_beq hyx⟩)
        rw [List.filter_cons_of_pos (by simp), hrest]
      · have hax : g a ≠ g x := by
          intro hax
          exact hnd.1 (List.mem_map.mpr ⟨x, h, hax.symm⟩)
        rw [List.filter_cons_of_neg (by simpa using hax)]
        exact ih hnd.2 h

namespace Variables

/-- A name tells its category and its number. -/
theorem numbered_inj {c c' : String} {m n : Nat} (h : numbered c m = numbered c' n) :
    c = c' ∧ m = n := by
  have hlist := congrArg String.toList h
  unfold numbered at hlist
  simp only [String.toList_append, List.append_assoc, Nat.toString_eq_repr, Nat.toList_repr]
    at hlist
  obtain ⟨hc, hdigits⟩ :=
    append_cons_inj_of_notMem Nat.underscore_not_in_toDigits Nat.underscore_not_in_toDigits hlist
  refine ⟨String.toList_injective hc, Nat.repr_injective ?_⟩
  rw [Nat.repr_eq_ofList_toDigits, Nat.repr_eq_ofList_toDigits, hdigits]

/-! ## One step of the table -/

/-- One more variable of a category. -/
def add (t : Variables) (group value name : String) : Variables :=
  ⟨t.categories.update group .empty fun vs => (vs.insert value name).2⟩

/-- The name that the next new value of a category gets. -/
def nextName (t : Variables) (group : String) : String :=
  numbered group ((t.values group).size + 1)

/-- All that `define` can do: nothing, find a name, or add the next one. -/
theorem define_cases (t : Variables) (property value : String) :
    (isCovered property = false ∧ t.define property value = (none, t))
      ∨ (∃ name, isCovered property = true ∧ t.get? property value = some name
          ∧ t.define property value = (some name, t))
      ∨ (isCovered property = true ∧ t.get? property value = none
          ∧ t.define property value = (some (t.nextName (category property)),
            t.add (category property) value (t.nextName (category property)))) := by
  unfold define
  cases hcov : isCovered property with
  | false => exact .inl ⟨rfl, rfl⟩
  | true =>
      right
      cases hget : t.get? property value with
      | some name =>
          have hval : (t.values (category property)).get? value = some name := hget
          left
          refine ⟨name, rfl, rfl, ?_⟩
          rw [if_pos rfl]
          dsimp only
          rw [hval]
      | none =>
          have hval : (t.values (category property)).get? value = none := hget
          right
          refine ⟨rfl, rfl, ?_⟩
          rw [if_pos rfl]
          dsimp only
          rw [hval]
          rfl

theorem values_add (t : Variables) (group value name c : String) :
    (t.add group value name).values c
      = if c == group then ((t.values group).insert value name).2 else t.values c := by
  unfold values add
  rw [OrderedMap.get?_eq_lookup, OrderedMap.toList_update, lookup_upsert,
    OrderedMap.get?_eq_lookup, OrderedMap.get?_eq_lookup]
  cases c == group <;> rfl

/-- A value that is new to a map is bound at the end. -/
theorem toList_insert_of_get?_none {vs : OrderedMap String String} {value : String}
    (h : vs.get? value = none) (name : String) :
    (vs.insert value name).2.toList = vs.toList ++ [(value, name)] := by
  rw [OrderedMap.toList_insert, upsert_of_notMem]
  intro w hw
  rw [OrderedMap.get?_eq_lookup, List.lookup_eq_none_iff] at h
  exact absurd (h _ hw) (by simp)

theorem get?_insert (vs : OrderedMap String String) (value name key : String) :
    (vs.insert value name).2.get? key = if key == value then some name else vs.get? key := by
  rw [OrderedMap.get?_eq_lookup, OrderedMap.toList_insert, lookup_upsert,
    OrderedMap.get?_eq_lookup]

/-! ## Names are kept -/

/-- What has a name keeps it. -/
theorem get?_define_of_some {t : Variables} {p v name : String} (h : t.get? p v = some name)
    (property value : String) : (t.define property value).2.get? p v = some name := by
  rcases t.define_cases property value with
    ⟨_, hdef⟩ | ⟨_, _, _, hdef⟩ | ⟨_, hnone, hdef⟩
  · rw [hdef]
    exact h
  · rw [hdef]
    exact h
  · rw [hdef]
    unfold get? at h hnone ⊢
    rw [values_add]
    by_cases hc : category p = category property
    · rw [hc] at h ⊢
      rw [if_pos (by simp), get?_insert]
      -- the new value had no name, so it is not the one asked for
      have hv : v ≠ value := by
        intro hv
        rw [hv, hnone] at h
        exact absurd h (by simp)
      rw [if_neg (by simpa using hv)]
      exact h
    · rw [if_neg (by simpa using hc)]
      exact h

/-- The name given out is the one in the table. -/
theorem get?_define_self {t : Variables} {property value name : String}
    (h : (t.define property value).1 = some name) :
    (t.define property value).2.get? property value = some name := by
  rcases t.define_cases property value with
    ⟨_, hdef⟩ | ⟨n, _, hget, hdef⟩ | ⟨_, _, hdef⟩
  · rw [hdef] at h
    exact absurd h (by simp)
  · rw [hdef] at h ⊢
    rw [← h]
    exact hget
  · rw [hdef] at h ⊢
    unfold get?
    rw [values_add, if_pos (by simp), get?_insert, if_pos (by simp)]
    exact h

/-- Only covered properties have their values named. -/
theorem isCovered_of_define {t : Variables} {property value name : String}
    (h : (t.define property value).1 = some name) : isCovered property = true := by
  rcases t.define_cases property value with ⟨_, hdef⟩ | ⟨_, hcov, _⟩ | ⟨hcov, _⟩
  · rw [hdef] at h
    exact absurd h (by simp)
  · exact hcov
  · exact hcov

theorem define_snd_of_none {t : Variables} {property value : String}
    (h : (t.define property value).1 = none) : (t.define property value).2 = t := by
  rcases t.define_cases property value with ⟨_, hdef⟩ | ⟨_, _, _, hdef⟩ | ⟨_, _, hdef⟩
  · rw [hdef]
  · rw [hdef]
  · rw [hdef] at h
    exact absurd h (by simp)

/-! ## Sound tables -/

/-- The categories are the fixed ones, and the names of each count up from one. -/
structure Sound (t : Variables) : Prop where
  keys_eq : t.categories.keys = properties.map category
  names_eq : ∀ c, (t.values c).toList.map Prod.snd
    = (List.range (t.values c).toList.length).map fun i => numbered c (i + 1)

theorem nodup_categories : (properties.map category).Nodup := by
  decide +kernel

theorem toList_categories_empty :
    empty.categories.toList = properties.map fun p => (category p, .empty) := by
  unfold empty
  rw [OrderedMap.toList_ofList]
  rw [List.map_map]
  exact nodup_categories

/-- The table starts without values. -/
theorem toList_values_empty (c : String) : (empty.values c).toList = [] := by
  unfold values
  rw [OrderedMap.get?_eq_lookup, toList_categories_empty]
  cases hc : List.lookup c (properties.map fun p =>
      (category p, (OrderedMap.empty : OrderedMap String String))) with
  | none => rfl
  | some vs =>
      obtain ⟨p, _, hp⟩ := List.mem_map.mp (mem_of_lookup hc)
      rw [Option.getD_some, ← (Prod.mk.inj hp).2]
      rfl

theorem sound_empty : Sound empty := by
  refine ⟨?_, ?_⟩
  · unfold OrderedMap.keys
    rw [toList_categories_empty, List.map_map]
    rfl
  · intro c
    rw [toList_values_empty]
    rfl

/-- A variable of a covered property goes to a category that is there. -/
theorem Sound.keys_add {t : Variables} (h : Sound t) {property : String}
    (hcov : isCovered property = true) (value name : String) :
    category property ∈ t.categories.keys
      ∧ (t.add (category property) value name).categories.keys = t.categories.keys := by
  have hmem : category property ∈ t.categories.keys := by
    rw [h.keys_eq]
    exact List.mem_map_of_mem (List.contains_iff_mem.mp hcov)
  refine ⟨hmem, ?_⟩
  unfold add
  rw [OrderedMap.keys_update, pushNew_of_mem hmem]

/-- A step keeps the table sound. -/
theorem Sound.define {t : Variables} (h : Sound t) (property value : String) :
    Sound (t.define property value).2 := by
  rcases t.define_cases property value with
    ⟨_, hdef⟩ | ⟨_, _, _, hdef⟩ | ⟨hcov, hnone, hdef⟩
  · rw [hdef]
    exact h
  · rw [hdef]
    exact h
  · rw [hdef]
    refine ⟨?_, ?_⟩
    · rw [(h.keys_add hcov value _).2]
      exact h.keys_eq
    · intro c
      rw [values_add]
      by_cases hc : c = category property
      · -- one more value, and one more number
        subst hc
        rw [if_pos (by simp), toList_insert_of_get?_none hnone, List.map_append, h.names_eq,
          List.length_append, List.length_singleton, List.range_succ, List.map_append]
        rfl
      · rw [if_neg (by simpa using hc)]
        exact h.names_eq c

/-- The values of a category are those listed with it. -/
theorem values_of_mem {t : Variables} {e : String × OrderedMap String String}
    (he : e ∈ t.categories.toList) : t.values e.1 = e.2 := by
  unfold values
  rw [OrderedMap.get?_eq_lookup, lookup_of_mem t.categories.nodup_keys he]
  rfl

/-- The declared variables are those of the categories, one category after the other. -/
theorem bindings_eq (t : Variables) :
    t.bindings = t.categories.keys.flatMap fun c => (t.values c).toList := by
  unfold bindings toList OrderedMap.keys
  rw [List.flatMap_map, List.flatMap_map]
  apply List.flatMap_congr
  intro e he
  rw [values_of_mem he]

/-- No name is declared twice. -/
theorem Sound.nodup_names {t : Variables} (h : Sound t) : (t.bindings.map Prod.snd).Nodup := by
  rw [t.bindings_eq, List.map_flatMap, List.nodup_flatMap]
  refine ⟨?_, ?_⟩
  · intro c _
    rw [h.names_eq c]
    refine List.Nodup.map ?_ List.nodup_range
    intro i j hij
    have := (numbered_inj hij).2
    omega
  · refine t.categories.nodup_keys.imp ?_
    intro c c' hne name hname hname'
    dsimp only at hname hname'
    rw [h.names_eq] at hname hname'
    obtain ⟨i, _, hi⟩ := List.mem_map.mp hname
    obtain ⟨j, _, hj⟩ := List.mem_map.mp hname'
    exact hne (numbered_inj (hi.trans hj.symm)).1

/-- What has a name is declared. -/
theorem mem_bindings_of_get? {t : Variables} {property value name : String}
    (h : t.get? property value = some name) : (value, name) ∈ t.bindings := by
  unfold get? at h
  rw [OrderedMap.get?_eq_lookup] at h
  rw [bindings_eq, List.mem_flatMap]
  refine ⟨category property, ?_, mem_of_lookup h⟩
  unfold values at h
  rw [OrderedMap.get?_eq_lookup] at h
  cases hc : t.categories.toList.lookup (category property) with
  | none =>
      rw [hc] at h
      exact absurd h (by simp)
  | some vs => exact List.mem_map.mpr ⟨_, mem_of_lookup hc, rfl⟩

/-- In a sound table a name leads back to its value, and to no other. -/
theorem Sound.filter_bindings {t : Variables} (h : Sound t) {property value name : String}
    (hget : t.get? property value = some name) :
    t.bindings.filter (fun b => b.2 == name) = [(value, name)] :=
  filter_eq_singleton h.nodup_names (mem_bindings_of_get? hget)

end Variables

end CssNest
