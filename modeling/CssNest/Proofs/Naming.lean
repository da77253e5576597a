import CssNest.Proofs.Variables

/-!
# A run of the naming table

A stylesheet asks for the names of its values one after the other, and the table grows on the
way. Whatever it is asked for, in whatever order, one value of a property has one name and a
name has one value: the answers of two calls that lie far apart are compared in the table
that is left at the end, because a name once given out stays.

`Names` is what a run keeps up. Beyond a sound table it says which values have names by now,
and how many.
-/

namespace CssNest

/-- If `g` has one member more than `f` at `a` and is `f` elsewhere, so has the whole listing. -/
theorem length_flatMap_add_one {α β : Type} {l : List α} (hnd : l.Nodup) {a : α} (ha : a ∈ l)
    {f g : α → List β} (hone : (g a).length = (f a).length + 1)
    (hsame : ∀ x, x ≠ a → g x = f x) : (l.flatMap g).length = (l.flatMap f).length + 1 := by
  induction l with
  | nil => exact absurd ha (by simp)
  | cons x l ih =>
      rw [List.nodup_cons] at hnd
      rw [List.flatMap_cons, List.flatMap_cons, List.length_append, List.length_append]
      rcases List.mem_cons.mp ha with rfl | hl
      · -- the rest of the list does not have `a` again
        have hrest : l.flatMap g = l.flatMap f := by
          apply List.flatMap_congr
          intro y hy
          exact hsame y fun hya => hnd.1 (hya ▸ hy)
        rw [hone, hrest]
        omega
      · have hxa : x ≠ a := fun hxa => hnd.1 (hxa ▸ hl)
        have := ih hnd.2 hl
        rw [hsame x hxa]
        omega

namespace Variables

/-! ## Names and what they stand for -/

/-- Two covered properties never share a category. -/
theorem category_inj {p q : String} (hp : isCovered p = true) (hq : isCovered q = true)
    (h : category p = category q) : p = q :=
  List.inj_on_of_nodup_map nodup_categories (List.contains_iff_mem.mp hp)
    (List.contains_iff_mem.mp hq) h

/-- The names of a category count up from one. -/
theorem Sound.name_eq {t : Variables} (h : Sound t) {c value name : String} {k : Nat}
    (hk : (t.values c).toList[k]? = some (value, name)) : name = numbered c (k + 1) := by
  have hname : ((t.values c).toList.map Prod.snd)[k]? = some name := by
    rw [List.getElem?_map, hk]
    rfl
  rw [h.names_eq c, List.getElem?_map] at hname
  obtain ⟨i, hi, rfl⟩ := Option.map_eq_some_iff.mp hname
  obtain ⟨_, rfl⟩ := List.getElem?_eq_some_iff.mp hi
  rw [List.getElem_range]

/-- What has a name stands at some place of its category. -/
theorem exists_place_of_get? {t : Variables} {p v name : String} (h : t.get? p v = some name) :
    ∃ k : Nat, (t.values (category p)).toList[k]? = some (v, name) := by
  unfold get? at h
  rw [OrderedMap.get?_eq_lookup] at h
  exact List.mem_iff_getElem?.mp (mem_of_lookup h)

/-- In a sound table a name belongs to one value of one property. -/
theorem Sound.get?_inj {t : Variables} (h : Sound t) {p q v w name : String}
    (hp : isCovered p = true) (hq : isCovered q = true) (hv : t.get? p v = some name)
    (hw : t.get? q w = some name) : p = q ∧ v = w := by
  obtain ⟨i, hi⟩ := exists_place_of_get? hv
  obtain ⟨j, hj⟩ := exists_place_of_get? hw
  obtain ⟨hcat, hnum⟩ := numbered_inj ((h.name_eq hi).symm.trans (h.name_eq hj))
  obtain rfl := category_inj hp hq hcat
  have hij : i = j := by omega
  subst hij
  rw [hi] at hj
  exact ⟨rfl, (Prod.mk.inj (Option.some.inj hj)).1⟩

/-! ## One call -/

/-- A new value makes the table larger by one. -/
theorem Sound.size_add {t : Variables} (h : Sound t) {property value : String} (name : String)
    (hcov : isCovered property = true) (hnone : t.get? property value = none) :
    (t.add (category property) value name).size = t.size + 1 := by
  obtain ⟨hmem, hkeys⟩ := h.keys_add hcov value name
  unfold size
  rw [bindings_eq, bindings_eq, hkeys]
  apply length_flatMap_add_one t.categories.nodup_keys hmem
  · rw [values_add, if_pos (by simp), toList_insert_of_get?_none hnone, List.length_append]
    rfl
  · intro c hc
    rw [values_add, if_neg (by simpa using hc)]

/-- After some calls: a sound table that names exactly the covered values asked for. -/
structure Names (calls : List (String × String)) (t : Variables) : Prop where
  /-- The categories are in place, and each counts up from one. -/
  sound : Sound t
  /-- A value of a covered property has a name once it was asked for. -/
  named_iff : ∀ p v, isCovered p = true → ((t.get? p v).isSome ↔ (p, v) ∈ calls)
  /-- Each covered value that was asked for counts once. -/
  size_eq : t.size = (calls.filter fun c => isCovered c.1).eraseDups.length

theorem names_empty : Names [] empty := by
  refine ⟨sound_empty, ?_, ?_⟩
  · intro p v _
    unfold get?
    rw [OrderedMap.get?_eq_lookup, toList_values_empty]
    simp
  · unfold size
    rw [bindings_eq]
    simp [toList_values_empty]

theorem filter_covered_concat (calls : List (String × String)) {property : String}
    (value : String) (h : isCovered property = true) :
    (calls ++ [(property, value)]).filter (fun c => isCovered c.1)
      = (calls.filter fun c => isCovered c.1) ++ [(property, value)] := by
  simp [h]

/-- One more call, and one more value to account for. -/
theorem Names.define {calls : List (String × String)} {t : Variables} (h : Names calls t)
    (property value : String) :
    Names (calls ++ [(property, value)]) (t.define property value).2 := by
  rcases t.define_cases property value with
    ⟨hcov, hdef⟩ | ⟨name, hcov, hget, hdef⟩ | ⟨hcov, hnone, hdef⟩
  · -- a property that is not covered leaves everything as it was
    rw [hdef]
    refine ⟨h.sound, ?_, ?_⟩
    · intro p v hp
      have hne : (p, v) ≠ (property, value) := by
        intro heq
        rw [(Prod.mk.inj heq).1, hcov] at hp
        exact absurd hp (by simp)
      rw [h.named_iff p v hp, List.mem_append, List.mem_singleton]
      exact ⟨Or.inl, fun hmem => hmem.resolve_right hne⟩
    · rw [h.size_eq, List.filter_append, List.filter_cons_of_neg (by simp [hcov]),
        List.filter_nil, List.append_nil]
  · -- a value that has a name was asked for before
    have hmem : (property, value) ∈ calls := (h.named_iff _ _ hcov).mp (by rw [hget]; rfl)
    rw [hdef]
    refine ⟨h.sound, ?_, ?_⟩
    · intro p v hp
      rw [h.named_iff p v hp, List.mem_append, List.mem_singleton]
      exact ⟨Or.inl, fun hor => hor.elim id fun heq => heq ▸ hmem⟩
    · have hold : (property, value) ∈ calls.filter fun c => isCovered c.1 :=
        List.mem_filter.mpr ⟨hmem, hcov⟩
      rw [h.size_eq, filter_covered_concat calls value hcov, eraseDups_concat]
      rw [pushNew_of_mem (List.mem_eraseDups.mpr hold)]
  · -- a new value is the only one that gets a name
    have hnew : (property, value) ∉ calls := by
      intro hmem
      have := (h.named_iff _ _ hcov).mpr hmem
      rw [hnone] at this
      exact absurd this (by simp)
    refine ⟨h.sound.define property value, ?_, ?_⟩
    · intro p v hp
      rw [List.mem_append, List.mem_singleton]
      constructor
      · intro hsome
        by_cases heq : (p, v) = (property, value)
        · exact .inr heq
        · refine .inl ((h.named_iff p v hp).mp ?_)
          rw [hdef] at hsome
          unfold get? at hsome ⊢
          rw [values_add] at hsome
          by_cases hcat : category p = category property
          · obtain rfl := category_inj hp hcov hcat
            have hv : v ≠ value := fun hv => heq (by rw [hv])
            rwa [if_pos (by simp), get?_insert, if_neg (by simpa using hv)] at hsome
          · rwa [if_neg (by simpa using hcat)] at hsome
      · rintro (hmem | heq)
        · obtain ⟨name, hname⟩ := Option.isSome_iff_exists.mp ((h.named_iff p v hp).mpr hmem)
          rw [get?_define_of_some hname]
          rfl
        · obtain ⟨rfl, rfl⟩ := Prod.mk.inj heq
          rw [get?_define_self (by rw [hdef])]
          rfl
    · have hold : (property, value) ∉ calls.filter fun c => isCovered c.1 :=
        fun hmem => hnew (List.mem_filter.mp hmem).1
      rw [hdef, h.sound.size_add _ hcov hnone, h.size_eq, filter_covered_concat calls value hcov,
        eraseDups_concat]
      rw [pushNew_of_notMem fun hmem => hold (List.mem_eraseDups.mp hmem), List.length_append]
      rfl

/-! ## A whole run -/

/-- Asks for names one after the other: the answers, and the table that is left. -/
def defineAll (t : Variables) : List (String × String) → List (Option String) × Variables
  | [] => ([], t)
  | call :: rest =>
    let step := t.define call.1 call.2
    let later := defineAll step.2 rest
    (step.1 :: later.1, later.2)

theorem Names.defineAll {before : List (String × String)} {t : Variables} (h : Names before t)
    (calls : List (String × String)) : Names (before ++ calls) (t.defineAll calls).2 := by
  induction calls generalizing before t with
  | nil =>
      rw [List.append_nil]
      exact h
  | cons call rest ih =>
      have := ih (h.define call.1 call.2)
      rwa [List.append_assoc, List.singleton_append] at this

/-- What has a name keeps it through any run. -/
theorem get?_defineAll {t : Variables} {p v name : String} (h : t.get? p v = some name)
    (calls : List (String × String)) : (t.defineAll calls).2.get? p v = some name := by
  induction calls generalizing t with
  | nil => exact h
  | cons call rest ih => exact ih (get?_define_of_some h call.1 call.2)

/-- A call is answered from the table that the calls before it have left. -/
theorem getElem?_defineAll (t : Variables) (calls : List (String × String)) (i : Nat) :
    (t.defineAll calls).1[i]?
      = calls[i]?.map fun call => ((t.defineAll (calls.take i)).2.define call.1 call.2).1 := by
  induction calls generalizing t i with
  | nil => rfl
  | cons call rest ih =>
      cases i with
      | zero => rfl
      | succ i =>
          rw [defineAll, List.getElem?_cons_succ, List.getElem?_cons_succ, ih]
          rfl

/-- One call more, seen from the start of the run. -/
theorem defineAll_take_succ (t : Variables) {calls : List (String × String)} {i : Nat}
    {call : String × String} (h : calls[i]? = some call) :
    (t.defineAll (calls.take (i + 1))).2
      = ((t.defineAll (calls.take i)).2.define call.1 call.2).2 := by
  induction calls generalizing t i with
  | nil => exact absurd h (by simp)
  | cons first rest ih =>
      cases i with
      | zero =>
          obtain rfl := Option.some.inj h
          rfl
      | succ i => exact ih _ h

/-- A name that was given out is the one that the table has in the end. -/
theorem get?_of_answer {t : Variables} {calls : List (String × String)} {i : Nat}
    {p v name : String} (hcall : calls[i]? = some (p, v))
    (hanswer : (t.defineAll calls).1[i]? = some (some name)) :
    isCovered p = true ∧ (t.defineAll calls).2.get? p v = some name := by
  induction calls generalizing t i with
  | nil => exact absurd hcall (by simp)
  | cons first rest ih =>
      cases i with
      | zero =>
          obtain rfl := Option.some.inj hcall
          have hstep : (t.define p v).1 = some name := Option.some.inj hanswer
          exact ⟨isCovered_of_define hstep, get?_defineAll (get?_define_self hstep) rest⟩
      | succ i => exact ih hcall hanswer

/--
**Names are stable and unique.** After any calls on a new table:

* the categories are the fixed ones, in their fixed order;
* the names of a category count up from one;
* a call for a covered property is answered with a name, and two calls get the same name
  exactly if they ask for the same value of the same property, whatever lies between them;
* a call for any other property gets no name and leaves the table as it was;
* there are as many variables as different covered values that were asked for.
-/
theorem defineAll_names_stable_unique (calls : List (String × String)) :
    let t : Variables := (empty.defineAll calls).2
    let answers := (empty.defineAll calls).1
    t.toList.map Prod.fst = properties.map category
      ∧ (∀ c ∈ t.toList, ∀ (k : Nat) (value name : String),
          c.2[k]? = some (value, name) → name = c.1 ++ "_" ++ toString (k + 1))
      ∧ (∀ (i : Nat) (p v : String), calls[i]? = some (p, v) → isCovered p = true →
          ∃ name, answers[i]? = some (some name))
      ∧ (∀ (i j : Nat) (p v q w m n : String),
          calls[i]? = some (p, v) → calls[j]? = some (q, w) →
          answers[i]? = some (some m) → answers[j]? = some (some n) →
          (m = n ↔ p = q ∧ v = w))
      ∧ (∀ (i : Nat) (p v : String), calls[i]? = some (p, v) → isCovered p = false →
          answers[i]? = some none
            ∧ (empty.defineAll (calls.take (i + 1))).2 = (empty.defineAll (calls.take i)).2)
      ∧ t.size = (calls.filter fun c => isCovered c.1).eraseDups.length := by
  intro t answers
  have hnames : Names calls t := names_empty.defineAll calls
  refine ⟨?_, ?_, ?_, ?_, ?_, hnames.size_eq⟩
  · have hfst : t.toList.map Prod.fst = t.categories.keys := by
      unfold toList OrderedMap.keys
      rw [List.map_map]
      rfl
    rw [hfst, hnames.sound.keys_eq]
  · intro c hc k value name hk
    obtain ⟨e, he, rfl⟩ := List.mem_map.mp hc
    exact hnames.sound.name_eq (by rw [values_of_mem he]; exact hk)
  · intro i p v hcall hcov
    show ∃ name, (empty.defineAll calls).1[i]? = some (some name)
    rw [getElem?_defineAll, hcall, Option.map_some]
    rcases (empty.defineAll (calls.take i)).2.define_cases p v with
      ⟨hno, _⟩ | ⟨name, _, _, hdef⟩ | ⟨_, _, hdef⟩
    · exact absurd hcov (by simp [hno])
    · exact ⟨name, by rw [hdef]⟩
    · exact ⟨_, by rw [hdef]⟩
  · intro i j p v q w m n hi hj hm hn
    -- both answers are still in the last table, and there a name has one value
    obtain ⟨hp, hpv⟩ := get?_of_answer hi hm
    obtain ⟨hq, hqw⟩ := get?_of_answer hj hn
    constructor
    · rintro rfl
      exact hnames.sound.get?_inj hp hq hpv hqw
    · rintro ⟨rfl, rfl⟩
      exact Option.some.inj (hpv.symm.trans hqw)
  · intro i p v hcall hcov
    have hstep : (empty.defineAll (calls.take i)).2.define p v
        = (none, (empty.defineAll (calls.take i)).2) := by
      rcases (empty.defineAll (calls.take i)).2.define_cases p v with
        ⟨_, hdef⟩ | ⟨_, hyes, _⟩ | ⟨hyes, _⟩
      · exact hdef
      · exact absurd hyes (by simp [hcov])
      · exact absurd hyes (by simp [hcov])
    refine ⟨?_, ?_⟩
    · show (empty.defineAll calls).1[i]? = some none
      rw [getElem?_defineAll, hcall, Option.map_some, hstep]
    · rw [defineAll_take_succ _ hcall, hstep]

end Variables

end CssNest
