import CssNest.Proofs.OrderedMap

/-!
# Ordered maps under any calls

An ordered map keeps two structures in step, an array of bindings and an index of their slots.
Whoever uses it sees neither: only what the calls give back. The plain model here has a list of
pairs and nothing else. It searches the list from the front, changes a binding where it finds the
key, and puts a new binding at the end.

A call does to the map what it does to the list that the map stands for (`step_toList`). So any
run of calls gives the same replies on both, and the list is at any time what `toList` shows.
-/

namespace CssNest

/-! ## Runs -/

/-- Makes calls one after the other; gives their replies, and the state behind the last one. -/
def runCalls {σ γ ρ : Type} (step : σ → γ → ρ × σ) (s : σ) : List γ → List ρ × σ
  | [] => ([], s)
  | call :: calls =>
    let after := runCalls step (step s call).2 calls
    ((step s call).1 :: after.1, after.2)

/-- If every call means the same on what is seen of a state, so does every run. -/
theorem runCalls_view {σ τ γ ρ : Type} {step : σ → γ → ρ × σ} {step' : τ → γ → ρ × τ}
    {view : σ → τ} (h : ∀ s call, step' (view s) call = ((step s call).1, view (step s call).2))
    (s : σ) (calls : List γ) :
    runCalls step' (view s) calls
      = ((runCalls step s calls).1, view (runCalls step s calls).2) := by
  induction calls generalizing s with
  | nil => rfl
  | cons call calls ih =>
      rw [runCalls, runCalls, h, ih]

namespace OrderedMap

/-! ## Calls -/

/-- A call on a map. -/
inductive Call (κ ν : Type) where
  /-- Binds a key, and gives back the value that it had before. -/
  | insert (k : κ) (v : ν)
  /--
  Gives the value in the slot of a key, which is made and filled with `fresh` if the key has
  none. The caller then changes what is in the slot by `f`.
  -/
  | slot (k : κ) (fresh : ν) (f : ν → ν)
  | get (k : κ)
  | contains (k : κ)
  | size
  /-- Goes through all bindings. -/
  | bindings

/-- What a call gives back. -/
inductive Reply (κ ν : Type) where
  | value (found : Option ν)
  | answer (yes : Bool)
  | count (n : Nat)
  | bindings (l : List (κ × ν))
deriving DecidableEq, Repr

/-- The key that a call uses, and binds if it is not bound yet. -/
def Call.key? {κ ν : Type} : Call κ ν → Option κ
  | insert k _ => some k
  | slot k _ _ => some k
  | get _ => none
  | contains _ => none
  | size => none
  | bindings => none

section

variable {κ ν : Type} [BEq κ] [Hashable κ] [LawfulBEq κ] [LawfulHashable κ]

/-- A call on a map: the reply, and the map afterwards. -/
def step (m : OrderedMap κ ν) : Call κ ν → Reply κ ν × OrderedMap κ ν
  | .insert k v => (.value (m.insert k v).1, (m.insert k v).2)
  | .slot k fresh f => (.value ((m.update k fresh id).get? k), m.update k fresh f)
  | .get k => (.value (m.get? k), m)
  | .contains k => (.answer (m.contains k), m)
  | .size => (.count m.size, m)
  | .bindings => (.bindings m.toList, m)

end

/-- The same call on a plain list of bindings. -/
def listStep {κ ν : Type} [BEq κ] (l : List (κ × ν)) : Call κ ν → Reply κ ν × List (κ × ν)
  | .insert k v => (.value (l.lookup k), upsert k v (fun _ => v) l)
  | .slot k fresh f => (.value (some ((l.lookup k).getD fresh)), upsert k fresh f l)
  | .get k => (.value (l.lookup k), l)
  | .contains k => (.answer (l.any fun p => p.1 == k), l)
  | .size => (.count l.length, l)
  | .bindings => (.bindings l, l)

/-! ## One call -/

variable {κ ν : Type} [BEq κ] [Hashable κ]

theorem size_eq_length (m : OrderedMap κ ν) : m.size = m.toList.length :=
  Array.length_toList.symm

variable [LawfulBEq κ]

theorem get?_eq_some_iff (m : OrderedMap κ ν) (k : κ) (v : ν) :
    m.get? k = some v ↔ (k, v) ∈ m.toList := by
  rw [get?_eq_lookup]
  exact ⟨mem_of_lookup, lookup_of_mem m.nodup_keys⟩

variable [LawfulHashable κ]

/-- The index has a slot for the keys of the list and for no others. -/
theorem contains_iff (m : OrderedMap κ ν) (k : κ) : m.contains k = true ↔ k ∈ m.keys := by
  have hslot : m.contains k = true ↔ ∃ i, m.index[k]? = some i := by
    rw [contains, Std.HashMap.contains_eq_isSome_getElem?, Option.isSome_iff_exists]
  rw [hslot, keys, List.mem_map]
  constructor
  · rintro ⟨i, hi⟩
    obtain ⟨v, hv⟩ := (m.index_eq_some_iff k i).mp hi
    exact ⟨(k, v), List.mem_of_getElem? hv, rfl⟩
  · rintro ⟨⟨_, v⟩, hmem, rfl⟩
    obtain ⟨i, hi⟩ := List.mem_iff_getElem?.mp hmem
    exact ⟨i, (m.index_eq_some_iff _ i).mpr ⟨v, hi⟩⟩

theorem contains_eq_any (m : OrderedMap κ ν) (k : κ) :
    m.contains k = m.toList.any fun p => p.1 == k := by
  rw [Bool.eq_iff_iff, contains_iff, keys, List.mem_map, List.any_eq_true]
  simp only [beq_iff_eq]

/-- A call means the same on a map and on the list that it stands for. -/
theorem step_toList (m : OrderedMap κ ν) (call : Call κ ν) :
    listStep m.toList call = ((m.step call).1, (m.step call).2.toList) := by
  cases call with
  | insert k v =>
      rw [listStep, step, toList_insert, insert, get?_eq_lookup]
  | slot k fresh f =>
      rw [listStep, step, toList_update, get?_eq_lookup, toList_update, lookup_upsert]
      simp
  | get k => rw [listStep, step, get?_eq_lookup]
  | contains k => rw [listStep, step, contains_eq_any]
  | size => rw [listStep, step, size_eq_length]
  | bindings => rfl

theorem keys_step (m : OrderedMap κ ν) (call : Call κ ν) :
    (m.step call).2.keys = call.key?.elim m.keys (pushNew m.keys) := by
  cases call with
  | insert k v => exact m.keys_update k v fun _ => v
  | slot k fresh f => exact m.keys_update k fresh f
  | get k => rfl
  | contains k => rfl
  | size => rfl
  | bindings => rfl

/-! ## Any run -/

/-- A run adds the keys that its calls use, each at its first use. -/
theorem keys_runCalls (m : OrderedMap κ ν) (calls : List (Call κ ν)) :
    (runCalls step m calls).2.keys = (calls.filterMap Call.key?).foldl pushNew m.keys := by
  induction calls generalizing m with
  | nil => rfl
  | cons call calls ih =>
      rw [runCalls, ih, keys_step, List.filterMap_cons]
      cases call.key? <;> rfl

/--
**An ordered map is a list of bindings.** Whatever calls are made on a new map, with any change to
the slots that are given out, every reply is the one that a plain list of bindings gives, and what
the map shows in the end is that list. In the map the index has a slot for a key exactly if that
slot of the array holds a binding of the key. So every slot of the index lies in the array, no key
is bound twice, and membership, lookup and size are those of the list. The keys are the ones that
the calls used, in the order of first use.
-/
theorem run_agrees_with_list (calls : List (Call κ ν)) :
    let run := runCalls step (empty : OrderedMap κ ν) calls
    let m := run.2
    runCalls listStep [] calls = (run.1, m.toList)
      ∧ (∀ (k : κ) (i : Nat), m.index[k]? = some i ↔ ∃ v, m.entries[i]? = some (k, v))
      ∧ (∀ (k : κ) (i : Nat), m.index[k]? = some i → i < m.entries.size)
      ∧ m.keys.Nodup
      ∧ (∀ k, m.contains k = true ↔ k ∈ m.keys)
      ∧ (∀ k v, m.get? k = some v ↔ (k, v) ∈ m.toList)
      ∧ m.size = m.toList.length
      ∧ m.keys = (calls.filterMap Call.key?).eraseDups := by
  intro run m
  refine ⟨runCalls_view step_toList empty calls, m.agrees, fun k i => lt_size_of_index,
    m.nodup_keys, m.contains_iff, m.get?_eq_some_iff, m.size_eq_length, ?_⟩
  rw [← distinct_eq_eraseDups]
  exact keys_runCalls empty calls

/-- A binding that is replaced, a slot that is made and changed, and one that is only asked for. -/
def sampleCalls : List (Call String Nat) :=
  [.insert "a" 1, .slot "b" 0 (· + 5), .insert "a" 2, .slot "b" 7 id, .get "c", .contains "b",
    .size, .bindings]

theorem sampleCalls_agree_with_list :
    let run := runCalls step (empty : OrderedMap String Nat) sampleCalls
    run.1 = [.value none, .value (some 0), .value (some 1), .value (some 5), .value none,
        .answer true, .count 2, .bindings [("a", 2), ("b", 5)]]
      ∧ run.2.toList = [("a", 2), ("b", 5)]
      ∧ run.2.keys.Nodup
      ∧ run.2.keys = ["a", "b"] := by
  intro run
  obtain ⟨hrun, -, -, hnodup, -, -, -, hkeys⟩ := run_agrees_with_list sampleCalls
  have hplain : runCalls listStep [] sampleCalls
      = ([.value none, .value (some 0), .value (some 1), .value (some 5), .value none,
        .answer true, .count 2, .bindings [("a", 2), ("b", 5)]], [("a", 2), ("b", 5)]) := by
    decide
  rw [hplain, Prod.mk.injEq] at hrun
  exact ⟨hrun.1.symm, hrun.2.symm, hnodup, hkeys.trans (by decide)⟩

end OrderedMap

end CssNest
