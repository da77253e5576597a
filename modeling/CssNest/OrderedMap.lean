import Std.Data.HashMap

/-!
# Ordered maps

A map whose keys are listed in the order of their first use, which is the order in
which everything is written out. The bindings stand in an array, and an index finds
the slot of a key. The index and the array always agree; that is part of the type.

`OrderedMap.toList` is the view through which the operations are described.
-/

namespace CssNest

/-- Equal strings have equal hashes. -/
instance lawfulHashableString : LawfulHashable String := inferInstance

/-- The bindings in the order of first use of their keys, with an index of the slots. -/
structure OrderedMap (κ ν : Type) [BEq κ] [Hashable κ] where
  entries : Array (κ × ν)
  index : Std.HashMap κ Nat
  agrees : ∀ (k : κ) (i : Nat), index[k]? = some i ↔ ∃ v, entries[i]? = some (k, v)

namespace OrderedMap

variable {κ ν : Type} [BEq κ] [Hashable κ]

/-- The map without bindings. -/
def empty [LawfulBEq κ] [LawfulHashable κ] : OrderedMap κ ν where
  entries := #[]
  index := ∅
  agrees := by simp

instance [LawfulBEq κ] [LawfulHashable κ] : Inhabited (OrderedMap κ ν) := ⟨empty⟩

/-- The bindings in order. -/
def toList (m : OrderedMap κ ν) : List (κ × ν) := m.entries.toList

/-- The keys in order. -/
def keys (m : OrderedMap κ ν) : List κ := m.toList.map Prod.fst

/-- The values in the order of their keys. -/
def values (m : OrderedMap κ ν) : List ν := m.toList.map Prod.snd

/-- The number of keys. -/
def size (m : OrderedMap κ ν) : Nat := m.entries.size

/-- Whether there is no key. -/
def isEmpty (m : OrderedMap κ ν) : Bool := m.entries.isEmpty

/-- Whether `k` is a key. -/
def contains (m : OrderedMap κ ν) (k : κ) : Bool := m.index.contains k

/-- The value of `k`. -/
def get? (m : OrderedMap κ ν) (k : κ) : Option ν :=
  (m.index[k]?.bind fun i => m.entries[i]?).map Prod.snd

/-- Two maps are equal when they list the same bindings in the same order. -/
instance [BEq ν] : BEq (OrderedMap κ ν) := ⟨fun a b => a.entries == b.entries⟩

/-- A slot of the index lies in the array. -/
theorem lt_size_of_index {m : OrderedMap κ ν} {k : κ} {i : Nat} (h : m.index[k]? = some i) :
    i < m.entries.size := by
  obtain ⟨v, hv⟩ := (m.agrees k i).1 h
  exact (Array.getElem?_eq_some_iff.1 hv).1

/-- The value in a slot is changed by `f`, and its key is kept. -/
def modifySlot (m : OrderedMap κ ν) (i : Nat) (f : ν → ν) : OrderedMap κ ν where
  entries := m.entries.modify i fun p => (p.1, f p.2)
  index := m.index
  agrees := by
    intro k j
    rw [m.agrees, Array.getElem?_modify]
    split
    · cases m.entries[j]? with
      | none => simp
      | some p => obtain ⟨a, b⟩ := p; simp
    · rfl

/-- A binding for a key that the map does not have goes to the end. -/
def push [LawfulBEq κ] [LawfulHashable κ] (m : OrderedMap κ ν) (k : κ) (v : ν)
    (fresh : m.index[k]? = none) : OrderedMap κ ν where
  entries := m.entries.push (k, v)
  index := m.index.insert k m.entries.size
  agrees := by
    intro a i
    rw [Std.HashMap.getElem?_insert, Array.getElem?_push]
    by_cases hk : k == a
    · -- the new key has the new slot and no other
      simp only [hk, if_true, Option.some.injEq]
      have hka : k = a := eq_of_beq hk
      subst hka
      constructor
      · rintro rfl
        exact ⟨v, by simp⟩
      · rintro ⟨w, hw⟩
        split at hw
        · next h => exact h.symm
        · exact absurd ((m.agrees k i).2 ⟨w, hw⟩) (by simp [fresh])
    · -- every other key keeps its slot
      have hka : k ≠ a := fun h => hk (by simp [h])
      simp only [hk, Bool.false_eq_true, if_false]
      constructor
      · intro h
        obtain ⟨w, hw⟩ := (m.agrees a i).1 h
        refine ⟨w, ?_⟩
        rw [if_neg (Nat.ne_of_lt (lt_size_of_index h)), hw]
      · rintro ⟨w, hw⟩
        split at hw
        · simp only [Option.some.injEq, Prod.mk.injEq] at hw
          exact absurd hw.1 hka
        · exact (m.agrees a i).2 ⟨w, hw⟩

variable [LawfulBEq κ] [LawfulHashable κ]

/-- The value of `k` is changed by `f`; a key not seen yet first gets `fresh`, at the end. -/
def update (m : OrderedMap κ ν) (k : κ) (fresh : ν) (f : ν → ν) : OrderedMap κ ν :=
  match h : m.index[k]? with
  | some i => m.modifySlot i f
  | none => m.push k (f fresh) h

/-- Binds `k` to `v`, in its old place if it has one, and gives back the value it replaces. -/
def insert (m : OrderedMap κ ν) (k : κ) (v : ν) : Option ν × OrderedMap κ ν :=
  (m.get? k, m.update k v fun _ => v)

/-- The map that `insert` leaves after binding the pairs one after the other. -/
def ofList (pairs : List (κ × ν)) : OrderedMap κ ν :=
  pairs.foldl (fun m p => (m.insert p.1 p.2).2) empty

end OrderedMap

end CssNest
