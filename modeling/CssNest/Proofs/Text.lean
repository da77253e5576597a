import CssNest.Text.Blank
import CssNest.Text.Quote
import Mathlib.Data.List.Induction

/-!
# Places, quotes and blanks of a text

What is said about a scan is mostly said about a place of the text: what stands before a
character decides whether it is quoted or in brackets. `Everywhere` is the form of such a
statement, and `Quote.behind` the quote that any scan stands in behind what it has read. A scan
that writes or drops characters stands in the same quote as long as it leaves the quotes alone
(`Quote.behind_eq_of_filter`).

Trimming is known by what it leaves: a text with no blank at its ends, and nothing but blanks
around it. No selector is in sight here.
-/

namespace CssNest.Text

/-! ## Where a scan stands -/

/-- `P` holds of every character of a text and what stands before it. -/
def Everywhere (P : List Char → Char → Prop) (cs : List Char) : Prop :=
  ∀ before c after, cs = before ++ c :: after → P before c

theorem everywhere_nil (P : List Char → Char → Prop) : Everywhere P [] := by
  intro before c after h
  exact absurd h (by simp)

theorem everywhere_cons {P : List Char → Char → Prop} {c : Char} {cs : List Char} :
    Everywhere P (c :: cs) ↔ P [] c ∧ Everywhere (fun before => P (c :: before)) cs := by
  constructor
  · intro h
    refine ⟨h [] c cs rfl, ?_⟩
    intro before d after hcs
    exact h (c :: before) d after (by rw [hcs, List.cons_append])
  · rintro ⟨hfirst, hrest⟩ before d after hcs
    cases before with
    | nil =>
        obtain ⟨rfl, rfl⟩ := List.cons.inj hcs
        exact hfirst
    | cons e before =>
        obtain ⟨rfl, hrest'⟩ := List.cons.inj hcs
        exact hrest before d after hrest'

theorem Everywhere.of_append {P : List Char → Char → Prop} {xs ys : List Char}
    (h : Everywhere P (xs ++ ys)) : Everywhere P xs := by
  intro before c after hxs
  exact h before c (after ++ ys) (by rw [hxs, List.append_assoc, List.cons_append])

theorem Everywhere.concat {P : List Char → Char → Prop} {cs : List Char} (h : Everywhere P cs)
    {c : Char} (hc : P cs c) : Everywhere P (cs ++ [c]) := by
  intro before d after hcs
  cases after using List.reverseRecOn with
  | nil =>
      obtain ⟨rfl, hd⟩ := List.append_inj' hcs rfl
      obtain rfl : c = d := by simpa using hd
      exact hc
  | append_singleton after e =>
      have hfront : cs ++ [c] = (before ++ d :: after) ++ [e] := by rw [hcs]; simp
      exact h before d after (List.append_inj' hfront rfl).1

instance decidableEverywhere : (P : List Char → Char → Prop) →
    [∀ before c, Decidable (P before c)] → (cs : List Char) → Decidable (Everywhere P cs)
  | P, _, [] => isTrue (everywhere_nil P)
  | P, _, c :: cs =>
    have := decidableEverywhere (fun before => P (c :: before)) cs
    decidable_of_iff _ everywhere_cons.symm

/-! ## Quotes -/

/-- The quote that a scan stands in behind a text. -/
def Quote.behind (q : Quote) (cs : List Char) : Quote := cs.foldl Quote.after q

theorem Quote.behind_append (q : Quote) (xs ys : List Char) :
    q.behind (xs ++ ys) = (q.behind xs).behind ys := List.foldl_append

theorem Quote.isQuote_after {q : Quote} (hq : ∀ o ∈ q, isQuote o = true) (c : Char) :
    ∀ o ∈ q.after c, isQuote o = true := by
  intro o ho
  cases q with
  | none =>
      have hc : isQuote c = true ∧ c = o := by simpa [after] using ho
      rw [← hc.2]
      exact hc.1
  | some opened =>
      have hc : c ≠ opened ∧ opened = o := by simpa [after] using ho
      exact hq o (by rw [hc.2]; rfl)

theorem Quote.isQuote_behind (cs : List Char) :
    ∀ o ∈ Quote.behind none cs, isQuote o = true := by
  induction cs using List.reverseRecOn with
  | nil => simp [behind]
  | append_singleton cs c ih =>
      rw [behind_append]
      exact isQuote_after ih c

/-- A character that is no quote leaves the scan where it was. -/
theorem Quote.after_of_not_isQuote {q : Quote} (hq : ∀ o ∈ q, isQuote o = true) {c : Char}
    (hc : isQuote c = false) : q.after c = q := by
  cases q with
  | none => simp [after, hc]
  | some opened =>
      have hne : c ≠ opened := by
        rintro rfl
        rw [hq c rfl] at hc
        exact absurd hc (by simp)
      simp [after, hne]

theorem Quote.behind_of_not_isQuote {q : Quote} (hq : ∀ o ∈ q, isQuote o = true) {cs : List Char}
    (h : ∀ c ∈ cs, isQuote c = false) : q.behind cs = q := by
  induction cs with
  | nil => rfl
  | cons c cs ih =>
      rw [List.forall_mem_cons] at h
      rw [behind, List.foldl_cons, after_of_not_isQuote hq h.1]
      exact ih h.2

/-- Only quotes count for where a scan stands. -/
theorem Quote.behind_filter {q : Quote} (hq : ∀ o ∈ q, isQuote o = true) (cs : List Char) :
    q.behind (cs.filter isQuote) = q.behind cs := by
  induction cs generalizing q with
  | nil => rfl
  | cons c cs ih =>
      cases hc : isQuote c with
      | false =>
          rw [List.filter_cons_of_neg (by simp [hc]), ih hq, behind, behind, List.foldl_cons,
            after_of_not_isQuote hq hc]
      | true =>
          rw [List.filter_cons_of_pos hc]
          exact ih (isQuote_after hq c)

theorem Quote.behind_eq_of_filter {xs ys : List Char} (h : xs.filter isQuote = ys.filter isQuote) :
    Quote.behind none xs = Quote.behind none ys := by
  rw [← behind_filter (by simp), h, behind_filter (by simp)]

/-! ## Trimming -/

theorem dropWhile_eq_self {cs : List Char} (h : ∀ c ∈ cs.head?, isBlank c = false) :
    cs.dropWhile isBlank = cs := by
  cases cs with
  | nil => rfl
  | cons c cs => rw [List.dropWhile_cons_of_neg (by simpa using h c rfl)]

/-- There is nothing to trim if no blank stands at the ends. -/
theorem trim_eq_self {cs : List Char} (hstarts : ∀ c ∈ cs.head?, isBlank c = false)
    (hends : ∀ c ∈ cs.getLast?, isBlank c = false) : trim cs = cs := by
  have hstart : trimStart cs = cs := dropWhile_eq_self hstarts
  have hend : cs.reverse.dropWhile isBlank = cs.reverse := by
    apply dropWhile_eq_self
    rw [List.head?_reverse]
    exact hends
  rw [trim, hstart, trimEnd, hend, List.reverse_reverse]

theorem head?_trimStart (cs : List Char) : ∀ c ∈ (trimStart cs).head?, isBlank c = false := by
  intro c hc
  have hnot := List.head?_dropWhile_not isBlank cs
  rw [trimStart, Option.mem_def] at hc
  rwa [hc] at hnot

theorem getLast?_trim (cs : List Char) : ∀ c ∈ (trim cs).getLast?, isBlank c = false := by
  intro c hc
  rw [trim, trimEnd, List.getLast?_reverse] at hc
  exact head?_trimStart _ c hc

theorem head?_trim (cs : List Char) : ∀ c ∈ (trim cs).head?, isBlank c = false := by
  intro c hc
  -- what is cut off at the end leaves the first character alone
  have hprefix : trim cs <+: trimStart cs := by
    rw [← List.reverse_suffix, trim, trimEnd, List.reverse_reverse]
    exact List.dropWhile_suffix _
  obtain ⟨back, hback⟩ := hprefix
  apply head?_trimStart cs
  rw [← hback, Option.mem_def, List.head?_append, hc]
  rfl

theorem mem_of_mem_trim {c : Char} {cs : List Char} (h : c ∈ trim cs) : c ∈ cs := by
  unfold trim trimEnd trimStart at h
  have hend := (List.dropWhile_sublist _).subset (List.mem_reverse.mp h)
  exact (List.dropWhile_sublist _).subset (List.mem_reverse.mp hend)

/-- A text is what is left after trimming, with blanks around it. -/
theorem exists_trim_eq (cs : List Char) :
    ∃ front back, cs = front ++ trim cs ++ back
      ∧ (∀ c ∈ front, isBlank c = true) ∧ ∀ c ∈ back, isBlank c = true := by
  refine ⟨cs.takeWhile isBlank, ((trimStart cs).reverse.takeWhile isBlank).reverse, ?_, ?_, ?_⟩
  · rw [List.append_assoc, trim, trimEnd, ← List.reverse_append, List.takeWhile_append_dropWhile,
      List.reverse_reverse, trimStart, List.takeWhile_append_dropWhile]
  · exact List.all_eq_true.mp List.all_takeWhile
  · intro c hc
    exact List.all_eq_true.mp List.all_takeWhile c (List.mem_reverse.mp hc)

/-- Trimming at the end stops at the latest at a character that is not blank. -/
theorem trimEnd_append_cons {c : Char} (hc : isBlank c = false) (p w : List Char) :
    trimEnd (p ++ c :: w) = p ++ c :: trimEnd w := by
  have hstop : (c :: p.reverse).dropWhile isBlank = c :: p.reverse :=
    dropWhile_eq_self (by simpa using hc)
  have hrev : (p ++ c :: w).reverse = w.reverse ++ c :: p.reverse := by simp
  rw [trimEnd, hrev, List.dropWhile_append, hstop, trimEnd]
  split
  · rename_i hempty
    rw [List.isEmpty_iff.mp hempty]
    simp
  · simp

theorem trim_append {p t : List Char} (hp : ∀ c ∈ p.head?, isBlank c = false)
    (ht : ∃ c w, t = c :: w ∧ isBlank c = false) : trim (p ++ t) = p ++ trim t := by
  obtain ⟨c, w, rfl, hc⟩ := ht
  have hstarts : trimStart (p ++ c :: w) = p ++ c :: w := by
    apply dropWhile_eq_self
    cases p with
    | nil => simpa using hc
    | cons d p => simpa using hp
  have hkept : trimStart (c :: w) = c :: w := dropWhile_eq_self (by simpa using hc)
  rw [trim, hstarts, trim, hkept, trimEnd_append_cons hc, ← List.nil_append (c :: w),
    trimEnd_append_cons hc]
  rfl

/-- A blank at the end is dropped. -/
theorem trim_concat_blank {c : Char} (hc : isBlank c = true) (cs : List Char) :
    trim (cs ++ [c]) = trim cs := by
  have hlast : ∀ xs, trimEnd (xs ++ [c]) = trimEnd xs := by
    intro xs
    rw [trimEnd, List.reverse_append, List.reverse_singleton, List.singleton_append,
      List.dropWhile_cons_of_pos hc, trimEnd]
  rw [trim, trim, trimStart, List.dropWhile_append]
  split
  · rename_i hempty
    rw [List.isEmpty_iff] at hempty
    rw [trimStart, hempty, List.dropWhile_cons_of_pos hc]
    rfl
  · exact hlast _

end CssNest.Text
