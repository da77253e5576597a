import CssNest.Proofs.Scans

/-!
# What is left of a selector in its path

Whatever the selector, with brackets that do not match, quotes left open and combinators in a row,
its path has all of its characters in their order. The scans write spaces and markers and drop
spaces, and the last one drops the blanks at which it splits. Nothing else is lost, written twice
or moved.

Each segment is as it should be, too: there is something in it, it begins and ends with it, and a
blank stands in it only where a quote was opened before, in the same segment. For this the scan
has to be followed with the part of a segment that it holds. There a blank behind an open quote
may come last, which is then trimmed if the quote is never closed.
-/

namespace CssNest.Selector

open Text

/-! ## Characters -/

/-- A character that is neither blank nor a marker. -/
def isLasting (c : Char) : Bool := !isBlank c && c != '&'

theorem isLasting_of_isBlank {c : Char} (h : isBlank c = true) : isLasting c = false := by
  simp [isLasting, h]

theorem filter_isLasting_blanks {cs : List Char} (h : ∀ c ∈ cs, isBlank c = true) :
    cs.filter isLasting = [] := by
  rw [List.filter_eq_nil_iff]
  intro c hc
  simp [isLasting_of_isBlank (h c hc)]

theorem filter_isLasting_trim (cs : List Char) :
    (trim cs).filter isLasting = cs.filter isLasting := by
  obtain ⟨front, back, hcs, hfront, hback⟩ := exists_trim_eq cs
  have hfilter := congrArg (List.filter isLasting) hcs
  rw [List.filter_append, List.filter_append, filter_isLasting_blanks hfront,
    filter_isLasting_blanks hback, List.nil_append, List.append_nil] at hfilter
  exact hfilter.symm

theorem filter_flatten_finish (current : List Char) :
    (finish current).flatten.filter isLasting = current.reverse.filter isLasting := by
  rw [← filter_isLasting_trim current.reverse, finish]
  split
  · rename_i hempty
    rw [List.isEmpty_iff.mp hempty]
    rfl
  · rw [List.flatten_singleton]

/-- Splitting a text drops blanks only. -/
theorem filter_flatten_segmentsFrom (q : Quote) (current cs : List Char) :
    (segmentsFrom q current cs).flatten.filter isLasting
      = (current.reverse ++ cs).filter isLasting := by
  induction cs generalizing q current with
  | nil => rw [segmentsFrom, filter_flatten_finish, List.append_nil]
  | cons c cs ih =>
      rcases splits_or_not q c with ⟨hblank, rfl⟩ | hc
      · have hdropped : (c :: cs).filter isLasting = cs.filter isLasting :=
          List.filter_cons_of_neg (by simp [isLasting_of_isBlank hblank])
        rw [segmentsFrom_blank hblank, List.flatten_append, List.filter_append,
          filter_flatten_finish, ih, List.reverse_nil, List.nil_append, List.filter_append,
          hdropped]
      · rw [segmentsFrom_char hc, ih, List.reverse_cons, List.append_assoc]
        rfl

theorem filter_flatten_pathChars (cs : List Char) :
    (pathChars cs).flatten.filter isLasting = cs.filter isLasting := by
  have hspace : isLasting ' ' = false := rfl
  have hmark : isLasting '&' = false := rfl
  calc (pathChars cs).flatten.filter isLasting
      = (markCombinators attaching (markPseudo (normalizeChild cs))).filter isLasting :=
        filter_flatten_segmentsFrom none [] _
    _ = (markPseudo (normalizeChild cs)).filter isLasting :=
        filter_markCombinatorsFrom hspace hmark attaching none 0 false _
    _ = (normalizeChild cs).filter isLasting := filter_markPseudoFrom hspace hmark false false _
    _ = cs.filter isLasting := filter_normalizeChild hspace cs

/-! ## Segments -/

/-- Blanks stand only where a quote is open. -/
def BlanksQuoted (cs : List Char) : Prop :=
  Everywhere (fun before c => isBlank c = true → Quote.behind none before ≠ none) cs

/-- What a segment of a path looks like. -/
structure WellCut (segment : List Char) : Prop where
  nonempty : segment ≠ []
  starts : ∀ c ∈ segment.head?, isBlank c = false
  ends : ∀ c ∈ segment.getLast?, isBlank c = false
  blanks : BlanksQuoted segment

theorem BlanksQuoted.cons {q : Quote} {current : List Char} (h : BlanksQuoted current.reverse)
    (hbegun : Begun q current) {c : Char} (hc : (isBlank c && q.isNone) = false) :
    BlanksQuoted (c :: current).reverse := by
  rw [List.reverse_cons]
  refine Everywhere.concat h ?_
  intro hblank hclosed
  rw [hbegun.quote] at hclosed
  rw [hblank, hclosed] at hc
  exact absurd hc (by decide)

theorem Begun.wellCut_finish {q : Quote} {current : List Char} (h : Begun q current)
    (hblanks : BlanksQuoted current.reverse) : ∀ segment ∈ finish current, WellCut segment := by
  intro segment hsegment
  rw [finish] at hsegment
  split at hsegment
  · exact absurd hsegment (by simp)
  · rename_i hne
    obtain rfl := List.mem_singleton.mp hsegment
    refine ⟨by simpa using hne, head?_trim _, getLast?_trim _, ?_⟩
    -- nothing is cut off at the start, so the same text stands before each blank
    obtain ⟨front, back, hcurrent, hfront, -⟩ := exists_trim_eq current.reverse
    have hnone : front = [] := by
      cases front with
      | nil => rfl
      | cons c front =>
          have hfirst : isBlank c = false := by
            apply h.starts
            rw [← List.head?_reverse, hcurrent]
            rfl
          rw [hfront c (by simp)] at hfirst
          exact absurd hfirst (by simp)
    rw [hnone, List.nil_append] at hcurrent
    rw [hcurrent] at hblanks
    exact hblanks.of_append

theorem Begun.wellCut_segmentsFrom {q : Quote} {current : List Char} (h : Begun q current)
    (hblanks : BlanksQuoted current.reverse) (cs : List Char) :
    ∀ segment ∈ segmentsFrom q current cs, WellCut segment := by
  induction cs generalizing q current with
  | nil => exact h.wellCut_finish hblanks
  | cons c cs ih =>
      rcases splits_or_not q c with ⟨hblank, rfl⟩ | hc
      · rw [segmentsFrom_blank hblank, List.forall_mem_append]
        exact ⟨h.wellCut_finish hblanks, ih begun_nil (everywhere_nil _)⟩
      · rw [segmentsFrom_char hc]
        exact ih (h.cons hc) (hblanks.cons h hc)

/--
**A path keeps the characters of its selector.** Put together, the segments of a path have the
characters of the selector in their order, blanks and markers apart. No segment is empty or has a
blank at its ends, and inside a segment blanks stand only in quotes that were opened in it.
-/
theorem path_conserves_characters (s : String) :
    ((path s).flatMap String.toList).filter isLasting = s.toList.filter isLasting
      ∧ ∀ segment ∈ path s, WellCut segment.toList := by
  constructor
  · have hflatten : (path s).flatMap String.toList = (pathChars s.toList).flatten := by
      simp [path, List.flatMap_map, List.flatMap_id']
    rw [hflatten]
    exact filter_flatten_pathChars s.toList
  · intro segment hsegment
    obtain ⟨chars, hchars, rfl⟩ := List.mem_map.mp hsegment
    rw [String.toList_ofList]
    exact begun_nil.wellCut_segmentsFrom (everywhere_nil _) _ chars hchars

/-- Brackets closed that were never opened, combinators in a row, and a quote left open. -/
example : path ")+ >::a['b & >c \t " = [")&+>", "&::a['b &  >c"] := by decide +kernel

end CssNest.Selector
