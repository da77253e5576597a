import CssNest.Text.Collapse
import CssNest.Proofs.Scans

/-!
# Blanks that split and blanks that collapse

Two scans look for blanks outside quotes. One splits a selector there, the other one writes a
single space. Each has its own idea of a text's ends: the first trims every segment, the second
one the whole text, which makes a difference only where a quote is left open, and there both
trim the same blanks.

So a text with its blanks collapsed is the list of its segments with single spaces between them,
and splitting it gives these segments again.
-/

namespace CssNest.Selector

open Text

/-! ## Segments -/

theorem finish_blank {c : Char} (hc : isBlank c = true) (current : List Char) :
    finish (c :: current) = finish current := by
  rw [finish, finish, List.reverse_cons, trim_concat_blank hc]

/-- A blank at the end is dropped, also from a quoted part that is left open. -/
theorem segmentsFrom_concat_blank {c : Char} (hc : isBlank c = true) (q : Quote)
    (current cs : List Char) : segmentsFrom q current (cs ++ [c]) = segmentsFrom q current cs := by
  induction cs generalizing q current with
  | nil =>
      cases q with
      | none =>
          rw [List.nil_append, segmentsFrom_blank hc]
          exact List.append_nil _
      | some o =>
          rw [List.nil_append, segmentsFrom_char (by simp)]
          exact finish_blank hc current
  | cons d cs ih =>
      rw [List.cons_append, segmentsFrom, segmentsFrom, ih, ih]

theorem segments_blanks {front : List Char} (h : ∀ c ∈ front, isBlank c = true)
    (cs : List Char) : segments (front ++ cs) = segments cs := by
  induction front with
  | nil => rfl
  | cons c front ih =>
      rw [List.forall_mem_cons] at h
      exact (segmentsFrom_blank h.1 [] _).trans (ih h.2)

theorem segments_append_blanks (cs : List Char) {back : List Char}
    (h : ∀ c ∈ back, isBlank c = true) : segments (cs ++ back) = segments cs := by
  induction back using List.reverseRecOn with
  | nil => rw [List.append_nil]
  | append_singleton back c ih =>
      rw [List.forall_mem_append] at h
      rw [← List.append_assoc, segments, segmentsFrom_concat_blank (h.2 c (by simp))]
      exact ih h.1

/-- The blanks at the ends of a text are in no segment. -/
theorem segments_trim (cs : List Char) : segments (trim cs) = segments cs := by
  obtain ⟨front, back, hcs, hfront, hback⟩ := exists_trim_eq cs
  rw [hcs, segments_append_blanks _ hback, segments_blanks hfront, ← hcs]

/-! ## Collapsed blanks -/

/--
With a space before each segment, the segments are the text with its blanks collapsed. A segment
that was begun has no space before what is still to come.
-/
theorem spaced_segmentsFrom {q : Quote} {current cs : List Char} (h : Begun q current)
    (hend : ∀ c ∈ (current.reverse ++ cs).getLast?, isBlank c = false) :
    spaced (segmentsFrom q current cs)
      = (if current.isEmpty then [] else ' ' :: current.reverse)
        ++ collapseFrom q current.isEmpty cs := by
  induction cs generalizing q current with
  | nil =>
      rw [List.append_nil] at hend
      have htrim : trim current.reverse = current.reverse := by
        apply trim_eq_self
        · rw [List.head?_reverse]
          exact h.starts
        · exact hend
      rw [segmentsFrom, finish, htrim, List.isEmpty_reverse, collapseFrom, List.append_nil]
      split <;> simp [spaced]
  | cons c cs ih =>
      rcases splits_or_not q c with ⟨hblank, rfl⟩ | hc
      · have hrest : ∀ d ∈ cs.getLast?, isBlank d = false := by
          intro d hd
          apply hend d
          rw [List.getLast?_append, List.getLast?_cons, hd]
          rfl
        rw [segmentsFrom_blank hblank, spaced, List.flatMap_append, h.finish_eq, collapseFrom]
        simp only [hblank, Option.isNone_none, Bool.and_self, if_true]
        refine congrArg₂ _ ?_ (ih begun_nil hrest)
        split <;> simp
      · have hend' : ∀ d ∈ ((c :: current).reverse ++ cs).getLast?, isBlank d = false := by
          simpa using hend
        rw [segmentsFrom_char hc, ih (h.cons hc) hend', collapseFrom, Bool.and_comm, hc]
        cases current with
        | nil => simp
        | cons d current => simp

theorem intercalate_eq_tail (segments : List (List Char)) :
    [' '].intercalate segments = (spaced segments).tail := by
  induction segments with
  | nil => rfl
  | cons w segments ih =>
      cases segments with
      | nil => simp [spaced]
      | cons v segments =>
          rw [List.intercalate_cons_cons, ih]
          simp [spaced]

/-- A text with its blanks collapsed is its segments with single spaces between them. -/
theorem intercalate_segments (cs : List Char) : [' '].intercalate (segments cs) = collapse cs := by
  have hspaced : spaced (segmentsFrom none [] (trim cs)) = collapseFrom none true (trim cs) :=
    spaced_segmentsFrom begun_nil (getLast?_trim cs)
  rw [← segments_trim, intercalate_eq_tail, segments, hspaced, collapse]
  cases hcs : trim cs with
  | nil => rfl
  | cons c rest =>
      have hblank : isBlank c = false := head?_trim cs c (by rw [hcs]; rfl)
      simp [collapseFrom, hblank]

/-- Blanks passed before a segment end the one that was begun. -/
theorem segmentsFrom_collapseFrom {q : Quote} {pending : Bool}
    (hpending : pending = true → q = none) (current cs : List Char) :
    segmentsFrom q current (collapseFrom q pending cs)
      = if pending then finish current ++ segmentsFrom q [] cs else segmentsFrom q current cs := by
  induction cs generalizing q pending current with
  | nil =>
      cases pending with
      | true => exact (List.append_nil _).symm
      | false => rfl
  | cons c cs ih =>
      rw [collapseFrom, Bool.and_comm]
      cases hc : isBlank c && q.isNone with
      | true =>
          rw [Bool.and_eq_true, Option.isNone_iff_eq_none] at hc
          obtain ⟨hblank, rfl⟩ := hc
          rw [if_pos rfl, ih (by simp), if_pos rfl, segmentsFrom_blank hblank,
            segmentsFrom_blank hblank]
          split <;> rfl
      | false =>
          rw [if_neg (by simp)]
          cases pending with
          | true =>
              obtain rfl := hpending rfl
              rw [if_pos rfl, if_pos rfl, segmentsFrom_blank rfl, segmentsFrom_char hc,
                segmentsFrom_char hc, ih (by simp), if_neg (by simp)]
          | false =>
              rw [if_neg (by simp), if_neg (by simp), segmentsFrom_char hc, segmentsFrom_char hc,
                ih (by simp), if_neg (by simp)]

/-- Collapsing blanks changes nothing in how a text is split. -/
theorem segments_collapse (cs : List Char) : segments (collapse cs) = segments cs := by
  rw [← segments_trim cs, segments, collapse, segmentsFrom_collapseFrom (by simp)]
  rfl

/-- A second round finds nothing to collapse, since it finds the same segments. -/
theorem collapse_collapse (cs : List Char) : collapse (collapse cs) = collapse cs := by
  rw [← intercalate_segments, segments_collapse, intercalate_segments]

/--
**The two scans for blanks agree.** Whatever the text, with any blanks and with quotes that may be
left open, collapsing its blanks gives its segments with one space between them, and splitting what
is collapsed gives the segments of the text. So collapsing twice is collapsing once, and a selector
is split the same way before and after its blanks are collapsed.
-/
theorem collapseString_agrees_with_segments (t : String) :
    collapseString t = " ".intercalate ((segments t.toList).map String.ofList)
      ∧ (segments (collapseString t).toList).map String.ofList
          = (segments t.toList).map String.ofList
      ∧ collapseString (collapseString t) = collapseString t := by
  have htoList : (collapseString t).toList = collapse t.toList := String.toList_ofList
  refine ⟨?_, ?_, ?_⟩
  · have hjoined : (" ".intercalate ((segments t.toList).map String.ofList)).toList
        = [' '].intercalate (segments t.toList) := by
      simp [String.toList_intercalate]
    rw [← String.toList_inj, hjoined, htoList, intercalate_segments]
  · rw [htoList, segments_collapse]
  · rw [collapseString, htoList, collapse_collapse, collapseString]

/-- A quote left open: its last blanks are trimmed by both scans, and those inside it stay. -/
example : collapseString "  a\t 'b  c \u00a0 " = "a 'b  c"
    ∧ (segments "  a\t 'b  c \u00a0 ".toList).map String.ofList = ["a", "'b  c"] := by
  decide +kernel

end CssNest.Selector
