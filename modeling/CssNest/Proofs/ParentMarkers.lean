import CssNest.Proofs.Replay
import CssNest.Proofs.Scans

/-!
# Markers without a parent

The marker `&` attaches a segment to the block around it, so a segment that starts with it
should be nested in some block. The scans that write markers do not look at what stands in
front: a selector that begins with a colon, such as `:root`, or with a sibling combinator gets
its marker all the same, and its first segment ends up right under the media type, where there
is nothing to attach to.

These are the only ones. The first character of a path is that of the selector, blanks aside,
unless it is one of those that get a marker (`head_pathChars`), and the segments under a media
type are the first segments of the paths placed there (`mem_topSegments_placeAll`).
-/

namespace CssNest

namespace Selector

open Text

/-! ## The first character -/

/-- The first character of a text that is not blank. -/
def lead (cs : List Char) : Option Char := cs.find? fun c => !isBlank c

theorem lead_blank {c : Char} (h : isBlank c = true) (cs : List Char) : lead (c :: cs) = lead cs :=
  List.find?_cons_of_neg (by simp [h])

theorem lead_char {c : Char} (h : isBlank c = false) (cs : List Char) : lead (c :: cs) = some c :=
  List.find?_cons_of_pos (by simp [h])

theorem lead_normalizeChild (cs : List Char) : lead (normalizeChild cs) = lead cs := by
  induction cs using child_induction with
  | nil => rfl
  | child rest ih =>
      rw [normalizeChild_child, lead_blank (by decide), lead_char (by decide),
        lead_char (by decide)]
  | char c rest hchild ih =>
      rw [normalizeChild_char hchild]
      cases hc : isBlank c with
      | true => rw [lead_blank hc, lead_blank hc, ih]
      | false => rw [lead_char hc, lead_char hc]

theorem lead_markPseudo (cs : List Char) :
    lead (markPseudo cs) = (lead cs).map fun c => if c = ':' then '&' else c := by
  unfold markPseudo
  induction cs with
  | nil => rfl
  | cons c rest ih =>
      cases hc : isBlank c with
      | true =>
          obtain ⟨-, hbracket, -, hcolon, -⟩ := plain_of_isBlank hc
          rw [markPseudoFrom_outside hbracket hcolon, lead_blank hc, lead_blank hc, ih]
      | false =>
          rw [lead_char hc, Option.map_some]
          by_cases hcolon : c = ':'
          · subst hcolon
            rw [if_pos rfl]
            exact (lead_blank (by decide) _).trans (lead_char (by decide) _)
          · rw [if_neg hcolon, markPseudoFrom_char hcolon, lead_char hc]

theorem lead_markCombinators (cs : List Char) :
    lead (markCombinators attaching cs)
      = (lead cs).map fun c => if c ∈ attaching then '&' else c := by
  unfold markCombinators
  induction cs with
  | nil => rfl
  | cons c rest ih =>
      cases hc : isBlank c with
      | true =>
          obtain ⟨hquote, hbracket, hcomb, -, -⟩ := plain_of_isBlank hc
          rw [markCombinatorsFrom_plain hquote hbracket (fun _ => hcomb) (by simp), lead_blank hc,
            lead_blank hc, ih]
      | false =>
          rw [lead_char hc, Option.map_some]
          by_cases hcomb : c ∈ attaching
          · rw [if_pos hcomb, markCombinatorsFrom_attaching hcomb, lead_char (by decide)]
          · -- a quote or a bracket changes what is done with the rest, not the character itself
            have hnone : attaching.contains c = false := by simpa using hcomb
            rw [if_neg hcomb, markCombinatorsFrom]
            simp only [Bool.and_false, Bool.false_eq_true, if_false, hnone]
            split_ifs <;> exact lead_char hc _

/-- A segment that was begun comes first. -/
theorem head_segmentsFrom {c : Char} (hc : isBlank c = false) (q : Quote) (w rest : List Char) :
    (segmentsFrom q (w ++ [c]) rest).head?.bind List.head? = some c := by
  obtain ⟨v, hv⟩ := finish_of_lead hc w
  induction rest generalizing q w v with
  | nil => rw [segmentsFrom, hv]; rfl
  | cons d rest ih =>
      rw [segmentsFrom]
      split
      · rw [hv]
        rfl
      · obtain ⟨v', hv'⟩ := finish_of_lead hc (d :: w)
        exact ih _ (d :: w) v' hv'

theorem head_segments (cs : List Char) : (segments cs).head?.bind List.head? = lead cs := by
  unfold segments
  induction cs with
  | nil => rfl
  | cons c rest ih =>
      cases hc : isBlank c with
      | true =>
          rw [segmentsFrom_blank hc, lead_blank hc, ← ih]
          rfl
      | false =>
          rw [segmentsFrom_char (by simp [hc]), lead_char hc]
          exact head_segmentsFrom hc _ [] rest

/-- A path starts as its selector does, or with a marker. -/
theorem head_pathChars (cs : List Char) :
    (pathChars cs).head?.bind List.head?
      = (lead cs).map fun c => if c = ':' ∨ c ∈ attaching then '&' else c := by
  rw [pathChars, head_segments, lead_markCombinators, lead_markPseudo, lead_normalizeChild,
    Option.map_map]
  congr 1
  funext c
  by_cases hcolon : c = ':'
  · subst hcolon
    rfl
  · simp [hcolon]

/-- The selector begins with a colon or a sibling combinator, so it hangs on something before it. -/
def beginsAttached (s : String) : Bool :=
  (lead s.toList).any fun c => c == ':' || attaching.contains c

theorem head_path (s : String) :
    (path s).head?.bind (fun segment => segment.toList.head?)
      = (lead s.toList).map fun c => if c = ':' ∨ c ∈ attaching then '&' else c := by
  rw [← head_pathChars, path, List.head?_map]
  cases (pathChars s.toList).head? with
  | none => rfl
  | some segment => simp

/-- The first segment has a marker at its start exactly if the selector begins attached. -/
theorem marked_iff_beginsAttached {s : String} (hplain : '&' ∉ s.toList) :
    (path s).head?.bind (fun segment => segment.toList.head?) = some '&'
      ↔ beginsAttached s = true := by
  rw [head_path, beginsAttached]
  cases hlead : lead s.toList with
  | none => simp
  | some c =>
      have hc : c ≠ '&' := fun h => hplain (h ▸ List.mem_of_find?_eq_some hlead)
      rw [Option.map_some, Option.any_some, Bool.or_eq_true, beq_iff_eq, List.contains_iff_mem]
      by_cases hmark : c = ':' ∨ c ∈ attaching
      · simp [hmark]
      · simp [hmark, hc]

end Selector

/-! ## The segments right under a media type -/

namespace Sheet

open Selector (beginsAttached)

/-- The segments of the blocks right under a media type. -/
def topSegments (s : Sheet) (media : String) : List String :=
  ((s.block? media).map Block.segments).getD []

theorem mem_topSegments {s : Sheet} {media segment : String} :
    segment ∈ s.topSegments media ↔ (s.node? media [segment]).isSome = true := by
  unfold topSegments node?
  cases s.block? media with
  | none => simp
  | some b =>
      have hchild : b.descend? [segment] = b.children.lookup segment := by
        rw [Block.descend?, Block.child?]
        cases b.children.lookup segment <;> rfl
      rw [Option.map_some, Option.getD_some, Option.bind_some, hchild, Block.segments]
      cases hb : b.children.lookup segment with
      | none =>
          rw [List.lookup_eq_none_iff] at hb
          constructor
          · intro hmem
            obtain ⟨c, hc, rfl⟩ := List.mem_map.mp hmem
            exact absurd (hb c hc) (by simp)
          · simp
      | some c => simpa using ⟨c, mem_of_lookup hb⟩

/-- They are the first segments of what was placed under the media type. -/
theorem mem_topSegments_placeAll {as : List Placement} {media segment : String} :
    segment ∈ (empty.placeAll as).topSegments media
      ↔ ∃ a ∈ as, a.media = media ∧ (Selector.path a.selector).head? = some segment := by
  have hnode : ((empty.placeAll as).node? media [segment]).isSome
      = as.any (Placement.reaches media [segment]) := by
    rw [node?_placeAll, node?_empty]
    cases as.any (Placement.reaches media [segment]) <;> rfl
  rw [mem_topSegments, hnode, List.any_eq_true]
  have hreaches : ∀ a : Placement, a.reaches media [segment] = true
      ↔ a.media = media ∧ (Selector.path a.selector).head? = some segment := by
    intro a
    rw [Placement.reaches_iff]
    cases Selector.path a.selector with
    | nil => simp
    | cons first rest => simp [List.cons_prefix_cons, eq_comm]
  simp only [hreaches]

/-- `:root` is placed right under its media type, with a marker. -/
theorem root_pseudo_marked_at_top :
    ¬ ∀ (as : List Placement) (media : String), (∀ a ∈ as, '&' ∉ a.selector.toList) →
      ∀ segment ∈ (empty.placeAll as).topSegments media, segment.toList.head? ≠ some '&' := by
  intro h
  have htop : "&:root" ∈ (empty.placeAll [⟨"all", ":root", "r"⟩]).topSegments "all" :=
    mem_topSegments_placeAll.mpr ⟨_, List.mem_singleton_self _, rfl, by decide +kernel⟩
  have hplain : ∀ a ∈ [Placement.mk "all" ":root" "r"], '&' ∉ a.selector.toList := by
    intro a ha
    rw [List.mem_singleton.mp ha]
    decide
  exact h _ "all" hplain _ htop (by decide)

/--
**A marker lacks a parent only where the selector lacks one.** Of selectors without markers of
their own, a segment right under a media type starts with a marker exactly if it is the first
one of a selector that begins with a colon or a sibling combinator. So no segment there starts
with a marker exactly if no selector placed under the media type begins like that.
-/
theorem top_marker_iff_beginsAttached {as : List Placement}
    (hplain : ∀ a ∈ as, '&' ∉ a.selector.toList) (media : String) :
    (∀ segment ∈ (empty.placeAll as).topSegments media,
        segment.toList.head? = some '&'
          ↔ ∃ a ∈ as, a.media = media ∧ (Selector.path a.selector).head? = some segment
              ∧ beginsAttached a.selector = true)
      ∧ ((∀ segment ∈ (empty.placeAll as).topSegments media, segment.toList.head? ≠ some '&')
          ↔ ∀ a ∈ as, a.media = media → beginsAttached a.selector = false) := by
  have hfirst : ∀ a ∈ as, ∀ segment, (Selector.path a.selector).head? = some segment →
      (segment.toList.head? = some '&' ↔ beginsAttached a.selector = true) := by
    intro a ha segment hsegment
    rw [← Selector.marked_iff_beginsAttached (hplain a ha), hsegment, Option.bind_some]
  refine ⟨?_, ?_, ?_⟩
  · intro segment hsegment
    constructor
    · intro hmark
      obtain ⟨a, ha, hmedia, hhead⟩ := mem_topSegments_placeAll.mp hsegment
      exact ⟨a, ha, hmedia, hhead, (hfirst a ha segment hhead).mp hmark⟩
    · rintro ⟨a, ha, _, hhead, hbegins⟩
      exact (hfirst a ha segment hhead).mpr hbegins
  · intro hnone a ha hmedia
    rw [Bool.eq_false_iff]
    intro hbegins
    -- a selector that begins attached has a first segment, and that is marked
    have hmarked := (Selector.marked_iff_beginsAttached (hplain a ha)).mpr hbegins
    obtain ⟨segment, hhead, hmark⟩ := Option.bind_eq_some_iff.mp hmarked
    exact hnone segment (mem_topSegments_placeAll.mpr ⟨a, ha, hmedia, hhead⟩) hmark
  · intro hnone segment hsegment hmark
    obtain ⟨a, ha, hmedia, hhead⟩ := mem_topSegments_placeAll.mp hsegment
    exact absurd ((hfirst a ha segment hhead).mp hmark) (by simp [hnone a ha hmedia])

theorem top_marker_attached_sample :
    (∀ a ∈ [Placement.mk "all" "a:hover" "r", ⟨"all", "h1 + p", "r"⟩], '&' ∉ a.selector.toList)
      ∧ ∀ segment ∈ (empty.placeAll [⟨"all", "a:hover", "r"⟩, ⟨"all", "h1 + p", "r"⟩]).topSegments
          "all", segment.toList.head? ≠ some '&' := by
  have hplain : ∀ a ∈ [Placement.mk "all" "a:hover" "r", ⟨"all", "h1 + p", "r"⟩],
      '&' ∉ a.selector.toList := by
    simp only [List.forall_mem_cons, List.not_mem_nil, false_imp_iff, implies_true, and_true]
    exact ⟨by decide, by decide⟩
  refine ⟨hplain, (top_marker_iff_beginsAttached hplain "all").2.mpr ?_⟩
  simp only [List.forall_mem_cons, List.not_mem_nil, false_imp_iff, implies_true, and_true]
  exact ⟨fun _ => by decide +kernel, fun _ => by decide +kernel⟩

end Sheet

end CssNest
