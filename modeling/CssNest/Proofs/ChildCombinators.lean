import CssNest.Proofs.Blanks

/-!
# The spelling of child combinators is stable

The first scan drops one space behind each `>` and puts one before it. Of a text with collapsed
blanks that is enough: each `>` ends up at the start of a segment, right before what it applies
to. With two spaces behind `>` it would not be, because one of them stays and the `>` becomes a
segment of its own, which a second round then joins with the next one.

`Tight` says what the segments look like when they are written with single spaces between them: a
`>` starts a segment, and one that is alone is followed by another `>`. Such a text is split by
the path as it stands.
-/

namespace CssNest.Selector

open Text

/-! ## Collapsed texts -/

/--
Outside quotes the blanks are single spaces with something behind them, and inside quotes there
is no `>`.
-/
inductive Collapsed : Quote → List Char → Prop where
  | nil {q : Quote} : Collapsed q []
  | char {q : Quote} {c : Char} {rest : List Char} :
      (isBlank c && q.isNone) = false → (c = '>' → q = none) → Collapsed (q.after c) rest →
      Collapsed q (c :: rest)
  | gap {c : Char} {rest : List Char} :
      isBlank c = false → Collapsed none (c :: rest) → Collapsed none (' ' :: c :: rest)

/-- Every `>` of the text stands outside quotes, if the text begins inside `q`. -/
def ChildUnquoted (q : Quote) (cs : List Char) : Prop :=
  Everywhere (fun before c => c = '>' → q.behind before = none) cs

instance (q : Quote) (cs : List Char) : Decidable (ChildUnquoted q cs) :=
  decidableEverywhere _ cs

theorem collapsed_collapseFrom {q : Quote} {pending : Bool} (hpending : pending = true → q = none)
    {cs : List Char} (h : ChildUnquoted q cs) : Collapsed q (collapseFrom q pending cs) := by
  induction cs generalizing q pending with
  | nil => exact .nil
  | cons c cs ih =>
      obtain ⟨hfirst, hrest⟩ := everywhere_cons.mp h
      rw [collapseFrom, Bool.and_comm]
      cases hc : isBlank c && q.isNone with
      | true =>
          rw [Bool.and_eq_true, Option.isNone_iff_eq_none] at hc
          obtain ⟨hblank, rfl⟩ := hc
          have hrest' : ChildUnquoted (Quote.after none c) cs := hrest
          rw [after_blank hblank] at hrest'
          exact ih (fun _ => rfl) hrest'
      | false =>
          have hkept : Collapsed q (c :: collapseFrom (q.after c) false cs) :=
            .char hc hfirst (ih (by simp) hrest)
          cases pending with
          | true =>
              obtain rfl := hpending rfl
              exact .gap (by simpa using hc) hkept
          | false => exact hkept

theorem ChildUnquoted.trim {cs : List Char} (h : ChildUnquoted none cs) :
    ChildUnquoted none (trim cs) := by
  obtain ⟨front, back, hcs, hfront, -⟩ := exists_trim_eq cs
  intro before c after htrim hc
  have hquote := h (front ++ before) c (after ++ back) (by rw [hcs, htrim]; simp) hc
  have hoff : Quote.behind none front = none :=
    Quote.behind_of_not_isQuote (by simp) fun c hc => (plain_of_isBlank (hfront c hc)).1
  rwa [Quote.behind_append, hoff] at hquote

/-- Behind a `>` and its space, a collapsed text goes on with no blank. -/
theorem Collapsed.behindChild {rest : List Char} (h : Collapsed none rest) :
    Collapsed none (afterChild rest) ∧ ∀ c ∈ (afterChild rest).head?, isBlank c = false := by
  cases h with
  | nil => exact ⟨.nil, by simp [afterChild]⟩
  | gap hblank hrest => exact ⟨hrest, by simpa [afterChild] using hblank⟩
  | @char _ c rest hc hchild hrest =>
      have hblank : isBlank c = false := by simpa using hc
      have hspace : (c :: rest).head? ≠ some ' ' := by
        rintro ⟨⟩
        exact absurd hblank (by decide)
      rw [afterChild_eq_self hspace]
      exact ⟨.char hc hchild hrest, by simpa using hblank⟩

/-! ## Texts that are split as they stand -/

/--
Outside quotes a `>` stands at the start of a segment, and with a space behind it only if the
next segment starts with `>` too; inside quotes there is none. `fresh` says that a segment may
start here.
-/
inductive Tight : Quote → Bool → List Char → Prop where
  | nil {q : Quote} {fresh : Bool} : Tight q fresh []
  | char {q : Quote} {fresh : Bool} {c : Char} {rest : List Char} :
      c ≠ '>' → Tight (q.after c) (c == ' ') rest → Tight q fresh (c :: rest)
  | child {rest : List Char} :
      rest.head? ≠ some ' ' → Tight none false rest → Tight none true ('>' :: rest)
  | children {rest : List Char} :
      Tight none true ('>' :: rest) → Tight none true ('>' :: ' ' :: '>' :: rest)

/-- On such a text the first scan only adds blanks where there are some. -/
theorem Tight.segmentsFrom_normalizeChild {q : Quote} {fresh : Bool} {cs : List Char}
    (h : Tight q fresh cs) (hq : ∀ o ∈ q, isQuote o = true) {current : List Char}
    (hfresh : fresh = true → q = none → current = []) :
    segmentsFrom q current (normalizeChild cs) = segmentsFrom q current cs := by
  induction h generalizing current with
  | nil => rfl
  | @char q fresh c rest hc hrest ih =>
      rw [normalizeChild_char hc]
      rcases splits_or_not q c with ⟨hblank, rfl⟩ | hsplit
      · rw [after_blank hblank] at ih
        rw [segmentsFrom_blank hblank, segmentsFrom_blank hblank, ih hq fun _ _ => rfl]
      · rw [segmentsFrom_char hsplit, segmentsFrom_char hsplit]
        refine ih (Quote.isQuote_after hq c) ?_
        -- a space that does not split stands in quotes and leaves the scan there
        intro hspace hnone
        obtain rfl := beq_iff_eq.mp hspace
        rw [Quote.after_of_not_isQuote hq (by decide)] at hnone
        rw [hnone] at hsplit
        exact absurd hsplit (by decide)
  | @child rest hspace hrest ih =>
      obtain rfl := hfresh rfl rfl
      rw [normalizeChild_child, afterChild_eq_self hspace, segmentsFrom_blank rfl,
        segmentsFrom_char (by decide), segmentsFrom_char (by decide)]
      exact ih (by simp) (by simp)
  | @children rest hrest ih =>
      obtain rfl := hfresh rfl rfl
      have hlater : segmentsFrom none [] (normalizeChild ('>' :: rest))
          = segmentsFrom none [] ('>' :: rest) := ih hq fun _ _ => rfl
      rw [normalizeChild_child, segmentsFrom_blank rfl] at hlater
      have hlone : segmentsFrom none [] ('>' :: ' ' :: '>' :: rest)
          = finish ['>'] ++ segmentsFrom none [] ('>' :: rest) := rfl
      have hscan : normalizeChild ('>' :: ' ' :: '>' :: rest)
          = ' ' :: '>' :: ' ' :: '>' :: normalizeChild (afterChild rest) := by
        rw [normalizeChild_child, ← normalizeChild_child rest]
        rfl
      have hsplit : ∀ xs, segmentsFrom none [] (' ' :: '>' :: ' ' :: xs)
          = finish ['>'] ++ segmentsFrom none [] xs := fun _ => rfl
      rw [hlone, hscan, hsplit, ← hlater]
      rfl

theorem collapseFrom_child (pending : Bool) (cs : List Char) :
    collapseFrom none pending (' ' :: '>' :: cs) = ' ' :: '>' :: collapseFrom none false cs := rfl

/-- What follows a `>` without a blank is nothing, another `>` or the start of a name. -/
theorem tight_child {rest : List Char} (hhead : ∀ c ∈ rest.head?, isBlank c = false)
    (h : ∀ fresh, Tight none fresh (collapseFrom none false (normalizeChild rest))) :
    Tight none true ('>' :: collapseFrom none false (normalizeChild rest)) := by
  cases rest with
  | nil => exact .child (by decide) .nil
  | cons c later =>
      by_cases hc : c = '>'
      · subst hc
        rw [normalizeChild_child, collapseFrom_child] at h ⊢
        cases h true with
        | char _ hnext => exact .children hnext
      · have hblank : isBlank c = false := hhead c rfl
        rw [normalizeChild_char hc, collapseFrom, hblank, Bool.and_false] at h ⊢
        refine .child ?_ (h false)
        rintro ⟨⟩
        exact absurd hblank (by decide)

/-- The first scan followed by collapsing makes a collapsed text tight. -/
theorem Collapsed.tight {cs : List Char} {q : Quote} (h : Collapsed q cs) {pending : Bool}
    (hpending : pending = true → q = none) (fresh : Bool) :
    Tight q fresh (collapseFrom q pending (normalizeChild cs)) := by
  induction cs using child_induction generalizing q pending fresh with
  | nil => exact .nil
  | char c rest hc ih =>
      rw [normalizeChild_char hc, collapseFrom, Bool.and_comm]
      cases h with
      | gap hblank hrest => exact ih hrest (fun _ => rfl) fresh
      | char hsplit hchild hrest =>
          have hlater : ∀ fresh, Tight (q.after c) fresh
              (collapseFrom (q.after c) false (normalizeChild rest)) := ih hrest (by simp)
          rw [hsplit, if_neg (by simp)]
          cases pending with
          | true =>
              obtain rfl := hpending rfl
              exact .char (by decide) (.char hc (hlater _))
          | false => exact .char hc (hlater _)
  | child rest ih =>
      cases h with
      | char _ hchild hrest =>
          obtain rfl := hchild rfl
          obtain ⟨hbehind, hhead⟩ := hrest.behindChild
          rw [normalizeChild_child, collapseFrom_child]
          exact .char (by decide) (tight_child hhead (ih hbehind (by simp)))

/-! ## Stable paths -/

theorem markPseudoFrom_of_notMem {cs : List Char} (h : ':' ∉ cs) (nested marked : Bool) :
    markPseudoFrom nested marked cs = cs := by
  induction cs generalizing nested marked with
  | nil => rfl
  | cons c cs ih =>
      rw [List.mem_cons, not_or] at h
      rw [markPseudoFrom_char (Ne.symm h.1), ih h.2]

theorem markCombinatorsFrom_of_notMem {cs : List Char} (h : ∀ c ∈ cs, c ∉ attaching) (q : Quote)
    (depth : Nat) : markCombinatorsFrom attaching q depth false cs = cs := by
  induction cs generalizing q depth with
  | nil => rfl
  | cons c cs ih =>
      rw [List.forall_mem_cons] at h
      have hc : attaching.contains c = false := by simpa using h.1
      cases q with
      | some o => simp [markCombinatorsFrom, ih h.2]
      | none =>
          rw [markCombinatorsFrom]
          simp only [Bool.and_false, Bool.false_eq_true, if_false, hc, ih h.2]
          split_ifs <;> rfl

/-- A character that no scan but the first and the last takes notice of. -/
def IsUnmarked (c : Char) : Prop := c ≠ ':' ∧ c ∉ attaching

theorem isUnmarked_space : IsUnmarked ' ' := ⟨by decide, by decide⟩

theorem pathChars_unmarked {cs : List Char} (h : ∀ c ∈ cs, IsUnmarked c) :
    pathChars cs = segments (normalizeChild cs) := by
  have hchild : ∀ c ∈ normalizeChild cs, IsUnmarked c :=
    forall_mem_normalizeChild isUnmarked_space h
  have hpseudo : markPseudo (normalizeChild cs) = normalizeChild cs :=
    markPseudoFrom_of_notMem (fun hmem => (hchild _ hmem).1 rfl) false false
  have hcombinators : markCombinators attaching (normalizeChild cs) = normalizeChild cs :=
    markCombinatorsFrom_of_notMem (fun c hc => (hchild c hc).2) none 0
  rw [pathChars, hpseudo, hcombinators]

theorem forall_mem_collapse {P : Char → Prop} (hspace : P ' ') {cs : List Char}
    (h : ∀ c ∈ cs, P c) : ∀ c ∈ collapse cs, P c := by
  have hsegments : ∀ segment ∈ segments cs, ∀ c ∈ segment, P c :=
    forall_mem_segmentsFrom h (by simp) none
  intro c hc
  rw [← intercalate_segments, intercalate_eq_tail] at hc
  obtain ⟨segment, hsegment, hc⟩ := List.mem_flatMap.mp (List.mem_of_mem_tail hc)
  rcases List.mem_cons.mp hc with rfl | hc
  · exact hspace
  · exact hsegments segment hsegment c hc

theorem getLast?_normalizeChild {cs : List Char} (h : ∀ c ∈ cs.getLast?, isBlank c = false) :
    ∀ c ∈ (normalizeChild cs).getLast?, isBlank c = false := by
  cases cs using List.reverseRecOn with
  | nil => exact h
  | append_singleton xs c =>
      have hblank : isBlank c = false := h c (by simp)
      have hspace : c ≠ ' ' := by
        rintro rfl
        exact absurd hblank (by decide)
      have hlast : (normalizeChild [c]).getLast? = some c := by
        by_cases hc : c = '>'
        · subst hc
          rfl
        · rw [normalizeChild_char hc]
          rfl
      intro d hd
      rw [normalizeChild_append hspace, List.getLast?_append, hlast] at hd
      obtain rfl : c = d := by simpa using hd
      exact hblank

theorem collapseFrom_concat {c : Char} (hc : isBlank c = false) (q : Quote) (pending : Bool)
    (cs : List Char) : ∃ front, collapseFrom q pending (cs ++ [c]) = front ++ [c] := by
  induction cs generalizing q pending with
  | nil =>
      rw [List.nil_append, collapseFrom, hc, Bool.and_false, if_neg (by simp)]
      cases pending with
      | true => exact ⟨[' '], rfl⟩
      | false => exact ⟨[], rfl⟩
  | cons d cs ih =>
      rw [List.cons_append, collapseFrom]
      obtain ⟨front, hfront⟩ := ih (q.after d) false
      split
      · exact ih q true
      · split
        · exact ⟨' ' :: d :: front, by rw [hfront]; rfl⟩
        · exact ⟨d :: front, by rw [hfront]; rfl⟩

theorem getLast?_collapse (cs : List Char) : ∀ c ∈ (collapse cs).getLast?, isBlank c = false := by
  have hend := getLast?_trim cs
  rw [collapse]
  cases hcs : trim cs using List.reverseRecOn with
  | nil => simp [collapseFrom]
  | append_singleton xs c =>
      rw [hcs] at hend
      have hblank : isBlank c = false := hend c (by simp)
      obtain ⟨front, hfront⟩ := collapseFrom_concat hblank none false xs
      intro d hd
      rw [hfront] at hd
      obtain rfl : c = d := by simpa using hd
      exact hblank

/-- The segments of a collapsed text, with single spaces between them, are tight. -/
theorem Collapsed.tight_intercalate {cs : List Char} (h : Collapsed none cs)
    (hend : ∀ c ∈ cs.getLast?, isBlank c = false) :
    Tight none true ([' '].intercalate (segments (normalizeChild cs))) := by
  have hspaced : spaced (segments (normalizeChild cs))
      = collapseFrom none true (normalizeChild cs) :=
    spaced_segmentsFrom begun_nil (getLast?_normalizeChild hend)
  have htight : Tight none true (spaced (segments (normalizeChild cs))) := by
    rw [hspaced]
    exact h.tight (fun _ => rfl) true
  rw [intercalate_eq_tail]
  cases hsegments : segments (normalizeChild cs) with
  | nil => exact .nil
  | cons segment later =>
      rw [hsegments] at htight
      cases htight with
      | char _ hrest => exact hrest

/-- A second round finds the segments of the first one, because they are tight. -/
theorem Collapsed.pathChars_intercalate {cs : List Char} (h : Collapsed none cs)
    (hend : ∀ c ∈ cs.getLast?, isBlank c = false) (hunmarked : ∀ c ∈ cs, IsUnmarked c) :
    pathChars ([' '].intercalate (pathChars cs)) = pathChars cs := by
  have htight : Tight none true (collapse (normalizeChild cs)) := by
    rw [← intercalate_segments]
    exact h.tight_intercalate hend
  have hagain : ∀ c ∈ collapse (normalizeChild cs), IsUnmarked c :=
    forall_mem_collapse isUnmarked_space (forall_mem_normalizeChild isUnmarked_space hunmarked)
  calc pathChars ([' '].intercalate (pathChars cs))
      = pathChars (collapse (normalizeChild cs)) := by
        rw [pathChars_unmarked hunmarked, intercalate_segments]
    _ = segments (normalizeChild (collapse (normalizeChild cs))) := pathChars_unmarked hagain
    _ = segments (collapse (normalizeChild cs)) :=
        htight.segmentsFrom_normalizeChild (by simp) fun _ _ => rfl
    _ = segments (normalizeChild cs) := segments_collapse _
    _ = pathChars cs := (pathChars_unmarked hunmarked).symm

/--
**The spelling of child combinators is stable.** Take a text without pseudo-classes and sibling
combinators whose child combinators all stand outside quotes, and collapse its blanks. Then the
path of its segments, written with single spaces between them, is the path that they came from.
-/
theorem path_intercalate_path {t : String} (hcolon : ':' ∉ t.toList) (hplus : '+' ∉ t.toList)
    (htilde : '~' ∉ t.toList) (hchild : ChildUnquoted none t.toList) :
    path (" ".intercalate (path (collapseString t))) = path (collapseString t) := by
  have hunmarked : ∀ c ∈ collapse t.toList, IsUnmarked c := by
    apply forall_mem_collapse isUnmarked_space
    intro c hc
    refine ⟨fun h => hcolon (h ▸ hc), ?_⟩
    intro hmem
    rcases mem_attaching_iff.mp hmem with rfl | rfl
    · exact hplus hc
    · exact htilde hc
  have hcollapsed : Collapsed none (collapse t.toList) :=
    collapsed_collapseFrom (by simp) hchild.trim
  have hagain : pathChars ([' '].intercalate (pathChars (collapse t.toList)))
      = pathChars (collapse t.toList) :=
    hcollapsed.pathChars_intercalate (getLast?_collapse _) hunmarked
  have hjoined : (" ".intercalate (path (collapseString t))).toList
      = [' '].intercalate (pathChars (collapse t.toList)) := by
    simp [path, String.toList_intercalate, collapseString]
  rw [path, hjoined, hagain, path, collapseString, String.toList_ofList]

/-- Combinators in a row, one at the end, and blanks in quotes. -/
theorem path_intercalate_path_sample :
    ':' ∉ "nav  >> a\t> 'b  c'>".toList ∧ '+' ∉ "nav  >> a\t> 'b  c'>".toList
      ∧ '~' ∉ "nav  >> a\t> 'b  c'>".toList ∧ ChildUnquoted none "nav  >> a\t> 'b  c'>".toList
      ∧ path (collapseString "nav  >> a\t> 'b  c'>") = ["nav", ">", ">a", ">'b  c'", ">"]
      ∧ path (" ".intercalate ["nav", ">", ">a", ">'b  c'", ">"])
          = ["nav", ">", ">a", ">'b  c'", ">"] := by
  have hcolon : ':' ∉ "nav  >> a\t> 'b  c'>".toList := by decide
  have hplus : '+' ∉ "nav  >> a\t> 'b  c'>".toList := by decide
  have htilde : '~' ∉ "nav  >> a\t> 'b  c'>".toList := by decide
  have hchild : ChildUnquoted none "nav  >> a\t> 'b  c'>".toList := by decide +kernel
  have hpath : path (collapseString "nav  >> a\t> 'b  c'>")
      = ["nav", ">", ">a", ">'b  c'", ">"] := by decide +kernel
  refine ⟨hcolon, hplus, htilde, hchild, hpath, ?_⟩
  have hagain := path_intercalate_path hcolon hplus htilde hchild
  rwa [hpath] at hagain

end CssNest.Selector
