import CssNest.Proofs.SelectorGrammar
import CssNest.Proofs.Sheet
import CssNest.Text.Collapse

/-!
# Selectors that share a path

Two selectors whose paths are equal end up in the same block, so they had better mean the
same. Spaces around `>`, `+` and `~` are optional, and selectors that differ in them only may
well be merged. A space before a colon is not: `a :hover` is any descendant of `a` under the
pointer, and `a:hover` is `a` itself. The path has a marker for both, so these two are merged
as well.

That is all. `respace` writes a selector without the spaces that do not count, and the path
of a selector determines what it writes, once spaces before pseudo-classes are left out too,
or if there are none.
The proof reads the path back: `readFrom` is the same scan, blind to the markers, and each of
the four scans that make up the path leaves unchanged what it reads.
-/

namespace CssNest.Selector

open Text

/-! ## Spaces that count -/

/-- What was read last, as far as the next space depends on it. -/
inductive Seen where
  | nothing
  | combinator
  /-- A colon that starts a pseudo-class. -/
  | colon
  | other
deriving DecidableEq, Repr

namespace Seen

/-- What is read last after `c`, before which there is a space or not. -/
def next (s : Seen) (gap : Bool) (c : Char) : Seen :=
  if isCombinator c then .combinator
  -- the second colon of `::` starts nothing
  else if c == ':' && (gap || s != .colon) then .colon
  else .other

/--
Whether a space before `c` counts: not at the start, not around a combinator and, unless
`colons`, not before a colon. There it does count if the colon would be the second one of
`::` without it.
-/
def counts (colons : Bool) (s : Seen) (c : Char) : Bool :=
  s != .nothing && s != .combinator && !isCombinator c && (colons || c != ':' || s == .colon)

end Seen

/-- The scan behind `respace`; `gap` says that a space was passed. -/
def respaceFrom (colons : Bool) (s : Seen) (gap : Bool) : List Char → List Char
  | [] => []
  | c :: rest =>
    if c == ' ' then respaceFrom colons s true rest
    else if gap && s.counts colons c then ' ' :: c :: respaceFrom colons (s.next gap c) false rest
    else c :: respaceFrom colons (s.next gap c) false rest

/--
A selector without the spaces around its combinators and, unless `colons`, without those
before its pseudo-classes.
-/
def respace (colons : Bool) (cs : List Char) : List Char := respaceFrom colons .nothing false cs

/-- A selector with its blanks collapsed, and without quotes, brackets and markers. -/
structure Bare (s : String) : Prop where
  collapsed : collapseString s = s
  plain : ∀ c ∈ s.toList, isQuote c = false ∧ isBracket c = false ∧ c ≠ '&'

theorem bare_iff {s : String} :
    Bare s ↔ collapseString s = s
      ∧ (s.toList.all fun c => !isQuote c && !isBracket c && c != '&') = true := by
  have hplain : (s.toList.all fun c => !isQuote c && !isBracket c && c != '&') = true
      ↔ ∀ c ∈ s.toList, isQuote c = false ∧ isBracket c = false ∧ c ≠ '&' := by
    simp [and_assoc]
  rw [hplain]
  exact ⟨fun h => ⟨h.collapsed, h.plain⟩, fun h => ⟨h.1, h.2⟩⟩

instance (s : String) : Decidable (Bare s) := decidable_of_iff _ bare_iff.symm

/-! ## Reading a marked text -/

/-- What `respace` makes of a text if it passes over the markers. -/
def readFrom (s : Seen) (gap : Bool) (cs : List Char) : List Char :=
  respaceFrom false s gap (cs.filter fun c => c != '&')

theorem readFrom_space (s : Seen) (gap : Bool) (cs : List Char) :
    readFrom s gap (' ' :: cs) = readFrom s true cs := rfl

theorem readFrom_mark (s : Seen) (gap : Bool) (cs : List Char) :
    readFrom s gap ('&' :: cs) = readFrom s gap cs := rfl

theorem readFrom_char {c : Char} (hspace : c ≠ ' ') (hmark : c ≠ '&') (s : Seen) (gap : Bool)
    (cs : List Char) :
    readFrom s gap (c :: cs)
      = (if gap && s.counts false c then [' ', c] else [c])
        ++ readFrom (s.next gap c) false cs := by
  unfold readFrom
  rw [List.filter_cons, if_pos (by simpa using hmark), respaceFrom, if_neg (by simpa using hspace)]
  split <;> rfl

/-- What is read of the rest decides, whatever comes first. -/
theorem readFrom_congr {xs ys : List Char} (h : ∀ s gap, readFrom s gap xs = readFrom s gap ys)
    (c : Char) (s : Seen) (gap : Bool) : readFrom s gap (c :: xs) = readFrom s gap (c :: ys) := by
  by_cases hspace : c = ' '
  · subst hspace
    rw [readFrom_space, readFrom_space, h]
  · by_cases hmark : c = '&'
    · subst hmark
      rw [readFrom_mark, readFrom_mark, h]
    · rw [readFrom_char hspace hmark, readFrom_char hspace hmark, h]

theorem readFrom_append_congr {xs ys : List Char}
    (h : ∀ s gap, readFrom s gap xs = readFrom s gap ys) (cs : List Char) (s : Seen) (gap : Bool) :
    readFrom s gap (cs ++ xs) = readFrom s gap (cs ++ ys) := by
  induction cs generalizing s gap with
  | nil => exact h s gap
  | cons c cs ih => exact readFrom_congr ih c s gap

/-- At the start and behind a combinator spaces make no difference. -/
theorem readFrom_gap {s : Seen} (hs : s = .nothing ∨ s = .combinator) (gap gap' : Bool)
    (cs : List Char) : readFrom s gap cs = readFrom s gap' cs := by
  induction cs generalizing gap gap' with
  | nil => rfl
  | cons c cs ih =>
      by_cases hspace : c = ' '
      · subst hspace
        rw [readFrom_space, readFrom_space]
      · by_cases hmark : c = '&'
        · subst hmark
          rw [readFrom_mark, readFrom_mark, ih]
        · have hcounts : s.counts false c = false := by
            rcases hs with rfl | rfl <;> rfl
          have hnext : s.next gap c = s.next gap' c := by
            rcases hs with rfl | rfl <;> simp [Seen.next]
          rw [readFrom_char hspace hmark, readFrom_char hspace hmark, hcounts, hnext,
            Bool.and_false, Bool.and_false]

/-! ## First scan: child combinators -/

theorem readFrom_child (s : Seen) (gap : Bool) (cs : List Char) :
    readFrom s gap ('>' :: cs) = '>' :: readFrom .combinator false cs := by
  rw [readFrom_char (by decide) (by decide)]
  have hcounts : s.counts false '>' = false := by
    cases s <;> rfl
  rw [hcounts, Bool.and_false]
  rfl

theorem readFrom_normalizeChild (cs : List Char) (s : Seen) (gap : Bool) :
    readFrom s gap (normalizeChild cs) = readFrom s gap cs := by
  induction cs using child_induction generalizing s gap with
  | nil => rfl
  | child rest ih =>
      have hbehind : readFrom .combinator false (afterChild rest)
          = readFrom .combinator false rest := by
        unfold afterChild
        split
        · rw [readFrom_space, readFrom_gap (.inr rfl) false true]
        · rfl
      rw [normalizeChild_child, readFrom_space, readFrom_child, readFrom_child, ih, hbehind]
  | char c rest hc ih =>
      rw [normalizeChild_char hc]
      exact readFrom_congr ih c s gap

/-! ## Second scan: pseudo-classes -/

theorem Seen.next_ne_colon {c : Char} (hc : c ≠ ':') (s : Seen) (gap : Bool) :
    s.next gap c ≠ .colon := by
  unfold Seen.next
  split <;> simp [hc]

/-- A colon reads the same with a space before it, unless it is the second one of `::`. -/
theorem readFrom_colon {s : Seen} {gap : Bool} (h : (s == .colon && !gap) = false)
    (cs : List Char) :
    readFrom s gap (':' :: cs) = readFrom s true (':' :: cs) := by
  cases gap with
  | true => rfl
  | false =>
      cases s with
      | colon => exact absurd h (by decide)
      | _ => rfl

/--
The scan has just marked a colon exactly if the last thing read is a colon that starts a
pseudo-class, with no space behind it.
-/
theorem readFrom_markPseudoFrom {cs : List Char}
    (h : ∀ c ∈ cs, isBracket c = false ∧ c ≠ '&') (s : Seen) (gap : Bool) :
    readFrom s gap (markPseudoFrom false (s == .colon && !gap) cs) = readFrom s gap cs := by
  induction cs generalizing s gap with
  | nil => rfl
  | cons c cs ih =>
      obtain ⟨hb, hmark⟩ := h c (by simp)
      have hrest := ih fun d hd => h d (List.mem_cons_of_mem _ hd)
      by_cases hc : c = ':'
      · subst hc
        cases hm : s == .colon && !gap with
        | true =>
            -- the second colon of `::`
            rw [Bool.and_eq_true, beq_iff_eq, Bool.not_eq_true'] at hm
            obtain ⟨rfl, rfl⟩ := hm
            have hkept : markPseudoFrom false true (':' :: cs)
                = ':' :: markPseudoFrom false false cs := rfl
            rw [hkept, readFrom_char (by decide) (by decide),
              readFrom_char (by decide) (by decide)]
            exact congrArg _ (hrest .other false)
        | false =>
            have hmarked : markPseudoFrom false false (':' :: cs)
                = ' ' :: '&' :: ':' :: markPseudoFrom false true cs := rfl
            have hnext : s.next true ':' = .colon := rfl
            rw [hmarked, readFrom_space, readFrom_mark, readFrom_colon hm,
              readFrom_char (by decide) (by decide), readFrom_char (by decide) (by decide), hnext]
            exact congrArg _ (hrest .colon false)
      · rw [markPseudoFrom_outside hb hc]
        by_cases hspace : c = ' '
        · subst hspace
          have hlater := hrest s true
          rw [Bool.not_true, Bool.and_false] at hlater
          rw [readFrom_space, readFrom_space, hlater]
        · have hlater := hrest (s.next gap c) false
          rw [beq_false_of_ne (s.next_ne_colon hc gap), Bool.false_and] at hlater
          rw [readFrom_char hspace hmark, readFrom_char hspace hmark, hlater]

/-! ## Third scan: sibling combinators -/

theorem readFrom_attaching {c : Char} (hc : c ∈ attaching) (s : Seen) (gap : Bool)
    (cs : List Char) : readFrom s gap (c :: cs) = c :: readFrom .combinator false cs := by
  rcases mem_attaching_iff.mp hc with rfl | rfl <;>
    · rw [readFrom_char (by decide) (by decide)]
      cases s <;> cases gap <;> rfl

/-- The scan drops spaces behind a combinator only, where they do not count. -/
theorem readFrom_markCombinatorsFrom {cs : List Char}
    (h : ∀ c ∈ cs, isQuote c = false ∧ isBracket c = false) {s : Seen} {skip : Bool}
    (hskip : skip = true → s = .combinator) (gap : Bool) :
    readFrom s gap (markCombinatorsFrom attaching none 0 skip cs) = readFrom s gap cs := by
  induction cs generalizing s skip gap with
  | nil => rfl
  | cons c cs ih =>
      obtain ⟨hq, hb⟩ := h c (by simp)
      have hrest := @ih fun d hd => h d (List.mem_cons_of_mem _ hd)
      by_cases hc : c ∈ attaching
      · rw [markCombinatorsFrom_attaching hc, readFrom_mark, readFrom_attaching hc,
          readFrom_attaching hc, hrest fun _ => rfl]
      · by_cases hdrop : c = ' ' ∧ skip = true
        · obtain ⟨rfl, rfl⟩ := hdrop
          rw [markCombinatorsFrom_skip, hrest hskip, readFrom_space,
            readFrom_gap (.inr (hskip rfl)) gap true]
        · rw [markCombinatorsFrom_plain hq hb (fun _ => hc) fun hs he => hdrop ⟨he, hs⟩]
          exact readFrom_congr (fun _ _ => hrest (by simp) _) c s gap

/-! ## Fourth scan: segments -/

theorem readFrom_spaced (segments : List (List Char)) (s : Seen) (gap : Bool) :
    readFrom s gap (spaced segments) = readFrom s true (spaced segments) := by
  cases segments with
  | nil => rfl
  | cons w segments => rfl

theorem readFrom_spaced_finish {current : List Char}
    (h : ∀ c ∈ current, isBlank c = false ∧ isQuote c = false) (s : Seen) (rest : List Char) :
    readFrom s true (spaced (finish current) ++ rest)
      = readFrom s true (current.reverse ++ rest) := by
  have hword : Word current.reverse := Word.of_chars fun c hc => h c (List.mem_reverse.mp hc)
  cases current with
  | nil => rfl
  | cons c current =>
      have hfinish : finish (c :: current) = [(c :: current).reverse] := by
        rw [finish, hword.trim_eq, if_neg (by simp)]
      rw [hfinish, spaced, List.flatMap_singleton, List.cons_append, readFrom_space]

/-- The segments with spaces between them read as the text that was split. -/
theorem readFrom_segmentsFrom {cs : List Char}
    (h : ∀ c ∈ cs, isQuote c = false ∧ (isBlank c = true → c = ' ')) {current : List Char}
    (hcurrent : ∀ c ∈ current, isBlank c = false ∧ isQuote c = false) (s : Seen) :
    readFrom s true (spaced (segmentsFrom none current cs))
      = readFrom s true (current.reverse ++ cs) := by
  induction cs generalizing current s with
  | nil =>
      have hfinish := readFrom_spaced_finish hcurrent s []
      rw [List.append_nil] at hfinish
      exact hfinish
  | cons c cs ih =>
      obtain ⟨hq, hspace⟩ := h c (by simp)
      have hrest := @ih fun d hd => h d (List.mem_cons_of_mem _ hd)
      cases hblank : isBlank c with
      | true =>
          obtain rfl := hspace hblank
          have hsplit : segmentsFrom none current (' ' :: cs)
              = finish current ++ segmentsFrom none [] cs := rfl
          have hread : ∀ s gap, readFrom s gap (spaced (segmentsFrom none [] cs))
              = readFrom s gap (' ' :: cs) := by
            intro s gap
            rw [readFrom_spaced, hrest (by simp), readFrom_space]
            rfl
          rw [hsplit, spaced, List.flatMap_append]
          exact (readFrom_spaced_finish hcurrent s _).trans (readFrom_append_congr hread _ s true)
      | false =>
          have hscan := (Word.of_char hblank hq).scan current cs
          rw [List.singleton_append, List.reverse_singleton, List.singleton_append] at hscan
          rw [hscan, hrest (List.forall_mem_cons.mpr ⟨⟨hblank, hq⟩, hcurrent⟩), List.reverse_cons,
            List.append_assoc, List.singleton_append]

/-! ## Equal paths -/

/-- Outside quotes the only blanks of a collapsed text are spaces. -/
theorem eq_space_of_mem_collapseFrom {cs : List Char} (h : ∀ c ∈ cs, isQuote c = false)
    (pending : Bool) : ∀ c ∈ collapseFrom none pending cs, isBlank c = true → c = ' ' := by
  induction cs generalizing pending with
  | nil => simp [collapseFrom]
  | cons c cs ih =>
      rw [List.forall_mem_cons] at h
      have hafter : Quote.after none c = none := Quote.after_of_not_isQuote (by simp) h.1
      rw [collapseFrom, hafter]
      cases hblank : isBlank c with
      | true => exact ih h.2 true
      | false =>
          have hkept : ∀ d ∈ c :: collapseFrom none false cs, isBlank d = true → d = ' ' :=
            List.forall_mem_cons.mpr ⟨fun hc => absurd hc (by simp [hblank]), ih h.2 false⟩
          cases pending with
          | true => exact List.forall_mem_cons.mpr ⟨fun _ => rfl, hkept⟩
          | false => exact hkept

/-- What may stand in a text between the scans, if they started with a bare selector. -/
def IsUnquoted (c : Char) : Prop :=
  isQuote c = false ∧ isBracket c = false ∧ (isBlank c = true → c = ' ')

theorem Bare.eq_space {s : String} (h : Bare s) : ∀ c ∈ s.toList, isBlank c = true → c = ' ' := by
  have htext : collapse s.toList = s.toList := by
    have hchars := congrArg String.toList h.collapsed
    rwa [collapseString, String.toList_ofList] at hchars
  rw [← htext]
  exact eq_space_of_mem_collapseFrom (fun c hc => (h.plain c (mem_of_mem_trim hc)).1) false

/-- The path, read with a space before each segment, is the selector without optional spaces. -/
theorem Bare.readFrom_path {s : String} (h : Bare s) :
    readFrom .nothing true (spaced (pathChars s.toList)) = respace false s.toList := by
  have hspace : IsUnquoted ' ' := ⟨rfl, rfl, fun _ => rfl⟩
  have hmark : IsUnquoted '&' := ⟨rfl, rfl, fun hb => absurd hb (by decide)⟩
  have htext : ∀ c ∈ s.toList, IsUnquoted c := fun c hc =>
    ⟨(h.plain c hc).1, (h.plain c hc).2.1, h.eq_space c hc⟩
  have hplain : ∀ c ∈ normalizeChild s.toList, isBracket c = false ∧ c ≠ '&' :=
    forall_mem_normalizeChild (by decide) fun c hc => (h.plain c hc).2
  have hpseudo : ∀ c ∈ markPseudo (normalizeChild s.toList), IsUnquoted c :=
    forall_mem_markPseudoFrom hspace hmark (forall_mem_normalizeChild hspace htext) false false
  have hmarked : ∀ c ∈ markCombinators attaching (markPseudo (normalizeChild s.toList)),
      IsUnquoted c :=
    forall_mem_markCombinatorsFrom hspace hmark hpseudo attaching none 0 false
  calc readFrom .nothing true (spaced (pathChars s.toList))
      = readFrom .nothing true
          (markCombinators attaching (markPseudo (normalizeChild s.toList))) :=
        readFrom_segmentsFrom (fun c hc => ⟨(hmarked c hc).1, (hmarked c hc).2.2⟩) (by simp) _
    _ = readFrom .nothing true (markPseudo (normalizeChild s.toList)) :=
        readFrom_markCombinatorsFrom (fun c hc => ⟨(hpseudo c hc).1, (hpseudo c hc).2.1⟩)
          (by simp) true
    _ = readFrom .nothing true (normalizeChild s.toList) :=
        readFrom_markPseudoFrom hplain .nothing true
    _ = readFrom .nothing true s.toList := readFrom_normalizeChild _ _ _
    _ = readFrom .nothing false s.toList := readFrom_gap (.inl rfl) true false _
    _ = respace false s.toList := by
        have hkept : (s.toList.filter fun c => c != '&') = s.toList :=
          List.filter_eq_self.mpr fun c hc => by simpa using (h.plain c hc).2.2
        rw [readFrom, hkept, respace]

/-- Selectors with equal paths differ in optional spaces and spaces before colons only. -/
theorem Bare.respace_eq {s t : String} (hs : Bare s) (ht : Bare t) (h : path s = path t) :
    respace false s.toList = respace false t.toList := by
  have hchars : pathChars s.toList = pathChars t.toList := by
    have hmap := congrArg (List.map String.toList) h
    unfold path at hmap
    simpa using hmap
  rw [← hs.readFrom_path, hchars, ht.readFrom_path]

/-! ## Selectors whose pseudo-classes are attached -/

/-- No pseudo-class has a space before it that counts. -/
def Attached (s : String) : Prop := ¬ [' ', ':'] <:+: respace true s.toList

theorem Seen.counts_of_ne_colon {c : Char} (hc : c ≠ ':') (s : Seen) :
    s.counts false c = s.counts true c := by
  simp [Seen.counts, hc]

theorem Seen.counts_colons {s : Seen} {c : Char} (h : s.counts true c = false) :
    s.counts false c = false := by
  by_cases hc : c = ':'
  · subst hc
    cases s <;> first | rfl | exact absurd h (by decide)
  · rw [s.counts_of_ne_colon hc, h]

/-- As long as no space before a colon counts, it makes no difference whether these do. -/
theorem respaceFrom_attached {s : Seen} {gap : Bool} {cs : List Char}
    (h : ¬ [' ', ':'] <:+: respaceFrom true s gap cs) :
    respaceFrom false s gap cs = respaceFrom true s gap cs := by
  induction cs generalizing s gap with
  | nil => rfl
  | cons c cs ih =>
      rw [respaceFrom] at h
      rw [respaceFrom, respaceFrom]
      by_cases hspace : (c == ' ') = true
      · rw [if_pos hspace] at h
        rw [if_pos hspace, if_pos hspace]
        exact ih h
      · rw [if_neg hspace] at h
        rw [if_neg hspace, if_neg hspace]
        by_cases hcount : (gap && s.counts true c) = true
        · rw [if_pos hcount] at h
          have hc : c ≠ ':' := by
            rintro rfl
            exact h (List.prefix_append [' ', ':'] _).isInfix
          rw [s.counts_of_ne_colon hc, if_pos hcount, if_pos hcount,
            ih fun hrest => h ((hrest.trans (List.suffix_cons _ _).isInfix).trans
              (List.suffix_cons _ _).isInfix)]
        · rw [if_neg hcount] at h
          have hfewer : ¬ (gap && s.counts false c) = true := by
            cases gap with
            | false => simp
            | true =>
                have hfalse : s.counts true c = false := by simpa using hcount
                simp [Seen.counts_colons hfalse]
          rw [if_neg hcount, if_neg hfewer,
            ih fun hrest => h (hrest.trans (List.suffix_cons _ _).isInfix)]

/--
Two selectors that differ in spaces only: in those around combinators, and in those before
pseudo-classes unless both selectors have their pseudo-classes attached.
-/
def SameSpelling (s t : String) : Prop :=
  respace false s.toList = respace false t.toList
    ∧ (Attached s → Attached t → respace true s.toList = respace true t.toList)

theorem Bare.sameSpelling {s t : String} (hs : Bare s) (ht : Bare t) (h : path s = path t) :
    SameSpelling s t := by
  have hfewer := hs.respace_eq ht h
  refine ⟨hfewer, ?_⟩
  intro hattached hattached'
  have hfrom : respace false s.toList = respace true s.toList := respaceFrom_attached hattached
  have hto : respace false t.toList = respace true t.toList := respaceFrom_attached hattached'
  rw [← hfrom, ← hto, hfewer]

/-- A space that makes a pseudo-class one of a descendant is lost in the path. -/
theorem path_forgets_descendant_of_pseudo :
    ¬ ∀ s t : String, Bare s → Bare t → path s = path t →
      respace true s.toList = respace true t.toList := by
  intro h
  have hs : Bare "a :hover" := by decide +kernel
  have ht : Bare "a:hover" := by decide +kernel
  exact absurd (h _ _ hs ht (by decide +kernel)) (by decide +kernel)

/--
**Selectors that share a block differ in spaces only.** If two selectors have the same path,
they are the same without the spaces around combinators and before pseudo-classes; if their
pseudo-classes are attached, already without the former. The texts of a block are those that
were placed there, so two selectors with texts in one block are the same in this sense.
-/
theorem shared_block_same_spelling {s t : String} (hs : Bare s) (ht : Bare t) :
    (path s = path t → SameSpelling s t)
      ∧ ∀ (as : List Placement) (media : String) (segments : List String),
        let here := as.filter fun a => a.occurrence.isAt media segments
        (Sheet.empty.placeAll as).textsAt media segments = here.map Placement.text
          ∧ ((∃ a ∈ here, a.selector = s) → (∃ b ∈ here, b.selector = t) → SameSpelling s t) := by
  refine ⟨hs.sameSpelling ht, ?_⟩
  intro as media segments here
  refine ⟨?_, ?_⟩
  · rw [Sheet.textsAt_placeAll, Sheet.textsAt_empty, List.nil_append, List.filter_map,
      List.map_map]
    rfl
  · have hpath : ∀ a ∈ here, path a.selector = segments := by
      intro a ha
      have hat := (List.mem_filter.mp ha).2
      unfold Occurrence.isAt at hat
      rw [Bool.and_eq_true, beq_iff_eq, beq_iff_eq] at hat
      exact hat.2
    rintro ⟨a, ha, rfl⟩ ⟨b, hb, rfl⟩
    exact hs.sameSpelling ht ((hpath a ha).trans (hpath b hb).symm)

/-- Two spellings of one selector, and the block that they share. -/
theorem shared_block_same_spelling_child :
    Bare "ul > li:hover" ∧ Bare "ul>li:hover" ∧ path "ul > li:hover" = path "ul>li:hover"
      ∧ Attached "ul > li:hover" ∧ Attached "ul>li:hover"
      ∧ respace true "ul > li:hover".toList = respace true "ul>li:hover".toList
      ∧ (Sheet.empty.placeAll
          [⟨"all", "ul > li:hover", "top: 0"⟩, ⟨"all", "ul>li:hover", "left: 0"⟩]).textsAt
          "all" ["ul", ">li", "&:hover"] = ["top: 0", "left: 0"] := by
  have hs : Bare "ul > li:hover" := by decide +kernel
  have ht : Bare "ul>li:hover" := by decide +kernel
  have hpath : path "ul > li:hover" = path "ul>li:hover" := by decide +kernel
  have hspaces : ' ' ∉ respace true "ul > li:hover".toList := by decide +kernel
  have hspaces' : ' ' ∉ respace true "ul>li:hover".toList := by decide +kernel
  have hattached : Attached "ul > li:hover" := fun h => hspaces (h.subset (by simp))
  have hattached' : Attached "ul>li:hover" := fun h => hspaces' (h.subset (by simp))
  have hmain := shared_block_same_spelling hs ht
  refine ⟨hs, ht, hpath, hattached, hattached', (hmain.1 hpath).2 hattached hattached', ?_⟩
  rw [(hmain.2 _ _ _).1]
  decide +kernel

end CssNest.Selector
