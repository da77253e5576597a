import CssNest.Proofs.Scans

/-!
# Spaces around sibling combinators

A sibling combinator gets a marker in front, and the spaces behind it are dropped, so those make
no difference. Nothing is written before the marker. If no blank stands there either, the segment
before the combinator does not end: `h1 + p` has the path `h1`, `&+p`, and `h1+p` has the one
segment `h1&+p`.

So a space before the combinator matters exactly where there is a segment to be ended. Each scan is
followed across the place between what is before the combinator and the combinator itself, and
what is split at the end differs in one cut.
-/

namespace CssNest.Selector

open Text

/-! ## Splitting a text in two parts -/

/-- What is held before the start of a segment is put before the whole of it. -/
theorem finish_join {e : Char} (he : isBlank e = false) {held : List Char}
    (hheld : ∀ c ∈ held.getLast?, isBlank c = false) (w : List Char) :
    ∃ segment, finish (w ++ [e]) = [segment]
      ∧ finish (w ++ e :: held) = [held.reverse ++ segment] := by
  obtain ⟨v, hv⟩ := finish_of_lead he w
  have hsegment : trim (w ++ [e]).reverse = e :: v := by
    rw [finish] at hv
    split at hv
    · exact absurd hv (by simp)
    · simpa using hv
  have htrim : trim (w ++ e :: held).reverse = held.reverse ++ e :: v := by
    have hsplit : (w ++ e :: held).reverse = held.reverse ++ (w ++ [e]).reverse := by simp
    rw [hsplit, trim_append, hsegment]
    · rwa [List.head?_reverse]
    · exact ⟨e, w.reverse, by simp, he⟩
  refine ⟨e :: v, hv, ?_⟩
  rw [finish, htrim]
  simp

theorem segmentsFrom_join {e : Char} (he : isBlank e = false) {held : List Char}
    (hheld : ∀ c ∈ held.getLast?, isBlank c = false) (q : Quote) (w rest : List Char) :
    ∃ first after, segmentsFrom q (w ++ [e]) rest = first :: after
      ∧ segmentsFrom q (w ++ e :: held) rest = (held.reverse ++ first) :: after := by
  induction rest generalizing q w with
  | nil =>
      obtain ⟨segment, hone, hjoined⟩ := finish_join he hheld w
      exact ⟨segment, [], hone, hjoined⟩
  | cons c rest ih =>
      rw [segmentsFrom, segmentsFrom]
      split
      · obtain ⟨segment, hone, hjoined⟩ := finish_join he hheld w
        rw [hone, hjoined]
        exact ⟨segment, segmentsFrom q [] rest, rfl, rfl⟩
      · exact ih (q.after c) (c :: w)

/-- Behind a part of a text the scan has some segments, and holds a part of one. -/
theorem Begun.segmentsFrom_append {q : Quote} {current : List Char} (h : Begun q current)
    (cs : List Char) :
    ∃ before held, Begun (q.behind cs) held ∧ ∀ rest,
      segmentsFrom q current (cs ++ rest) = before ++ segmentsFrom (q.behind cs) held rest := by
  induction cs generalizing q current with
  | nil => exact ⟨[], current, h, fun _ => rfl⟩
  | cons c cs ih =>
      rcases splits_or_not q c with ⟨hblank, rfl⟩ | hc
      · have hbehind : Quote.behind none (c :: cs) = Quote.behind none cs := by
          rw [Quote.behind, List.foldl_cons, after_blank hblank]
          rfl
        obtain ⟨before, held, hheld, hrest⟩ := ih begun_nil
        refine ⟨finish current ++ before, held, ?_, ?_⟩
        · rw [hbehind]
          exact hheld
        · intro rest
          rw [List.cons_append, segmentsFrom_blank hblank, hrest, hbehind, List.append_assoc]
      · obtain ⟨before, held, hheld, hrest⟩ := ih (h.cons hc)
        refine ⟨before, held, hheld, ?_⟩
        intro rest
        rw [List.cons_append, segmentsFrom_char hc]
        exact hrest rest

/-- Outside quotes a blank cuts a text in two. -/
theorem segments_append_blank {cs : List Char} (hclosed : Quote.behind none cs = none) {b : Char}
    (hb : isBlank b = true) (rest : List Char) :
    segments (cs ++ b :: rest) = segments cs ++ segments rest := by
  obtain ⟨before, held, -, hrest⟩ := begun_nil.segmentsFrom_append cs
  rw [hclosed] at hrest
  have hcs : segments cs = before ++ finish held := by
    have hnil := hrest []
    rwa [List.append_nil] at hnil
  rw [segments, hrest, segmentsFrom_blank hb, hcs, List.append_assoc]
  rfl

/-- Where no blank stands outside quotes, the segments on the two sides become one. -/
theorem segments_append_join {cs : List Char} {d e : Char} (hd : isBlank d = false)
    (he : isBlank e = false) (hclosed : Quote.behind none (cs ++ [d]) = none) (rest : List Char) :
    ∃ before last first after, segments (cs ++ [d]) = before ++ [last]
      ∧ segments (e :: rest) = first :: after
      ∧ segments (cs ++ d :: e :: rest) = before ++ (last ++ first) :: after := by
  obtain ⟨before, held, hheld, hrest⟩ := begun_nil.segmentsFrom_append cs
  have hchar : (isBlank d && (Quote.behind none cs).isNone) = false := by rw [hd]; rfl
  have hbegun := hheld.cons hchar
  rw [Quote.behind_append] at hclosed
  have hafter : (Quote.behind none cs).after d = none := hclosed
  rw [hafter] at hbegun
  have hlast : segments (cs ++ [d]) = before ++ [(d :: held).reverse] := by
    rw [segments, hrest, segmentsFrom_char hchar, hafter, segmentsFrom, hbegun.finish_eq]
    rfl
  obtain ⟨first, after, hfirst, hjoined⟩ :=
    segmentsFrom_join he hbegun.starts (Quote.after none e) [] rest
  have hechar : (isBlank e && (none : Quote).isNone) = false := by rw [he]; rfl
  refine ⟨before, (d :: held).reverse, first, after, hlast, ?_, ?_⟩
  · rw [segments, segmentsFrom_char hechar]
    exact hfirst
  · rw [segments, hrest, segmentsFrom_char hchar, hafter, segmentsFrom_char hechar]
    exact congrArg (before ++ ·) hjoined

/-! ## The scans across the combinator -/

/--
What the scan for pseudo-classes writes up to a character, if there are no brackets. Behind it the
scan knows at most of a colon that it has marked.
-/
theorem markPseudoFrom_append {cs : List Char} {d : Char}
    (hcs : ∀ c ∈ cs ++ [d], isBracket c = false) (marked : Bool) :
    ∃ front flag, (d ≠ ':' → flag = false) ∧ ∀ rest,
      markPseudoFrom false marked (cs ++ d :: rest)
        = front ++ d :: markPseudoFrom false flag rest := by
  induction cs generalizing marked with
  | nil =>
      have hb : isBracket d = false := hcs d (by simp)
      by_cases hd : d = ':'
      · subst hd
        refine ⟨if marked then [] else [' ', '&'], !marked, fun h => absurd rfl h, ?_⟩
        intro rest
        rw [List.nil_append, markPseudoFrom_colon]
        cases marked <;> rfl
      · exact ⟨[], false, fun _ => rfl, markPseudoFrom_outside hb hd marked⟩
  | cons c cs ih =>
      rw [List.cons_append, List.forall_mem_cons] at hcs
      by_cases hc : c = ':'
      · subst hc
        obtain ⟨front, flag, hflag, hrest⟩ := ih hcs.2 (!marked)
        refine ⟨(if marked then [':'] else [' ', '&', ':']) ++ front, flag, hflag, ?_⟩
        intro rest
        rw [List.cons_append, markPseudoFrom_colon, List.append_assoc, ← hrest]
        cases marked <;> rfl
      · obtain ⟨front, flag, hflag, hrest⟩ := ih hcs.2 false
        refine ⟨c :: front, flag, hflag, ?_⟩
        intro rest
        rw [List.cons_append, markPseudoFrom_outside hcs.1 hc, hrest]
        rfl

/--
What the scan for combinators writes up to a character other than a space, if there are no quotes
and brackets. Behind it spaces are dropped exactly if the character is one of the combinators.
-/
theorem markCombinatorsFrom_append {cs : List Char} {d : Char}
    (hcs : ∀ c ∈ cs ++ [d], isQuote c = false ∧ isBracket c = false) (hspace : d ≠ ' ')
    (skip : Bool) :
    ∃ front, ∀ rest, markCombinatorsFrom attaching none 0 skip (cs ++ d :: rest)
      = front ++ d :: markCombinatorsFrom attaching none 0 (decide (d ∈ attaching)) rest := by
  induction cs generalizing skip with
  | nil =>
      obtain ⟨hq, hb⟩ := hcs d (by simp)
      by_cases hd : d ∈ attaching
      · rw [decide_eq_true hd]
        exact ⟨['&'], markCombinatorsFrom_attaching hd skip⟩
      · rw [decide_eq_false hd]
        exact ⟨[], markCombinatorsFrom_plain hq hb (fun _ => hd) fun _ => hspace⟩
  | cons c cs ih =>
      rw [List.cons_append, List.forall_mem_cons] at hcs
      obtain ⟨⟨hq, hb⟩, hcs⟩ := hcs
      by_cases hc : c ∈ attaching
      · obtain ⟨front, hrest⟩ := ih hcs true
        refine ⟨'&' :: c :: front, ?_⟩
        intro rest
        rw [List.cons_append, markCombinatorsFrom_attaching hc, hrest]
        rfl
      · by_cases hdropped : skip = true ∧ c = ' '
        · obtain ⟨rfl, rfl⟩ := hdropped
          exact ih hcs true
        · have hkept : skip = true → c ≠ ' ' := fun hs heq => hdropped ⟨hs, heq⟩
          obtain ⟨front, hrest⟩ := ih hcs false
          refine ⟨c :: front, ?_⟩
          intro rest
          rw [List.cons_append, markCombinatorsFrom_plain hq hb (fun _ => hc) hkept, hrest]
          rfl

/-- What the scans before the split make of a selector. -/
def marked (cs : List Char) : List Char :=
  markCombinators attaching (markPseudo (normalizeChild cs))

/-- Text without quotes and brackets, up to a character that is no space and no `>`. -/
structure Operand (cs : List Char) (d : Char) : Prop where
  plain : ∀ c ∈ cs ++ [d], isQuote c = false ∧ isBracket c = false
  notSpace : d ≠ ' '
  notChild : d ≠ '>'

theorem plain_of_attaching {c : Char} (hc : c ∈ attaching) :
    isQuote c = false ∧ isBracket c = false ∧ c ≠ ' ' ∧ c ≠ '>' ∧ c ≠ ':' := by
  rcases mem_attaching_iff.mp hc with rfl | rfl <;> decide

theorem Operand.of_attaching {cs : List Char}
    (hcs : ∀ c ∈ cs, isQuote c = false ∧ isBracket c = false) {c : Char} (hc : c ∈ attaching) :
    Operand cs c := by
  obtain ⟨hq, hb, hspace, hchild, -⟩ := plain_of_attaching hc
  refine ⟨?_, hspace, hchild⟩
  rw [List.forall_mem_append]
  exact ⟨hcs, by simp [hq, hb]⟩

/--
What the scans write up to the end of an operand has no quotes. Behind it they know at most of a
marked colon, and of a combinator whose spaces they drop.
-/
theorem Operand.marked_append {cs : List Char} {d : Char} (h : Operand cs d) :
    ∃ front flag, (∀ c ∈ front ++ [d], isQuote c = false) ∧ (d ≠ ':' → flag = false)
      ∧ ∀ rest, marked (cs ++ d :: rest)
        = front ++ d :: markCombinatorsFrom attaching none 0 (decide (d ∈ attaching))
            (markPseudoFrom false flag (normalizeChild rest)) := by
  obtain ⟨hcs, hd⟩ := List.forall_mem_append.mp h.plain
  have hplain : ∀ c ∈ normalizeChild cs ++ [d], isQuote c = false ∧ isBracket c = false :=
    List.forall_mem_append.mpr ⟨forall_mem_normalizeChild (by decide) hcs, hd⟩
  obtain ⟨before, flag, hflag, hpseudo⟩ :=
    markPseudoFrom_append (fun c hc => (hplain c hc).2) false
  have hbefore : ∀ c ∈ before ++ [d], isQuote c = false ∧ isBracket c = false := by
    have hmem := forall_mem_markPseudoFrom (by decide) (by decide) hplain false false
    rwa [hpseudo []] at hmem
  obtain ⟨front, hcombinators⟩ := markCombinatorsFrom_append hbefore h.notSpace false
  have hfront : ∀ c ∈ front ++ [d], isQuote c = false ∧ isBracket c = false := by
    have hmem := forall_mem_markCombinatorsFrom (by decide) (by decide) hbefore attaching none 0
      false
    rwa [hcombinators []] at hmem
  refine ⟨front, flag, fun c hc => (hfront c hc).1, hflag, ?_⟩
  intro rest
  rw [marked, normalizeChild_append h.notSpace, normalizeChild_char h.notChild, markPseudo,
    hpseudo, markCombinators, hcombinators]

/-! ## Paths -/

/-- Spaces behind a combinator make no difference. -/
theorem pathChars_space_behind {cs : List Char}
    (hcs : ∀ c ∈ cs, isQuote c = false ∧ isBracket c = false) {c : Char} (hc : c ∈ attaching)
    (rest : List Char) : pathChars (cs ++ c :: ' ' :: rest) = pathChars (cs ++ c :: rest) := by
  obtain ⟨front, flag, -, hflag, hmarked⟩ := (Operand.of_attaching hcs hc).marked_append
  obtain rfl : flag = false := hflag (plain_of_attaching hc).2.2.2.2
  have hspace : markPseudoFrom false false (normalizeChild (' ' :: rest))
      = ' ' :: markPseudoFrom false false (normalizeChild rest) := by
    rw [normalizeChild_char (by decide), markPseudoFrom_outside (by decide) (by decide)]
  have heq : marked (cs ++ c :: ' ' :: rest) = marked (cs ++ c :: rest) := by
    rw [hmarked, hmarked, hspace, decide_eq_true hc, markCombinatorsFrom_skip]
  exact congrArg segments heq

/-- The text that is split, without a space before a combinator and with one. -/
theorem Operand.marked_combinator {cs : List Char} {d : Char} (h : Operand cs d) {c : Char}
    (hc : c ∈ attaching) (rest : List Char) :
    ∃ front tail, (∀ a ∈ front ++ [d], isQuote a = false)
      ∧ marked (cs ++ [d]) = front ++ [d]
      ∧ marked (cs ++ d :: c :: rest) = front ++ d :: '&' :: c :: tail
      ∧ marked (cs ++ d :: ' ' :: c :: rest)
        = front ++ d :: ((if d ∈ attaching then [] else [' ']) ++ '&' :: c :: tail) := by
  obtain ⟨front, flag, hquotes, -, hmarked⟩ := h.marked_append
  obtain ⟨-, hb, -, hchild, hcolon⟩ := plain_of_attaching hc
  have hwithout : markPseudoFrom false flag (normalizeChild (c :: rest))
      = c :: markPseudo (normalizeChild rest) := by
    rw [normalizeChild_char hchild, markPseudoFrom_outside hb hcolon]
    rfl
  have hwith : markPseudoFrom false flag (normalizeChild (' ' :: c :: rest))
      = ' ' :: c :: markPseudo (normalizeChild rest) := by
    rw [normalizeChild_char (by decide), normalizeChild_char hchild,
      markPseudoFrom_outside (by decide) (by decide), markPseudoFrom_outside hb hcolon]
    rfl
  refine ⟨front, markCombinatorsFrom attaching none 0 true (markPseudo (normalizeChild rest)),
    hquotes, hmarked [], ?_, ?_⟩
  · rw [hmarked, hwithout, markCombinatorsFrom_attaching hc]
  · rw [hmarked, hwith]
    by_cases hd : d ∈ attaching
    · rw [decide_eq_true hd, if_pos hd, markCombinatorsFrom_skip, markCombinatorsFrom_attaching hc]
      rfl
    · rw [decide_eq_false hd, if_neg hd,
        markCombinatorsFrom_plain (by decide) (by decide) (fun _ => by decide) (by simp),
        markCombinatorsFrom_attaching hc]
      rfl

/-- Behind a blank one more space changes nothing, and behind a combinator it is dropped. -/
theorem Operand.pathChars_same {cs : List Char} {d : Char} (h : Operand cs d)
    (hd : isBlank d = true ∨ d ∈ attaching) {c : Char} (hc : c ∈ attaching) (rest : List Char) :
    pathChars (cs ++ d :: c :: rest) = pathChars (cs ++ d :: ' ' :: c :: rest) := by
  obtain ⟨front, tail, hquotes, -, hwithout, hwith⟩ := h.marked_combinator hc rest
  have hsegments : segments (marked (cs ++ d :: c :: rest))
      = segments (marked (cs ++ d :: ' ' :: c :: rest)) := by
    by_cases hattach : d ∈ attaching
    · rw [hwithout, hwith, if_pos hattach]
      rfl
    · have hblank : isBlank d = true := hd.resolve_right hattach
      have hclosed : Quote.behind none front = none :=
        Quote.behind_of_not_isQuote (by simp) fun a ha => hquotes a (by simp [ha])
      rw [hwithout, hwith, if_neg hattach, segments_append_blank hclosed hblank,
        segments_append_blank hclosed hblank, List.singleton_append, segments_space]
  exact hsegments

/-- Behind anything else the space ends a segment, which without it goes on with the marker. -/
theorem Operand.pathChars_joined {cs : List Char} {d : Char} (h : Operand cs d)
    (hblank : isBlank d = false) (hattach : d ∉ attaching) {c : Char} (hc : c ∈ attaching)
    (rest : List Char) :
    ∃ before last first after, pathChars (cs ++ [d]) = before ++ [last]
      ∧ pathChars (cs ++ d :: ' ' :: c :: rest) = before ++ last :: first :: after
      ∧ pathChars (cs ++ d :: c :: rest) = before ++ (last ++ first) :: after := by
  obtain ⟨front, tail, hquotes, hend, hwithout, hwith⟩ := h.marked_combinator hc rest
  have hclosed : Quote.behind none (front ++ [d]) = none :=
    Quote.behind_of_not_isQuote (by simp) hquotes
  obtain ⟨before, last, first, after, hlast, hfirst, hjoined⟩ :=
    segments_append_join hblank (by decide : isBlank '&' = false) hclosed (c :: tail)
  have hcut : segments (front ++ d :: ' ' :: '&' :: c :: tail)
      = before ++ last :: first :: after := by
    have hsplit : front ++ d :: ' ' :: '&' :: c :: tail
        = (front ++ [d]) ++ ' ' :: '&' :: c :: tail := by simp
    rw [hsplit, segments_append_blank hclosed (by decide), hlast, hfirst, List.append_assoc]
    rfl
  rw [if_neg hattach] at hwith
  refine ⟨before, last, first, after, ?_, ?_, ?_⟩
  · exact (congrArg segments hend).trans hlast
  · exact (congrArg segments hwith).trans hcut
  · exact (congrArg segments hwithout).trans hjoined

theorem pathChars_space (cs : List Char) : pathChars (' ' :: cs) = pathChars cs := by
  rw [pathChars, normalizeChild_char (by decide), markPseudo,
    markPseudoFrom_outside (by decide) (by decide), markCombinators,
    markCombinatorsFrom_plain (by decide) (by decide) (fun _ => by decide) (by simp),
    segments_space]
  rfl

/-- A space before a combinator changes nothing, or it is one cut more. -/
theorem pathChars_space_before {cs : List Char}
    (hplain : ∀ c ∈ cs, isQuote c = false ∧ isBracket c = false) (hend : cs.getLast? ≠ some ' ')
    {c : Char} (hc : c ∈ attaching) (rest : List Char) :
    ((∀ d ∈ cs.getLast?, isBlank d = true ∨ isCombinator d = true)
        ∧ pathChars (cs ++ c :: rest) = pathChars (cs ++ ' ' :: c :: rest))
      ∨ ((∃ d ∈ cs.getLast?, isBlank d = false ∧ isCombinator d = false)
        ∧ ∃ before last first after, pathChars cs = before ++ [last]
          ∧ pathChars (cs ++ ' ' :: c :: rest) = before ++ last :: first :: after
          ∧ pathChars (cs ++ c :: rest) = before ++ (last ++ first) :: after) := by
  cases cs using List.reverseRecOn with
  | nil =>
      exact .inl ⟨by simp, (pathChars_space (c :: rest)).symm⟩
  | append_singleton cs d =>
      have hspace : d ≠ ' ' := by simpa using hend
      have hlast : (cs ++ [d]).getLast? = some d := by simp
      rw [hlast, List.append_assoc, List.append_assoc, List.singleton_append, List.singleton_append]
      by_cases hchild : d = '>'
      · subst hchild
        have hhead : (c :: rest).head? ≠ some ' ' := by
          simpa using (plain_of_attaching hc).2.2.1
        exact .inl ⟨by simp [isCombinator], (pathChars_space_behind_child cs hhead).symm⟩
      · have hoperand : Operand cs d := ⟨hplain, hspace, hchild⟩
        have hcombinator : isCombinator d = true ↔ d ∈ attaching := by
          simp [isCombinator, mem_attaching_iff, hchild]
        by_cases hd : isBlank d = true ∨ d ∈ attaching
        · left
          refine ⟨?_, hoperand.pathChars_same hd hc rest⟩
          intro a ha
          obtain rfl : d = a := by simpa using ha
          rwa [hcombinator]
        · right
          rw [not_or] at hd
          refine ⟨⟨d, rfl, by simpa using hd.1, ?_⟩,
            hoperand.pathChars_joined (by simpa using hd.1) hd.2 hc rest⟩
          rw [Bool.eq_false_iff, ne_eq, hcombinator]
          exact hd.2

/-- Without the spaces, `h1+p` is one segment. -/
theorem sibling_spelling_matters :
    ¬ ∀ c x y : String, c = "+" ∨ c = "~" → x ≠ "" → y ≠ "" →
      (∀ d ∈ x.toList ++ y.toList, isQuote d = false ∧ isBracket d = false) →
      (∀ ending ∈ [x.toList.head?, x.toList.getLast?, y.toList.head?, y.toList.getLast?],
        ∀ d ∈ ending, d ≠ ' ' ∧ isCombinator d = false) →
      path (x ++ " " ++ c ++ y) = path (x ++ c ++ y)
        ∧ path (x ++ c ++ " " ++ y) = path (x ++ c ++ y)
        ∧ path (x ++ " " ++ c ++ " " ++ y) = path (x ++ c ++ y) := by
  intro h
  have hplain : ∀ d ∈ "h1".toList ++ "p".toList, isQuote d = false ∧ isBracket d = false := by
    have hall : (("h1".toList ++ "p".toList).all fun d => !isQuote d && !isBracket d) = true := by
      decide +kernel
    simpa using hall
  have hends : ["h1".toList.head?, "h1".toList.getLast?, "p".toList.head?, "p".toList.getLast?]
      = [some 'h', some '1', some 'p', some 'p'] := by decide +kernel
  have hsame := (h "+" "h1" "p" (.inl rfl) (by decide) (by decide) hplain
    (by rw [hends]; simp [isCombinator])).1
  revert hsame
  decide +kernel

/--
**When the spelling of a sibling combinator does not matter.** Let `x` have no quotes and brackets
and no space at its end; whatever follows the combinator, spaces between the two make no
difference. A space before the combinator makes none either, so that all four spellings have one
path, exactly if `x` ends in a blank or in another combinator, or is empty. Otherwise that space
is one cut more: without it the last segment of `x` and the one that starts with the marker are
a single segment.
-/
theorem path_sibling_spellings {c x : String} (hc : c = "+" ∨ c = "~")
    (hplain : ∀ d ∈ x.toList, isQuote d = false ∧ isBracket d = false)
    (hend : x.toList.getLast? ≠ some ' ') (y : String) :
    path (x ++ c ++ " " ++ y) = path (x ++ c ++ y)
      ∧ path (x ++ " " ++ c ++ " " ++ y) = path (x ++ " " ++ c ++ y)
      ∧ (path (x ++ " " ++ c ++ y) = path (x ++ c ++ y)
          ↔ ∀ d ∈ x.toList.getLast?, isBlank d = true ∨ isCombinator d = true)
      ∧ (path (x ++ " " ++ c ++ y) ≠ path (x ++ c ++ y) →
          ∃ before last first after, path x = before ++ [last]
            ∧ path (x ++ " " ++ c ++ y) = before ++ last :: first :: after
            ∧ path (x ++ c ++ y) = before ++ (last ++ first) :: after) := by
  obtain ⟨k, hk, hck⟩ : ∃ k ∈ attaching, c.toList = [k] := by
    rcases hc with rfl | rfl
    · exact ⟨'+', by decide, rfl⟩
    · exact ⟨'~', by decide, rfl⟩
  have hspaced : ∀ d ∈ x.toList ++ [' '], isQuote d = false ∧ isBracket d = false :=
    List.forall_mem_append.mpr ⟨hplain, List.forall_mem_singleton.mpr ⟨rfl, rfl⟩⟩
  have hwithout : path (x ++ c ++ y)
      = (pathChars (x.toList ++ k :: y.toList)).map String.ofList := by
    simp [path, hck]
  have hwith : path (x ++ " " ++ c ++ y)
      = (pathChars (x.toList ++ ' ' :: k :: y.toList)).map String.ofList := by
    simp [path, hck]
  have hbehind := pathChars_space_behind hplain hk y.toList
  have hboth := pathChars_space_behind hspaced hk y.toList
  refine ⟨?_, ?_, ?_⟩
  · rw [hwithout, ← hbehind]
    simp [path, hck]
  · rw [List.append_assoc, List.append_assoc, List.singleton_append, List.singleton_append] at hboth
    rw [hwith, ← hboth]
    simp [path, hck]
  · rcases pathChars_space_before hplain hend hk y.toList with
      ⟨hends, hsame⟩ | ⟨⟨d, hd, hblank, hcombinator⟩, before, last, first, after, hx, hcut, hjoined⟩
    · have hpath : path (x ++ " " ++ c ++ y) = path (x ++ c ++ y) := by
        rw [hwith, hwithout, hsame]
      exact ⟨iff_of_true hpath hends, fun hne => absurd hpath hne⟩
    · have hne : path (x ++ " " ++ c ++ y) ≠ path (x ++ c ++ y) := by
        intro heq
        have hlength := congrArg List.length heq
        rw [hwith, hwithout, hcut, hjoined] at hlength
        simp only [List.length_map, List.length_append, List.length_cons] at hlength
        omega
      have hends : ¬ ∀ d ∈ x.toList.getLast?, isBlank d = true ∨ isCombinator d = true := by
        intro h
        rcases h d hd with hb | hb
        · rw [hblank] at hb
          exact absurd hb (by simp)
        · rw [hcombinator] at hb
          exact absurd hb (by simp)
      refine ⟨iff_of_false hne hends, fun _ => ?_⟩
      refine ⟨before.map String.ofList, String.ofList last, String.ofList first,
        after.map String.ofList, ?_, ?_, ?_⟩
      · rw [path, hx]
        simp
      · rw [hwith, hcut]
        simp
      · rw [hwithout, hjoined]
        simp [String.ofList_append]

/-- The path of `ul h1:hover+p` has one segment less than that of `ul h1:hover +p`. -/
theorem path_sibling_spellings_sample :
    (∀ d ∈ "ul h1:hover".toList, isQuote d = false ∧ isBracket d = false)
      ∧ "ul h1:hover".toList.getLast? ≠ some ' '
      ∧ path ("ul h1:hover" ++ "+" ++ " " ++ "p") = path ("ul h1:hover" ++ "+" ++ "p")
      ∧ path ("ul h1:hover" ++ " " ++ "+" ++ " " ++ "p") = path ("ul h1:hover" ++ " " ++ "+" ++ "p")
      ∧ path ("ul h1:hover" ++ " " ++ "+" ++ "p") ≠ path ("ul h1:hover" ++ "+" ++ "p") := by
  have hplain : ∀ d ∈ "ul h1:hover".toList, isQuote d = false ∧ isBracket d = false := by
    have hall : ("ul h1:hover".toList.all fun d => !isQuote d && !isBracket d) = true := by
      decide +kernel
    simpa using hall
  have hend : "ul h1:hover".toList.getLast? ≠ some ' ' := by decide +kernel
  obtain ⟨hbehind, hboth, hiff, -⟩ := path_sibling_spellings (.inl rfl) hplain hend "p"
  refine ⟨hplain, hend, hbehind, hboth, ?_⟩
  rw [ne_eq, hiff]
  intro hends
  exact absurd (hends 'r' (by decide +kernel)) (by decide +kernel)

end CssNest.Selector
