import CssNest.Selector
import CssNest.Proofs.Text

/-!
# The scans of a selector, step by step

Four scans make the path of a selector. What is proved about paths follows the text through all
of them, one character at a time, so what a scan does at a character is said here once, and so is
the recursion of the first one, which looks at two characters (`child_induction`).

Of a scan as a whole it is enough to know that it keeps all characters, in their order, apart
from spaces and markers. So it writes nothing but characters of the text, spaces and markers
(`forall_mem_of_filter`). The last scan holds a segment while it reads it; what is known of that
segment is `Begun`.
-/

namespace CssNest.Selector

open Text

/-! ## Characters -/

/-- Round and square brackets. -/
def isBracket (c : Char) : Bool := c == '(' || c == ')' || c == '[' || c == ']'

theorem isBracket_eq_false_iff {c : Char} :
    isBracket c = false ↔ c ≠ '(' ∧ c ≠ ')' ∧ c ≠ '[' ∧ c ≠ ']' := by
  simp [isBracket, and_assoc]

/-- The combinators that may stand with or without spaces around them. -/
def isCombinator (c : Char) : Bool := c == '>' || c == '+' || c == '~'

theorem mem_attaching_iff {c : Char} : c ∈ attaching ↔ c = '+' ∨ c = '~' := by
  simp [attaching]

/-- To no scan a blank is more than a blank. -/
theorem plain_of_isBlank {c : Char} (h : isBlank c = true) :
    isQuote c = false ∧ isBracket c = false ∧ c ∉ attaching ∧ c ≠ ':' ∧ c ≠ '>' := by
  have hne : ∀ d, isBlank d = false → c ≠ d := by
    rintro d hd rfl
    rw [h] at hd
    exact absurd hd (by simp)
  refine ⟨?_, ?_, ?_, hne _ (by decide), hne _ (by decide)⟩
  · simp [isQuote, hne '\x22' (by decide), hne '\x27' (by decide)]
  · simp [isBracket, hne '(' (by decide), hne ')' (by decide), hne '[' (by decide),
      hne ']' (by decide)]
  · simp [attaching, hne '+' (by decide), hne '~' (by decide)]

theorem after_blank {c : Char} (h : isBlank c = true) : Quote.after none c = none :=
  Quote.after_of_not_isQuote (by simp) (plain_of_isBlank h).1

/-! ## First scan: child combinators -/

/-- What a child combinator leaves of the text behind it. -/
def afterChild : List Char → List Char
  | ' ' :: rest => rest
  | rest => rest

theorem afterChild_eq_self {rest : List Char} (h : rest.head? ≠ some ' ') :
    afterChild rest = rest := by
  unfold afterChild
  split
  · exact absurd rfl h
  · rfl

theorem tightenChild_child (rest : List Char) :
    tightenChild ('>' :: rest) = '>' :: tightenChild (afterChild rest) := by
  unfold afterChild
  split
  · rfl
  · rename_i hspace
    exact tightenChild.eq_2 _ _ fun rest' _ hrest => hspace rest' hrest

theorem normalizeChild_child (rest : List Char) :
    normalizeChild ('>' :: rest) = ' ' :: '>' :: normalizeChild (afterChild rest) := by
  rw [normalizeChild, tightenChild_child]
  rfl

theorem normalizeChild_char {c : Char} (h : c ≠ '>') (rest : List Char) :
    normalizeChild (c :: rest) = c :: normalizeChild rest := by
  rw [normalizeChild, tightenChild.eq_2 _ _ fun _ hc => absurd hc h]
  simp [normalizeChild, spaceBeforeChild, h]

/-- The recursion of the first scan: behind `>` it goes on after the space, if there is one. -/
@[elab_as_elim]
theorem child_induction {motive : List Char → Prop} (nil : motive [])
    (child : ∀ rest, motive (afterChild rest) → motive ('>' :: rest))
    (char : ∀ c rest, c ≠ '>' → motive rest → motive (c :: rest)) (cs : List Char) :
    motive cs := by
  fun_induction tightenChild cs with
  | case1 rest ih => exact child (' ' :: rest) ih
  | case2 c rest hspace ih =>
      by_cases hc : c = '>'
      · subst hc
        apply child
        rwa [afterChild_eq_self]
        intro hhead
        obtain ⟨rest', hrest⟩ := List.head?_eq_some_iff.mp hhead
        exact hspace rest' rfl hrest
      · exact char c rest hc ih
  | case3 => exact nil

/-- Before anything but a space the first scan can be cut in two. -/
theorem normalizeChild_append {c : Char} (hc : c ≠ ' ') (xs rest : List Char) :
    normalizeChild (xs ++ c :: rest) = normalizeChild xs ++ normalizeChild (c :: rest) := by
  induction xs using child_induction with
  | nil => rfl
  | child xs ih =>
      have hbehind : afterChild (xs ++ c :: rest) = afterChild xs ++ c :: rest := by
        cases xs with
        | nil => exact afterChild_eq_self (by simpa using hc)
        | cons d xs =>
            by_cases hd : d = ' '
            · subst hd
              rfl
            · rw [afterChild_eq_self (by simpa using hd), afterChild_eq_self (by simpa using hd)]
      rw [List.cons_append, normalizeChild_child, hbehind, ih, normalizeChild_child]
      rfl
  | char d xs hd ih =>
      rw [List.cons_append, normalizeChild_char hd, ih, normalizeChild_char hd]
      rfl

/-- A space behind a child combinator is dropped before anything else happens. -/
theorem pathChars_space_behind_child (cs : List Char) {rest : List Char}
    (hrest : rest.head? ≠ some ' ') :
    pathChars (cs ++ '>' :: ' ' :: rest) = pathChars (cs ++ '>' :: rest) := by
  have hdropped : afterChild (' ' :: rest) = afterChild rest := (afterChild_eq_self hrest).symm
  have hnormal : normalizeChild (cs ++ '>' :: ' ' :: rest)
      = normalizeChild (cs ++ '>' :: rest) := by
    rw [normalizeChild_append (by decide), normalizeChild_append (by decide),
      normalizeChild_child, normalizeChild_child, hdropped]
  rw [pathChars, hnormal, pathChars]

/-! ## Second scan: pseudo-classes -/

theorem nestedAfter_plain {c : Char} (h : isBracket c = false) (nested : Bool) :
    nestedAfter nested c = nested := by
  obtain ⟨h1, h2, h3, h4⟩ := isBracket_eq_false_iff.mp h
  cases nested
  · simp [nestedAfter, h1, h3]
  · simp [nestedAfter, h2, h4]

theorem markPseudoFrom_char {c : Char} (h : c ≠ ':') (nested marked : Bool) (cs : List Char) :
    markPseudoFrom nested marked (c :: cs)
      = c :: markPseudoFrom (nestedAfter nested c) false cs := by
  rw [markPseudoFrom, if_neg (by simp [h])]

/-- Outside brackets everything but a colon is kept. -/
theorem markPseudoFrom_outside {c : Char} (hb : isBracket c = false) (hc : c ≠ ':')
    (marked : Bool) (rest : List Char) :
    markPseudoFrom false marked (c :: rest) = c :: markPseudoFrom false false rest := by
  rw [markPseudoFrom_char hc, nestedAfter_plain hb]

theorem markPseudoFrom_child (nested marked : Bool) (cs : List Char) :
    markPseudoFrom nested marked (' ' :: '>' :: cs)
      = ' ' :: '>' :: markPseudoFrom nested false cs := by
  cases nested <;> rfl

/-- A colon is marked unless the flag is up or the colon before it was marked. -/
theorem markPseudoFrom_colon (nested marked : Bool) (cs : List Char) :
    markPseudoFrom nested marked (':' :: cs)
      = if nested || marked then ':' :: markPseudoFrom nested false cs
        else ' ' :: '&' :: ':' :: markPseudoFrom nested true cs := by
  cases nested <;> cases marked <;> rfl

/-- Whether the last bracket of a text is an opening one. -/
def endsOpening (cs : List Char) : Bool :=
  (cs.filter isBracket).getLast?.any fun b => b == '(' || b == '['

/-- The flag of the second scan is up exactly if the last bracket was an opening one. -/
theorem foldl_nestedAfter (cs : List Char) : cs.foldl nestedAfter false = endsOpening cs := by
  induction cs using List.reverseRecOn with
  | nil => rfl
  | append_singleton cs c ih =>
      rw [List.foldl_append, List.foldl_cons, List.foldl_nil, endsOpening, List.filter_append]
      cases hc : isBracket c with
      | false =>
          rw [nestedAfter_plain hc, ih, List.filter_cons_of_neg (by simp [hc]), List.filter_nil,
            List.append_nil]
          rfl
      | true =>
          rw [List.filter_cons_of_pos hc, List.filter_nil, List.getLast?_append]
          have hcases : c = '(' ∨ c = ')' ∨ c = '[' ∨ c = ']' := by
            simpa [isBracket, or_assoc] using hc
          rcases hcases with rfl | rfl | rfl | rfl <;> simp [nestedAfter]

/-! ## Third scan: sibling combinators -/

/-- Outside quotes a character is kept if it opens and closes nothing and is no combinator here. -/
theorem markCombinatorsFrom_plain {c : Char} {depth : Nat} {skip : Bool}
    (hq : isQuote c = false) (hb : isBracket c = false) (hc : depth = 0 → c ∉ attaching)
    (hs : skip = true → c ≠ ' ') (rest : List Char) :
    markCombinatorsFrom attaching none depth skip (c :: rest)
      = c :: markCombinatorsFrom attaching none depth false rest := by
  obtain ⟨h1, h2, h3, h4⟩ := isBracket_eq_false_iff.mp hb
  have hskip : (c == ' ' && skip) = false := by
    cases skip with
    | true => simpa using hs rfl
    | false => simp
  have hcomb : (depth == 0 && attaching.contains c) = false := by
    by_cases hd : depth = 0
    · simpa [hd] using hc hd
    · simp [hd]
  have hopen : (c == '(' || c == '[') = false := by simp [h1, h3]
  have hclose : (c == ')' || c == ']') = false := by simp [h2, h4]
  rw [markCombinatorsFrom]
  simp only [hskip, hq, hopen, hclose, hcomb, Bool.false_eq_true, if_false]

theorem markCombinatorsFrom_attaching {c : Char} (hc : c ∈ attaching) (skip : Bool)
    (rest : List Char) :
    markCombinatorsFrom attaching none 0 skip (c :: rest)
      = '&' :: c :: markCombinatorsFrom attaching none 0 true rest := by
  rcases mem_attaching_iff.mp hc with rfl | rfl <;> cases skip <;> rfl

theorem markCombinatorsFrom_skip (depth : Nat) (rest : List Char) :
    markCombinatorsFrom attaching none depth true (' ' :: rest)
      = markCombinatorsFrom attaching none depth true rest := rfl

/-! ## Fourth scan: segments -/

/-- A scan splits at a blank outside quotes, and takes any other character as it is. -/
theorem splits_or_not (q : Quote) (c : Char) :
    isBlank c = true ∧ q = none ∨ (isBlank c && q.isNone) = false := by
  cases isBlank c <;> cases q <;> simp

theorem segmentsFrom_blank {c : Char} (hc : isBlank c = true) (current cs : List Char) :
    segmentsFrom none current (c :: cs) = finish current ++ segmentsFrom none [] cs := by
  rw [segmentsFrom, hc]
  rfl

theorem segmentsFrom_char {q : Quote} {c : Char} (hc : (isBlank c && q.isNone) = false)
    (current cs : List Char) :
    segmentsFrom q current (c :: cs) = segmentsFrom (q.after c) (c :: current) cs := by
  rw [segmentsFrom, hc]
  rfl

theorem segments_space (rest : List Char) : segments (' ' :: rest) = segments rest := rfl

/-- What is left of a segment after trimming starts as the segment does. -/
theorem finish_of_lead {c : Char} (hc : isBlank c = false) (w : List Char) :
    ∃ v, finish (w ++ [c]) = [c :: v] := by
  have htrim : trim (w ++ [c]).reverse = c :: trimEnd w.reverse := by
    have hstart : trimStart (c :: w.reverse) = c :: w.reverse :=
      dropWhile_eq_self (by simpa using hc)
    rw [List.reverse_append, List.reverse_singleton, List.singleton_append, trim, hstart]
    exact trimEnd_append_cons hc [] w.reverse
  refine ⟨trimEnd w.reverse, ?_⟩
  rw [finish, htrim]
  rfl

/--
What the scan for segments holds: a text that has no blank at its start, and one at its end only
inside quotes. The last character comes first.
-/
structure Begun (q : Quote) (current : List Char) : Prop where
  quote : Quote.behind none current.reverse = q
  starts : ∀ c ∈ current.getLast?, isBlank c = false
  ends : q = none → ∀ c ∈ current.head?, isBlank c = false

theorem begun_nil : Begun none [] := ⟨rfl, by simp, by simp⟩

theorem Begun.isQuote {q : Quote} {current : List Char} (h : Begun q current) :
    ∀ o ∈ q, isQuote o = true := by
  rw [← h.quote]
  exact Quote.isQuote_behind _

theorem Begun.cons {q : Quote} {current : List Char} (h : Begun q current) {c : Char}
    (hc : (isBlank c && q.isNone) = false) : Begun (q.after c) (c :: current) where
  quote := by
    rw [List.reverse_cons, Quote.behind_append, h.quote]
    rfl
  starts := by
    cases current with
    | nil =>
        obtain rfl : none = q := h.quote
        simpa using hc
    | cons d current => simpa using h.starts
  ends := by
    intro hclosed d hd
    obtain rfl : c = d := by simpa using hd
    cases hblank : isBlank c with
    | false => rfl
    | true =>
        -- a blank closes no quote, so the scan stood outside quotes before it
        rw [Quote.after_of_not_isQuote h.isQuote (plain_of_isBlank hblank).1] at hclosed
        rw [hblank, hclosed] at hc
        exact absurd hc (by decide)

/-- Outside quotes there is nothing to trim. -/
theorem Begun.finish_eq {current : List Char} (h : Begun none current) :
    finish current = if current.isEmpty then [] else [current.reverse] := by
  have htrim : trim current.reverse = current.reverse := by
    apply trim_eq_self
    · rw [List.head?_reverse]
      exact h.starts
    · rw [List.getLast?_reverse]
      exact h.ends rfl
  rw [finish, htrim, List.isEmpty_reverse]

/-- Segments with a space before each. -/
def spaced (segments : List (List Char)) : List Char := segments.flatMap fun w => ' ' :: w

/-!
## What the scans keep

They write and drop spaces and write markers; all other characters stay, in their order.
-/

section Kept

variable {p : Char → Bool}

theorem filter_normalizeChild (hspace : p ' ' = false) (cs : List Char) :
    (normalizeChild cs).filter p = cs.filter p := by
  induction cs using child_induction with
  | nil => rfl
  | child rest ih =>
      have hbehind : (afterChild rest).filter p = rest.filter p := by
        unfold afterChild
        split
        · rw [List.filter_cons_of_neg (by simp [hspace])]
        · rfl
      rw [normalizeChild_child, List.filter_cons_of_neg (by simp [hspace]), List.filter_cons,
        List.filter_cons, ih, hbehind]
  | char c rest hc ih => rw [normalizeChild_char hc, List.filter_cons, List.filter_cons, ih]

theorem filter_markPseudoFrom (hspace : p ' ' = false) (hmark : p '&' = false)
    (nested marked : Bool) (cs : List Char) :
    (markPseudoFrom nested marked cs).filter p = cs.filter p := by
  induction cs generalizing nested marked with
  | nil => rfl
  | cons c cs ih =>
      rw [markPseudoFrom]
      split
      · rw [List.filter_cons_of_neg (by simp [hspace]), List.filter_cons_of_neg (by simp [hmark]),
          List.filter_cons, List.filter_cons, ih]
      · rw [List.filter_cons, List.filter_cons, ih]

theorem filter_markCombinatorsFrom (hspace : p ' ' = false) (hmark : p '&' = false)
    (combinators : List Char) (q : Quote) (depth : Nat) (skip : Bool) (cs : List Char) :
    (markCombinatorsFrom combinators q depth skip cs).filter p = cs.filter p := by
  induction cs generalizing q depth skip with
  | nil => rfl
  | cons c cs ih =>
      have hkept : ∀ q depth skip,
          (c :: markCombinatorsFrom combinators q depth skip cs).filter p = (c :: cs).filter p := by
        intro q depth skip
        rw [List.filter_cons, List.filter_cons, ih]
      have hdropped : (c == ' ' && skip) = true →
          (markCombinatorsFrom combinators q depth true cs).filter p = (c :: cs).filter p := by
        intro hskip
        obtain ⟨rfl, -⟩ : c = ' ' ∧ skip = true := by simpa using hskip
        rw [ih, List.filter_cons_of_neg (by simp [hspace])]
      cases q with
      | some o =>
          rw [markCombinatorsFrom]
          split
          · exact hdropped ‹_›
          · exact hkept _ _ _
      | none =>
          rw [markCombinatorsFrom]
          split
          · exact hdropped ‹_›
          · split_ifs
            · exact hkept _ _ _
            · exact hkept _ _ _
            · exact hkept _ _ _
            · rw [List.filter_cons_of_neg (by simp [hmark])]
              exact hkept _ _ _
            · exact hkept _ _ _

end Kept

/-!
## What the scans write

Characters of the text, spaces and markers, and nothing else.
-/

/-- A scan that keeps all characters without `P` writes none of its own. -/
theorem forall_mem_of_filter {P : Char → Prop} {xs ys : List Char}
    (hkept : ∀ p : Char → Bool, (∀ c, P c → p c = false) → ys.filter p = xs.filter p)
    (h : ∀ c ∈ xs, P c) : ∀ c ∈ ys, P c := by
  classical
  intro c hc
  by_contra hnot
  have hother : c ∈ ys.filter fun d => decide (¬ P d) :=
    List.mem_filter.mpr ⟨hc, decide_eq_true hnot⟩
  rw [hkept _ (by simp)] at hother
  exact hnot (h c (List.mem_filter.mp hother).1)

theorem forall_mem_normalizeChild {P : Char → Prop} (hspace : P ' ') {cs : List Char}
    (h : ∀ c ∈ cs, P c) : ∀ c ∈ normalizeChild cs, P c :=
  forall_mem_of_filter (fun _ hp => filter_normalizeChild (hp _ hspace) cs) h

theorem forall_mem_markPseudoFrom {P : Char → Prop} (hspace : P ' ') (hmark : P '&')
    {cs : List Char} (h : ∀ c ∈ cs, P c) (nested marked : Bool) :
    ∀ c ∈ markPseudoFrom nested marked cs, P c :=
  forall_mem_of_filter
    (fun _ hp => filter_markPseudoFrom (hp _ hspace) (hp _ hmark) nested marked cs) h

theorem forall_mem_markCombinatorsFrom {P : Char → Prop} (hspace : P ' ') (hmark : P '&')
    {cs : List Char} (h : ∀ c ∈ cs, P c) (combinators : List Char) (q : Quote) (depth : Nat)
    (skip : Bool) : ∀ c ∈ markCombinatorsFrom combinators q depth skip cs, P c :=
  forall_mem_of_filter
    (fun _ hp => filter_markCombinatorsFrom (hp _ hspace) (hp _ hmark) combinators q depth skip cs)
    h

theorem forall_mem_segmentsFrom {P : Char → Prop} {cs current : List Char} (h : ∀ c ∈ cs, P c)
    (hcurrent : ∀ c ∈ current, P c) (q : Quote) :
    ∀ segment ∈ segmentsFrom q current cs, ∀ c ∈ segment, P c := by
  have hfinish : ∀ reversed : List Char, (∀ c ∈ reversed, P c) →
      ∀ segment ∈ finish reversed, ∀ c ∈ segment, P c := by
    intro reversed hreversed segment hsegment c hc
    unfold finish at hsegment
    dsimp only at hsegment
    split at hsegment
    · exact absurd hsegment (by simp)
    · rw [List.mem_singleton.mp hsegment] at hc
      exact hreversed c (List.mem_reverse.mp (mem_of_mem_trim hc))
  induction cs generalizing q current with
  | nil => exact hfinish current hcurrent
  | cons c cs ih =>
      rw [List.forall_mem_cons] at h
      rw [segmentsFrom]
      split
      · exact List.forall_mem_append.mpr ⟨hfinish current hcurrent, ih h.2 (by simp) q⟩
      · exact ih h.2 (List.forall_mem_cons.mpr ⟨h.1, hcurrent⟩) _

/-- The segments of a path are spelled with the characters of the selector, spaces and markers. -/
theorem forall_mem_pathChars {P : Char → Prop} (hspace : P ' ') (hmark : P '&') {cs : List Char}
    (h : ∀ c ∈ cs, P c) : ∀ segment ∈ pathChars cs, ∀ c ∈ segment, P c := by
  have hchild := forall_mem_normalizeChild hspace h
  have hpseudo := forall_mem_markPseudoFrom hspace hmark hchild false false
  have hcombinators := forall_mem_markCombinatorsFrom hspace hmark hpseudo attaching none 0 false
  exact forall_mem_segmentsFrom hcombinators (by simp) none

end CssNest.Selector
