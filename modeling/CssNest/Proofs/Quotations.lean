import CssNest.Proofs.Scans

/-!
# Quoted parts that are changed

An attribute is matched against a quoted string, so the string has to reach the output as it is.
Two of the scans know of quotes, the ones for sibling combinators and for segments. The one for
pseudo-classes relies on the brackets around an attribute, and a closing bracket inside the string
ends them for it; the one for child combinators looks at every `>`. So `a[title="x>y"]` becomes
`a[title="x >y"]`, which matches other elements.

The lists of quoted parts are compared through the text with everything outside quotes dropped,
from which they can be read again. There a space that is written inside quotes is the first place
where two texts differ.
-/

namespace CssNest

namespace Text

/-! ## Quoted parts of a text -/

/--
The scan behind `quotations`; the part being read is held in reverse. One that is left open ends
with the text.
-/
def quotationsFrom (q : Quote) (current : List Char) : List Char → List (List Char)
  | [] => if q.isNone then [] else [current.reverse]
  | c :: rest =>
    match q with
    | none => if isQuote c then quotationsFrom (some c) [c] rest else quotationsFrom none [] rest
    | some opened =>
      if c == opened then (c :: current).reverse :: quotationsFrom none [] rest
      else quotationsFrom (some opened) (c :: current) rest

/-- The quoted parts of a text in their order, with the quotes around them. -/
def quotations (cs : List Char) : List (List Char) := quotationsFrom none [] cs

/-- A text that begins inside `q`, with everything outside quotes dropped. -/
def quotedFrom (q : Quote) : List Char → List Char
  | [] => []
  | c :: rest =>
    if q.isSome || isQuote c then c :: quotedFrom (q.after c) rest else quotedFrom (q.after c) rest

theorem quotedFrom_outside {c : Char} (h : isQuote c = false) (rest : List Char) :
    quotedFrom none (c :: rest) = quotedFrom none rest := by
  simp [quotedFrom, Quote.after, h]

theorem quotedFrom_opening {c : Char} (h : isQuote c = true) (rest : List Char) :
    quotedFrom none (c :: rest) = c :: quotedFrom (some c) rest := by
  simp [quotedFrom, Quote.after, h]

theorem quotedFrom_inside (opened c : Char) (rest : List Char) :
    quotedFrom (some opened) (c :: rest) = c :: quotedFrom (Quote.after (some opened) c) rest := rfl

theorem quotedFrom_cons_eq_iff (q : Quote) (c : Char) (xs ys : List Char) :
    quotedFrom q (c :: xs) = quotedFrom q (c :: ys)
      ↔ quotedFrom (q.after c) xs = quotedFrom (q.after c) ys := by
  rw [quotedFrom, quotedFrom]
  split
  · exact List.cons_inj_right c
  · rfl

/-- Outside quotes there is no part being read. -/
theorem quotationsFrom_none (current cs : List Char) :
    quotationsFrom none current cs = quotations cs := by
  cases cs <;> rfl

theorem quotations_outside {c : Char} (h : isQuote c = false) (rest : List Char) :
    quotations (c :: rest) = quotations rest := by
  simp [quotations, quotationsFrom, h]

theorem quotations_opening {c : Char} (h : isQuote c = true) (rest : List Char) :
    quotations (c :: rest) = quotationsFrom (some c) [c] rest := by
  simp [quotations, quotationsFrom, h]

/-- The quoted parts can be read again when everything outside quotes is dropped. -/
theorem quotationsFrom_quotedFrom (q : Quote) (current cs : List Char) :
    quotationsFrom q current (quotedFrom q cs) = quotationsFrom q current cs := by
  induction cs generalizing q current with
  | nil => rfl
  | cons c cs ih =>
      cases q with
      | none =>
          rw [quotationsFrom_none, quotationsFrom_none]
          cases hc : isQuote c with
          | false =>
              rw [quotedFrom_outside hc, quotations_outside hc]
              exact ih none []
          | true => rw [quotedFrom_opening hc, quotations_opening hc, quotations_opening hc, ih]
      | some opened =>
          rw [quotedFrom_inside, quotationsFrom, quotationsFrom, Quote.after]
          split
          · rw [ih]
          · rw [ih]

theorem flatten_quotationsFrom {q : Quote} {current : List Char} (h : q = none → current = [])
    (cs : List Char) :
    (quotationsFrom q current cs).flatten = current.reverse ++ quotedFrom q cs := by
  induction cs generalizing q current with
  | nil =>
      cases q with
      | none => simp [quotationsFrom, quotedFrom, h]
      | some opened => simp [quotationsFrom, quotedFrom]
  | cons c cs ih =>
      cases q with
      | none =>
          rw [h rfl, quotationsFrom_none]
          cases hc : isQuote c with
          | false =>
              rw [quotedFrom_outside hc, quotations_outside hc]
              exact ih fun _ => rfl
          | true =>
              rw [quotedFrom_opening hc, quotations_opening hc, ih (by simp)]
              rfl
      | some opened =>
          rw [quotedFrom_inside, quotationsFrom, Quote.after]
          split
          · rw [List.flatten_cons, ih fun _ => rfl]
            simp
          · rw [ih (by simp)]
            simp

theorem quotations_eq_iff (xs ys : List Char) :
    quotations xs = quotations ys ↔ quotedFrom none xs = quotedFrom none ys := by
  have hflatten : ∀ cs, (quotations cs).flatten = quotedFrom none cs := by
    intro cs
    exact flatten_quotationsFrom (fun _ => rfl) cs
  constructor
  · intro h
    rw [← hflatten, ← hflatten, h]
  · intro h
    rw [quotations, quotations, ← quotationsFrom_quotedFrom, h, quotationsFrom_quotedFrom]

/-- A text in which no quote is left open can be read by itself. -/
theorem quotationsFrom_append {q : Quote} {xs : List Char} (h : q.behind xs = none)
    (current ys : List Char) :
    quotationsFrom q current (xs ++ ys) = quotationsFrom q current xs ++ quotations ys := by
  induction xs generalizing q current with
  | nil =>
      obtain rfl : q = none := h
      exact quotationsFrom_none current ys
  | cons c xs ih =>
      have hrest : (q.after c).behind xs = none := h
      rw [List.cons_append]
      cases q with
      | none =>
          rw [quotationsFrom_none, quotationsFrom_none]
          cases hc : isQuote c with
          | false =>
              rw [quotations_outside hc, quotations_outside hc]
              rw [Quote.after_of_not_isQuote (by simp) hc] at hrest
              exact ih hrest []
          | true =>
              rw [quotations_opening hc, quotations_opening hc]
              apply ih
              simpa [Quote.after, hc] using hrest
      | some opened =>
          rw [quotationsFrom, quotationsFrom]
          rw [Quote.after] at hrest
          split
          · rename_i hclose
            rw [if_pos hclose] at hrest
            rw [ih hrest, List.cons_append]
          · rename_i hinside
            rw [if_neg hinside] at hrest
            exact ih hrest _

end Text

namespace Selector

open Text

/-! ## The last two scans -/

theorem Begun.flatMap_quotations {current : List Char} (h : Begun none current) :
    (finish current).flatMap quotations = quotations current.reverse := by
  rw [h.finish_eq]
  cases current with
  | nil => rfl
  | cons c current => simp

/-- Splitting a text in which no quote is left open leaves its quoted parts in place. -/
theorem flatMap_quotations_segmentsFrom {q : Quote} {current cs : List Char} (h : Begun q current)
    (hclosed : q.behind cs = none) :
    (segmentsFrom q current cs).flatMap quotations = quotations (current.reverse ++ cs) := by
  induction cs generalizing q current with
  | nil =>
      obtain rfl : q = none := hclosed
      rw [segmentsFrom, List.append_nil, h.flatMap_quotations]
  | cons c cs ih =>
      have hrest : (q.after c).behind cs = none := hclosed
      rcases splits_or_not q c with ⟨hblank, rfl⟩ | hc
      · rw [after_blank hblank] at hrest
        -- the segment ends outside quotes, so its quoted parts are read apart from the rest
        have hparted : quotations (current.reverse ++ c :: cs)
            = quotations current.reverse ++ quotations (c :: cs) :=
          quotationsFrom_append h.quote [] (c :: cs)
        rw [segmentsFrom_blank hblank, List.flatMap_append, h.flatMap_quotations,
          ih begun_nil hrest, hparted, quotations_outside (plain_of_isBlank hblank).1]
        rfl
      · rw [segmentsFrom_char hc, ih (h.cons hc) hrest]
        simp

/-- The third scan drops spaces and writes markers outside quotes only. -/
theorem quotedFrom_markCombinatorsFrom {q : Quote} {skip : Bool} (hskip : skip = true → q = none)
    (depth : Nat) (cs : List Char) :
    quotedFrom q (markCombinatorsFrom attaching q depth skip cs) = quotedFrom q cs := by
  induction cs generalizing q depth skip with
  | nil => rfl
  | cons c cs ih =>
      by_cases hdrop : c = ' ' ∧ skip = true
      · obtain ⟨rfl, rfl⟩ := hdrop
        obtain rfl := hskip rfl
        rw [quotedFrom_outside rfl, ← ih (fun _ => rfl) depth]
        rfl
      · have hstay : ¬ (c == ' ' && skip) = true := by simpa using hdrop
        cases q with
        | some opened =>
            rw [markCombinatorsFrom, if_neg hstay, quotedFrom_inside, quotedFrom_inside,
              ih (by simp)]
        | none =>
            rw [markCombinatorsFrom, if_neg hstay]
            cases hc : isQuote c with
            | true => rw [if_pos rfl, quotedFrom_opening hc, quotedFrom_opening hc, ih (by simp)]
            | false =>
                have hkept : ∀ depth skip,
                    quotedFrom none (c :: markCombinatorsFrom attaching none depth skip cs)
                      = quotedFrom none (c :: cs) := by
                  intro depth skip
                  rw [quotedFrom_outside hc, quotedFrom_outside hc, ih fun _ => rfl]
                rw [if_neg (by simp)]
                split_ifs
                · exact hkept _ _
                · exact hkept _ _
                · rw [quotedFrom_outside rfl]
                  exact hkept _ _
                · exact hkept _ _

/-! ## Where the first two scans write into quotes -/

/--
Inside quotes there is no `>`, and no colon where the flag of the second scan, which starts as
`nested`, is down.
-/
def Unspaced (q : Quote) (nested : Bool) (cs : List Char) : Prop :=
  Everywhere (fun before c => q.behind before ≠ none →
    c ≠ '>' ∧ (c = ':' → before.foldl nestedAfter nested = true)) cs

theorem unspaced_cons (q : Quote) (nested : Bool) (c : Char) (cs : List Char) :
    Unspaced q nested (c :: cs)
      ↔ (q ≠ none → c ≠ '>' ∧ (c = ':' → nested = true))
        ∧ Unspaced (q.after c) (nestedAfter nested c) cs := by
  rw [Unspaced, everywhere_cons]
  rfl

theorem unspaced_afterChild (nested : Bool) (rest : List Char) :
    Unspaced none nested (afterChild rest) ↔ Unspaced none nested rest := by
  unfold afterChild
  split
  · have hafter : Quote.after none ' ' = none := rfl
    rw [unspaced_cons, hafter, nestedAfter_plain rfl]
    simp
  · rfl

theorem quotedFrom_afterChild (rest : List Char) :
    quotedFrom none (afterChild rest) = quotedFrom none rest := by
  unfold afterChild
  split
  · exact (quotedFrom_outside rfl _).symm
  · rfl

/-- The first two scans leave the quoted parts alone exactly if they write no space in quotes. -/
theorem quotedFrom_markPseudoFrom_iff {q : Quote} (hq : ∀ o ∈ q, isQuote o = true) (nested : Bool)
    {marked : Bool} (hmarked : marked = true → q = none) (cs : List Char) :
    quotedFrom q (markPseudoFrom nested marked (normalizeChild cs)) = quotedFrom q cs
      ↔ Unspaced q nested cs := by
  induction cs using child_induction generalizing q nested marked with
  | nil => exact iff_of_true rfl (everywhere_nil _)
  | child rest ih =>
      have hafter : q.after '>' = q := Quote.after_of_not_isQuote hq rfl
      rw [normalizeChild_child, markPseudoFrom_child, unspaced_cons, hafter, nestedAfter_plain rfl]
      cases q with
      | none =>
          rw [quotedFrom_outside rfl, quotedFrom_outside rfl, quotedFrom_outside rfl,
            ← quotedFrom_afterChild rest, ih hq nested (by simp), unspaced_afterChild]
          simp
      | some opened =>
          -- the space before `>` stands where the `>` stood
          rw [quotedFrom_inside, quotedFrom_inside]
          exact iff_of_false (by simp) (by simp)
  | char c rest hc ih =>
      rw [normalizeChild_char hc, unspaced_cons]
      by_cases hcolon : c = ':'
      · subst hcolon
        have hafter : q.after ':' = q := Quote.after_of_not_isQuote hq rfl
        rw [markPseudoFrom_colon, hafter, nestedAfter_plain rfl]
        split
        · rename_i hkept
          have hfirst : q ≠ none → nested = true := by
            intro hopen
            have hunmarked : marked = false := by simpa using mt hmarked hopen
            simpa [hunmarked] using hkept
          rw [quotedFrom_cons_eq_iff, hafter, ih hq nested (by simp), iff_and_self]
          exact fun _ hopen => ⟨hc, fun _ => hfirst hopen⟩
        · rename_i hnew
          obtain ⟨rfl, rfl⟩ : nested = false ∧ marked = false := by simpa using hnew
          cases q with
          | none =>
              rw [quotedFrom_outside rfl, quotedFrom_outside rfl, quotedFrom_outside rfl,
                quotedFrom_outside rfl, ih hq false fun _ => rfl]
              simp
          | some opened =>
              rw [quotedFrom_inside, quotedFrom_inside]
              exact iff_of_false (by simp) (by simp)
      · rw [markPseudoFrom_char hcolon, quotedFrom_cons_eq_iff,
          ih (Quote.isQuote_after hq c) _ (by simp)]
        simp [hc, hcolon]

/-! ## Quoted parts of the segments -/

/-- No scan writes or drops a quote, so none is left open in the text that is split at last. -/
theorem flatMap_quotations_pathChars {cs : List Char} (hclosed : Quote.behind none cs = none) :
    (pathChars cs).flatMap quotations
      = quotations (markCombinators attaching (markPseudo (normalizeChild cs))) := by
  have hfilter : (markCombinators attaching (markPseudo (normalizeChild cs))).filter isQuote
      = cs.filter isQuote := by
    rw [markCombinators, filter_markCombinatorsFrom rfl rfl, markPseudo,
      filter_markPseudoFrom rfl rfl, filter_normalizeChild rfl]
  apply flatMap_quotations_segmentsFrom begun_nil
  rw [Quote.behind_eq_of_filter hfilter]
  exact hclosed

/-- A `>` inside quotes gets a space before it. -/
theorem quotation_spaced_out :
    ¬ ∀ s : String, Quote.behind none s.toList = none →
      (path s).flatMap (fun segment => quotations segment.toList) = quotations s.toList := by
  intro h
  have hkept := h "a[title=\"x>y\"]" (by decide +kernel)
  revert hkept
  decide +kernel

/--
**Where quoted parts stay as they are.** Let no quote of a selector be left open. Then the quoted
parts of the segments of its path are those of the selector, in their order, exactly if inside
quotes there is no `>` and no colon, unless the last bracket before the colon is an opening one.
-/
theorem path_quotations_iff {s : String} (hclosed : Quote.behind none s.toList = none) :
    (path s).flatMap (fun segment => quotations segment.toList) = quotations s.toList
      ↔ Everywhere (fun before c => Quote.behind none before ≠ none →
          c ≠ '>' ∧ (c = ':' → endsOpening before = true)) s.toList := by
  calc (path s).flatMap (fun segment => quotations segment.toList) = quotations s.toList
      ↔ (pathChars s.toList).flatMap quotations = quotations s.toList := by
        simp [path, List.flatMap_map]
    _ ↔ quotedFrom none (markCombinators attaching (markPseudo (normalizeChild s.toList)))
          = quotedFrom none s.toList := by
        rw [flatMap_quotations_pathChars hclosed, quotations_eq_iff]
    _ ↔ quotedFrom none (markPseudo (normalizeChild s.toList)) = quotedFrom none s.toList := by
        rw [markCombinators, quotedFrom_markCombinatorsFrom (by simp)]
    _ ↔ Unspaced none false s.toList := quotedFrom_markPseudoFrom_iff (by simp) false (by simp) _
    _ ↔ _ := by simp only [Unspaced, foldl_nestedAfter]

/-- Spaces, a colon, a `+` and the other quote in an attribute, and two quoted parts. -/
theorem path_quotations_sample :
    Quote.behind none "a[title=\"it's  b: +\"]:not([lang='~']) > p".toList = none
      ∧ quotations "a[title=\"it's  b: +\"]:not([lang='~']) > p".toList
        = ["\"it's  b: +\"".toList, "'~'".toList]
      ∧ (path "a[title=\"it's  b: +\"]:not([lang='~']) > p").flatMap
          (fun segment => quotations segment.toList)
        = quotations "a[title=\"it's  b: +\"]:not([lang='~']) > p".toList := by
  have hclosed : Quote.behind none "a[title=\"it's  b: +\"]:not([lang='~']) > p".toList = none := by
    decide +kernel
  refine ⟨hclosed, by decide +kernel, ?_⟩
  exact (path_quotations_iff hclosed).mpr (by decide +kernel)

end Selector

end CssNest
