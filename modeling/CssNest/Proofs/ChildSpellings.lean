import CssNest.Proofs.PseudoClasses
import CssNest.Proofs.SiblingCombinators

/-!
# Spaces around child combinators

The first scan gives the child combinator one spelling, up to the number of spaces before it: it
drops one behind `>` and writes one in front. Whether there was another one in front does not
matter in the end, for one of two reasons. Behind a sibling combinator all spaces are dropped, and
elsewhere two spaces cut a text just as one does, unless they stand in quotes.

What stands before the combinator may be anything in which no quote is left open. So the scans are
followed over a text of which nothing else is known, to a state of which only the quote counts.
-/

namespace CssNest.Selector

open Text

/-! ## The scan for sibling combinators over a first part -/

/-- The scan writes something for each character, and stands in the quote that is open behind it. -/
theorem markCombinatorsFrom_step {q : Quote} (hq : ∀ o ∈ q, isQuote o = true) (depth : Nat)
    (skip : Bool) (c : Char) :
    ∃ written depth' skip', ∀ rest, markCombinatorsFrom attaching q depth skip (c :: rest)
      = written ++ markCombinatorsFrom attaching (q.after c) depth' skip' rest := by
  by_cases hdrop : c = ' ' ∧ skip = true
  · obtain ⟨rfl, rfl⟩ := hdrop
    rw [Quote.after_of_not_isQuote hq rfl]
    exact ⟨[], depth, true, fun _ => by cases q <;> rfl⟩
  · have hstay : ¬ (c == ' ' && skip) = true := by simpa using hdrop
    cases q with
    | some opened =>
        exact ⟨[c], depth, false, fun _ => by rw [markCombinatorsFrom, if_neg hstay]; rfl⟩
    | none =>
        simp only [markCombinatorsFrom, if_neg hstay, Quote.after]
        split_ifs
        · exact ⟨[c], depth, false, fun _ => rfl⟩
        · exact ⟨[c], depth + 1, false, fun _ => rfl⟩
        · exact ⟨[c], depth - 1, false, fun _ => rfl⟩
        · exact ⟨['&', c], depth, true, fun _ => rfl⟩
        · exact ⟨[c], depth, false, fun _ => rfl⟩

theorem markCombinatorsFrom_split {q : Quote} (hq : ∀ o ∈ q, isQuote o = true) (depth : Nat)
    (skip : Bool) (xs : List Char) :
    ∃ depth' skip', ∀ rest, markCombinatorsFrom attaching q depth skip (xs ++ rest)
      = markCombinatorsFrom attaching q depth skip xs
        ++ markCombinatorsFrom attaching (q.behind xs) depth' skip' rest := by
  induction xs generalizing q depth skip with
  | nil => exact ⟨depth, skip, fun _ => rfl⟩
  | cons c xs ih =>
      obtain ⟨written, depth₁, skip₁, hstep⟩ := markCombinatorsFrom_step hq depth skip c
      obtain ⟨depth', skip', hrest⟩ := ih (Quote.isQuote_after hq c) depth₁ skip₁
      refine ⟨depth', skip', ?_⟩
      intro rest
      rw [List.cons_append, hstep, hrest, hstep, List.append_assoc]
      rfl

/-! ## Two spaces in place of one -/

theorem segments_two_spaces {cs : List Char} (hclosed : Quote.behind none cs = none)
    (rest : List Char) :
    segments (cs ++ ' ' :: ' ' :: rest) = segments (cs ++ ' ' :: rest) := by
  rw [segments_append_blank hclosed rfl, segments_append_blank hclosed rfl, segments_space]

/-- Outside quotes the third scan drops a space or keeps it, and the last one is cut by it. -/
theorem segments_markCombinators_two_spaces {cs : List Char}
    (hclosed : Quote.behind none cs = none) (rest : List Char) :
    segments (markCombinators attaching (cs ++ ' ' :: ' ' :: rest))
      = segments (markCombinators attaching (cs ++ ' ' :: rest)) := by
  obtain ⟨depth, skip, hrest⟩ := @markCombinatorsFrom_split none (by simp) 0 false cs
  have hclosed' : Quote.behind none (markCombinators attaching cs) = none := by
    rw [markCombinators, Quote.behind_eq_of_filter (filter_markCombinatorsFrom rfl rfl _ _ _ _ cs)]
    exact hclosed
  rw [markCombinators, markCombinators, hrest, hrest, hclosed]
  cases skip with
  | true => rfl
  | false =>
      have hkept : ∀ rest, markCombinatorsFrom attaching none depth false (' ' :: rest)
          = ' ' :: markCombinatorsFrom attaching none depth false rest :=
        markCombinatorsFrom_plain rfl rfl (fun _ => by decide) (by simp)
      rw [hkept, hkept]
      exact segments_two_spaces hclosed' _

/-- A space has no meaning for pseudo-classes. -/
theorem segments_marked_two_spaces {cs : List Char} (hclosed : Quote.behind none cs = none)
    (rest : List Char) :
    segments (markCombinators attaching (markPseudo (cs ++ ' ' :: ' ' :: rest)))
      = segments (markCombinators attaching (markPseudo (cs ++ ' ' :: rest))) := by
  have hspace : ∀ nested marked rest, markPseudoFrom nested marked (' ' :: rest)
      = ' ' :: markPseudoFrom nested false rest := by
    intro nested marked rest
    rw [markPseudoFrom_char (by decide), nestedAfter_plain rfl]
  have hclosed' : Quote.behind none (markPseudo cs) = none := by
    rw [markPseudo, Quote.behind_eq_of_filter (filter_markPseudoFrom rfl rfl _ _ cs)]
    exact hclosed
  rw [markPseudo_append, markPseudo_append, hspace, hspace, hspace]
  exact segments_markCombinators_two_spaces hclosed' _

/-! ## Paths -/

/-- A space at the end stays, unless a child combinator stands before it. -/
theorem normalizeChild_concat_space (cs : List Char) :
    normalizeChild (cs ++ [' ']) = normalizeChild cs
      ∨ normalizeChild (cs ++ [' ']) = normalizeChild cs ++ [' '] := by
  induction cs using child_induction with
  | nil => exact .inr rfl
  | child rest ih =>
      cases rest with
      | nil => exact .inl rfl
      | cons d rest =>
          have hbehind : afterChild (d :: rest ++ [' ']) = afterChild (d :: rest) ++ [' '] := by
            by_cases hd : d = ' '
            · subst hd
              rfl
            · rw [afterChild_eq_self (by simpa using hd), afterChild_eq_self (by simpa using hd)]
          rw [List.cons_append, normalizeChild_child, normalizeChild_child, hbehind]
          rcases ih with h | h
          · exact .inl (by rw [h])
          · exact .inr (by rw [h]; rfl)
  | char c rest hc ih =>
      rw [List.cons_append, normalizeChild_char hc, normalizeChild_char hc]
      rcases ih with h | h
      · exact .inl (by rw [h])
      · exact .inr (by rw [h]; rfl)

/-- A space before a child combinator makes no difference. -/
theorem pathChars_space_before_child {cs : List Char} (hclosed : Quote.behind none cs = none)
    (rest : List Char) : pathChars (cs ++ ' ' :: '>' :: rest) = pathChars (cs ++ '>' :: rest) := by
  have hclosed' : Quote.behind none (normalizeChild cs) = none := by
    rw [Quote.behind_eq_of_filter (filter_normalizeChild rfl cs)]
    exact hclosed
  have hwith : normalizeChild (cs ++ ' ' :: '>' :: rest)
      = normalizeChild (cs ++ [' ']) ++ ' ' :: '>' :: normalizeChild (afterChild rest) := by
    rw [← normalizeChild_child, ← normalizeChild_append (by decide), List.append_assoc]
    rfl
  have hwithout : normalizeChild (cs ++ '>' :: rest)
      = normalizeChild cs ++ ' ' :: '>' :: normalizeChild (afterChild rest) := by
    rw [← normalizeChild_child, ← normalizeChild_append (by decide)]
  rw [pathChars, pathChars, hwith, hwithout]
  rcases normalizeChild_concat_space cs with h | h
  · rw [h]
  · rw [h, List.append_assoc]
    exact segments_marked_two_spaces hclosed' _

/--
**The spelling of a child combinator does not matter.** If no quote is left open before it and no
space follows the one that may stand behind it, the path is the same with a space on either side,
on both and on none.
-/
theorem path_child_spellings {x y : String} (hx : Quote.behind none x.toList = none)
    (hy : y.toList.head? ≠ some ' ') :
    path (x ++ " >" ++ y) = path (x ++ ">" ++ y)
      ∧ path (x ++ "> " ++ y) = path (x ++ ">" ++ y)
      ∧ path (x ++ " > " ++ y) = path (x ++ ">" ++ y) := by
  have hbefore := pathChars_space_before_child hx
  have hbehind := pathChars_space_behind_child x.toList hy
  have hwithout : path (x ++ ">" ++ y)
      = (pathChars (x.toList ++ '>' :: y.toList)).map String.ofList := by
    simp [path]
  refine ⟨?_, ?_, ?_⟩
  · rw [hwithout, ← hbefore]
    simp [path]
  · rw [hwithout, ← hbehind]
    simp [path]
  · rw [hwithout, ← hbehind, ← hbefore]
    simp [path]

/-- The `>` comes right behind a sibling combinator, and behind it a quote is left open. -/
theorem path_child_spellings_sample :
    Quote.behind none "a[b=' ']:hover+".toList = none
      ∧ "c>'d".toList.head? ≠ some ' '
      ∧ path ("a[b=' ']:hover+" ++ ">" ++ "c>'d") = ["a[b=' ']", "&:hover&+>c", ">'d"]
      ∧ path ("a[b=' ']:hover+" ++ " > " ++ "c>'d") = ["a[b=' ']", "&:hover&+>c", ">'d"] := by
  have hx : Quote.behind none "a[b=' ']:hover+".toList = none := by decide +kernel
  have hy : "c>'d".toList.head? ≠ some ' ' := by decide +kernel
  have hpath : path ("a[b=' ']:hover+" ++ ">" ++ "c>'d")
      = ["a[b=' ']", "&:hover&+>c", ">'d"] := by decide +kernel
  refine ⟨hx, hy, hpath, ?_⟩
  rw [(path_child_spellings hx hy).2.2, hpath]

end CssNest.Selector
