import CssNest.Proofs.Brackets

/-!
# Which colons are marked

A pseudo-class is marked outside brackets, and the argument of a functional one is to be left
alone, however deep it nests. The scan has one flag for all depths, which the first closing bracket
clears. So the second colon of `:not(:is(b):hover)` is left alone, and the third one is marked,
although it stands between the same brackets.

Outside brackets the flag is always right: where all brackets are closed, the last one is a closing
one. Inside it is right as long as that one is an opening one.
-/

namespace CssNest.Selector

open Text

/-! ## Markers by place -/

/-- A text with ` &` before each colon for which `p` holds of what stands before it. -/
def markWhere (p : List Char → Bool) : List Char → List Char
  | [] => []
  | c :: rest =>
    (if c == ':' && p [] then [' ', '&', c] else [c])
      ++ markWhere (fun before => p (c :: before)) rest

theorem markWhere_char {c : Char} (hc : c ≠ ':') (p : List Char → Bool) (cs : List Char) :
    markWhere p (c :: cs) = c :: markWhere (fun before => p (c :: before)) cs := by
  simp [markWhere, hc]

theorem markWhere_colon (p : List Char → Bool) (cs : List Char) :
    markWhere p (':' :: cs)
      = (if p [] then [' ', '&', ':'] else [':'])
        ++ markWhere (fun before => p (':' :: before)) cs := rfl

/-- Markers in two texts are the same exactly if they are at the same colons. -/
theorem markWhere_eq_iff {p q : List Char → Bool} {cs : List Char} :
    markWhere p cs = markWhere q cs
      ↔ Everywhere (fun before c => c = ':' → p before = q before) cs := by
  induction cs generalizing p q with
  | nil => exact iff_of_true rfl (everywhere_nil _)
  | cons c cs ih =>
      rw [everywhere_cons, ← ih]
      by_cases hc : c = ':'
      · subst hc
        rw [markWhere_colon, markWhere_colon]
        -- where only one of the two has a marker, a space stands against a colon
        cases p [] <;> cases q [] <;> simp
      · rw [markWhere_char hc, markWhere_char hc]
        simp [hc]

theorem markWhere_append (p : List Char → Bool) (xs ys : List Char) :
    markWhere p (xs ++ ys) = markWhere p xs ++ markWhere (fun before => p (xs ++ before)) ys := by
  induction xs generalizing p with
  | nil => rfl
  | cons c xs ih =>
      rw [List.cons_append, markWhere, ih, markWhere, List.append_assoc]
      rfl

/-! ## Colons in a row -/

/--
Whether a colon behind a text is the second one of a `::`. Colons in a row are paired from the
left.
-/
def secondColon (cs : List Char) : Bool := (cs.reverse.takeWhile (· == ':')).length % 2 == 1

theorem secondColon_concat (cs : List Char) (c : Char) :
    secondColon (cs ++ [c]) = (c == ':' && !secondColon cs) := by
  rw [secondColon, List.reverse_append, List.reverse_singleton, List.singleton_append,
    List.takeWhile_cons]
  cases c == ':' with
  | false => rfl
  | true =>
      rw [if_pos rfl, List.length_cons, Bool.true_and, secondColon, Bool.eq_iff_iff]
      simp only [beq_iff_eq, Bool.not_eq_true', beq_eq_false_iff_ne]
      omega

/-- The colon before a second one is a first one. -/
theorem exists_of_secondColon {cs : List Char} (h : secondColon cs = true) :
    ∃ before, cs = before ++ [':'] ∧ secondColon before = false := by
  cases cs using List.reverseRecOn with
  | nil => exact absurd h (by decide)
  | append_singleton before c =>
      rw [secondColon_concat, Bool.and_eq_true, beq_iff_eq, Bool.not_eq_true'] at h
      exact ⟨before, by rw [h.1], h.2⟩

/-! ## The flag of the scan -/

theorem endsOpening_concat (cs : List Char) (c : Char) :
    endsOpening (cs ++ [c]) = nestedAfter (endsOpening cs) c := by
  rw [← foldl_nestedAfter, ← foldl_nestedAfter, List.foldl_append]
  rfl

/--
The scan keeps two things in mind of the text in `front`: its last bracket, and whether it has just
marked a colon. It has if the colons right before are odd in number and the flag is down.
-/
theorem markPseudoFrom_eq_markWhere (front cs : List Char) :
    markPseudoFrom (endsOpening front) (!endsOpening front && secondColon front) cs
      = markWhere (fun before => !endsOpening (front ++ before) && !secondColon (front ++ before))
          cs := by
  induction cs generalizing front with
  | nil => rfl
  | cons c cs ih =>
      have hlater := ih (front ++ [c])
      rw [endsOpening_concat, secondColon_concat] at hlater
      simp only [List.append_assoc, List.singleton_append] at hlater
      by_cases hc : c = ':'
      · subst hc
        rw [nestedAfter_plain rfl] at hlater
        rw [markPseudoFrom_colon, markWhere_colon, ← hlater, List.append_nil]
        cases endsOpening front <;> cases secondColon front <;> rfl
      · rw [beq_false_of_ne hc, Bool.false_and, Bool.and_false] at hlater
        rw [markPseudoFrom_char hc, markWhere_char hc, hlater]

/-- A colon is marked unless it is the second of a `::` or the last bracket is an opening one. -/
theorem markPseudo_eq_markWhere (cs : List Char) :
    markPseudo cs = markWhere (fun before => !endsOpening before && !secondColon before) cs :=
  markPseudoFrom_eq_markWhere [] cs

/-- Behind any text the scan goes on with what it keeps in mind of it. -/
theorem markPseudo_append (xs ys : List Char) :
    markPseudo (xs ++ ys)
      = markPseudo xs
        ++ markPseudoFrom (endsOpening xs) (!endsOpening xs && secondColon xs) ys := by
  rw [markPseudo_eq_markWhere, markWhere_append, ← markPseudo_eq_markWhere,
    ← markPseudoFrom_eq_markWhere]

/-! ## Depth of brackets -/

/-- How many brackets are open behind a text. -/
def bracketDepth (cs : List Char) : Nat :=
  cs.countP (fun c => c == '(' || c == '[') - cs.countP (fun c => c == ')' || c == ']')

theorem bracketDepth_concat_colon (cs : List Char) :
    bracketDepth (cs ++ [':']) = bracketDepth cs := by
  simp [bracketDepth]

/-- Every bracket that was opened has been closed or is owed. -/
theorem length_owed_add {owed owed' cs : List Char} (h : owedBehind owed cs = some owed') :
    owed'.length + cs.countP (fun c => c == ')' || c == ']')
      = owed.length + cs.countP (fun c => c == '(' || c == '[') := by
  induction cs generalizing owed with
  | nil =>
      obtain rfl : owed = owed' := Option.some.inj h
      rfl
  | cons c cs ih =>
      obtain ⟨next, hnext, hrest⟩ := exists_owedAfter h
      have hlater := ih hrest
      rcases owedAfter_cases hnext with ⟨hplain, rfl⟩ | ⟨hopen, due, rfl⟩ | ⟨hclose, rfl⟩
      · obtain ⟨h1, h2, h3, h4⟩ := isBracket_eq_false_iff.mp hplain
        simpa [List.countP_cons, h1, h2, h3, h4] using hlater
      · rw [List.length_cons] at hlater
        rcases hopen with rfl | rfl <;> simp <;> omega
      · rw [List.length_cons]
        rcases hclose with rfl | rfl <;> simp <;> omega

/-- While the flag is up, a bracket is owed. -/
theorem owed_ne_nil_of_nested {owed owed' cs : List Char} {nested : Bool}
    (hnested : nested = true → owed ≠ []) (h : owedBehind owed cs = some owed')
    (hflag : cs.foldl nestedAfter nested = true) : owed' ≠ [] := by
  induction cs generalizing owed nested with
  | nil =>
      obtain rfl : owed = owed' := Option.some.inj h
      exact hnested hflag
  | cons c cs ih =>
      obtain ⟨next, hnext, hrest⟩ := exists_owedAfter h
      refine ih ?_ hrest hflag
      rcases owedAfter_cases hnext with ⟨hplain, rfl⟩ | ⟨hopen, due, rfl⟩ | ⟨hclose, rfl⟩
      · rwa [nestedAfter_plain hplain]
      · simp
      · rcases hclose with rfl | rfl <;> simp [nestedAfter]

/-- Where all brackets are closed, the last one is a closing one. -/
theorem WellBracketed.endsOpening_of_depth {before rest : List Char}
    (h : WellBracketed (before ++ rest)) (hdepth : bracketDepth before = 0) :
    endsOpening before = false := by
  obtain ⟨owed, howed⟩ : ∃ owed, owedBehind [] before = some owed := by
    rw [WellBracketed, owedBehind, List.foldlM_append] at h
    obtain ⟨owed, howed, -⟩ := Option.bind_eq_some_iff.mp h
    exact ⟨owed, howed⟩
  have hcount := length_owed_add howed
  rw [List.length_nil, Nat.zero_add] at hcount
  have hnone : owed.length = 0 := by
    rw [bracketDepth] at hdepth
    omega
  rw [Bool.eq_false_iff, ← foldl_nestedAfter]
  intro hflag
  exact owed_ne_nil_of_nested (by simp) howed hflag (List.length_eq_zero_iff.mp hnone)

/-! ## Marked colons in nested brackets -/

/-- A colon inside brackets is marked, because another pair in them is closed before it. -/
theorem nested_colon_marked :
    ¬ ∀ cs : List Char, (∀ c ∈ cs, isQuote c = false) → WellBracketed cs →
      markPseudo cs
        = markWhere (fun before => bracketDepth before == 0 && !secondColon before) cs := by
  intro h
  have hquotes : ("a:not(:is(b):hover)".toList.all fun c => !isQuote c) = true := by decide +kernel
  have hmarked := h "a:not(:is(b):hover)".toList (by simpa using hquotes) (by decide +kernel)
  revert hmarked
  decide +kernel

/--
**Which colons are marked.** In a selector whose brackets are balanced and properly nested, a colon
outside brackets is marked exactly if it is not the second one of a `::`. Inside brackets the same
holds of those colons whose last bracket before them is a closing one, and all others are left
alone. So only colons outside brackets are marked, as they should be, exactly if for every colon
inside brackets the last bracket before it is an opening one.
-/
theorem markPseudo_outside_iff {cs : List Char} (h : WellBracketed cs) :
    markPseudo cs
        = markWhere (fun before => (bracketDepth before == 0 || !endsOpening before)
            && !secondColon before) cs
      ∧ (markPseudo cs
          = markWhere (fun before => bracketDepth before == 0 && !secondColon before) cs
        ↔ Everywhere (fun before c => c = ':' → 0 < bracketDepth before →
            endsOpening before = true) cs) := by
  have hclosed : Everywhere (fun before _ => bracketDepth before = 0 →
      endsOpening before = false) cs := by
    intro before c after hcs
    rw [hcs] at h
    exact h.endsOpening_of_depth
  rw [markPseudo_eq_markWhere, markWhere_eq_iff, markWhere_eq_iff]
  refine ⟨?_, ?_, ?_⟩
  · intro before c after hcs _
    by_cases hzero : bracketDepth before = 0
    · simp [hzero, hclosed before c after hcs hzero]
    · simp [beq_false_of_ne hzero]
  · intro hsame before c after hcs hc hopen
    subst hc
    have hdepth : (bracketDepth before == 0) = false := beq_false_of_ne (by omega)
    cases hsecond : secondColon before with
    | false =>
        have heq := hsame before ':' after hcs rfl
        simpa [hsecond, hdepth] using heq
    | true =>
        -- the colon before it stands at the same depth behind the same brackets
        obtain ⟨front, rfl, hfirst⟩ := exists_of_secondColon hsecond
        rw [bracketDepth_concat_colon] at hdepth
        have heq := hsame front ':' (':' :: after) (by rw [hcs]; simp) rfl
        rw [endsOpening_concat, nestedAfter_plain rfl]
        simpa [hfirst, hdepth] using heq
  · intro hinside before c after hcs hc
    by_cases hzero : bracketDepth before = 0
    · simp [hzero, hclosed before c after hcs hzero]
    · have hopening := hinside before c after hcs hc (by omega)
      simp [beq_false_of_ne hzero, hopening]

/-- Brackets side by side and in one another, with colons right behind opening ones. -/
theorem markPseudo_outside_sample :
    WellBracketed "a:is([b]):not(:is(::c)):d::e".toList
      ∧ String.ofList (markPseudo "a:is([b]):not(:is(::c)):d::e".toList)
        = "a &:is([b]) &:not(:is(::c)) &:d &::e"
      ∧ markPseudo "a:is([b]):not(:is(::c)):d::e".toList
        = markWhere (fun before => bracketDepth before == 0 && !secondColon before)
            "a:is([b]):not(:is(::c)):d::e".toList := by
  have hbrackets : WellBracketed "a:is([b]):not(:is(::c)):d::e".toList := by decide +kernel
  refine ⟨hbrackets, by decide +kernel, ?_⟩
  exact (markPseudo_outside_iff hbrackets).2.mpr (by decide +kernel)

end CssNest.Selector
