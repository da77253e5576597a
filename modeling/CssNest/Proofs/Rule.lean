import CssNest.Rule

/-!
# Rule extraction, one token at a time

Extraction looks closely at four tokens only, those that open or close a ruleset or an
`@media` block. Every other token goes where the last of these has left it: to the open
rule, or to the tokens outside rules.
-/

namespace CssNest

/-- Whether the token opens or closes a ruleset or an `@media` block. -/
def Token.isBoundary : Token → Bool
  | .rulesetStart _ | .rulesetEnd | .mediaStart _ | .mediaEnd => true
  | _ => false

namespace Extraction

@[simp] theorem topLevel_append (a b : Extraction) :
    (a ++ b).topLevel = a.topLevel ++ b.topLevel := rfl

@[simp] theorem rules_append (a b : Extraction) : (a ++ b).rules = a.rules ++ b.rules := rfl

@[simp] theorem records_append (a b : Extraction) :
    (a ++ b).records = a.records ++ b.records := rfl

theorem append_assoc (a b c : Extraction) : a ++ b ++ c = a ++ (b ++ c) := by
  show Extraction.mk _ _ _ = Extraction.mk _ _ _
  simp

end Extraction

namespace Rule

@[simp] theorem extractFrom_mediaStart (opened : Option Rule) (queries : List String)
    (rest : List Token) :
    extractFrom opened (.mediaStart queries :: rest) = extractFrom opened rest := by
  cases opened <;> rfl

@[simp] theorem extractFrom_mediaEnd (opened : Option Rule) (rest : List Token) :
    extractFrom opened (.mediaEnd :: rest) = extractFrom opened rest := by
  cases opened <;> rfl

@[simp] theorem extractFrom_rulesetStart (opened : Option Rule) (selectors : List String)
    (rest : List Token) :
    extractFrom opened (.rulesetStart selectors :: rest)
      = { records := opened.toList.map neverClosed }
        ++ extractFrom (some ⟨selectors, []⟩) rest := by
  cases opened <;> rfl

@[simp] theorem extractFrom_some_rulesetEnd (r : Rule) (rest : List Token) :
    extractFrom (some r) (.rulesetEnd :: rest) = { rules := [r] } ++ extractFrom none rest := rfl

@[simp] theorem extractFrom_none_rulesetEnd (rest : List Token) :
    extractFrom none (.rulesetEnd :: rest)
      = { records := [unmatchedEnd] } ++ extractFrom none rest := rfl

/-- Inside a ruleset any other token goes to the rule. -/
theorem extractFrom_some_inner {t : Token} (h : t.isBoundary = false) (r : Rule)
    (rest : List Token) :
    extractFrom (some r) (t :: rest) = extractFrom (some ⟨r.selectors, r.body ++ [t]⟩) rest := by
  cases t with
  | rulesetStart selectors => exact absurd h (by simp [Token.isBoundary])
  | rulesetEnd => exact absurd h (by simp [Token.isBoundary])
  | mediaStart queries => exact absurd h (by simp [Token.isBoundary])
  | mediaEnd => exact absurd h (by simp [Token.isBoundary])
  | _ => rfl

/-- Outside rulesets any other token stays outside. -/
theorem extractFrom_none_inner {t : Token} (h : t.isBoundary = false) (rest : List Token) :
    extractFrom none (t :: rest) = { topLevel := [t] } ++ extractFrom none rest := by
  cases t with
  | rulesetStart selectors => exact absurd h (by simp [Token.isBoundary])
  | rulesetEnd => exact absurd h (by simp [Token.isBoundary])
  | mediaStart queries => exact absurd h (by simp [Token.isBoundary])
  | mediaEnd => exact absurd h (by simp [Token.isBoundary])
  | _ => rfl

/-- A run of tokens inside a ruleset goes to the rule as a whole. -/
theorem extractFrom_some_body {body : List Token} (h : ∀ t ∈ body, t.isBoundary = false)
    (r : Rule) (rest : List Token) :
    extractFrom (some r) (body ++ rest)
      = extractFrom (some ⟨r.selectors, r.body ++ body⟩) rest := by
  induction body generalizing r with
  | nil => rw [List.nil_append, List.append_nil]
  | cons t body ih =>
      rw [List.cons_append, extractFrom_some_inner (h t (by simp)),
        ih fun u hu => h u (List.mem_cons_of_mem _ hu)]
      simp

/-- A run of tokens outside rulesets stays outside as a whole. -/
theorem extractFrom_none_body {body : List Token} (h : ∀ t ∈ body, t.isBoundary = false)
    (rest : List Token) :
    extractFrom none (body ++ rest) = { topLevel := body } ++ extractFrom none rest := by
  induction body with
  | nil => rfl
  | cons t body ih =>
      rw [List.cons_append, extractFrom_none_inner (h t (by simp)),
        ih fun u hu => h u (List.mem_cons_of_mem _ hu), ← Extraction.append_assoc]
      rfl

end Rule

end CssNest
