import CssNest.Proofs.Rule

/-!
# Where extraction puts each token

Extraction reads a stream once and holds at most one rule open, which it keeps or throws away
depending on a token that may be far ahead. Here is the same from above: where a token goes
is decided by the nearest tokens before and behind it that open or close a ruleset, its
*fences*.

* If there is no fence before it, or one that closes a ruleset, the token stays outside.
* If the fence before it opens a ruleset and the one behind it closes one, it belongs to that
  ruleset.
* Otherwise its ruleset is never closed, and the token is dropped.

Positions count from the start of the stream, so the proof follows a run with the part that
was read, `before`, and the part still to come, `after`. Two facts carry it: what a rule that
is open collects is what comes before the next fence (`rules_extractFrom`), and these are the
tokens whose nearest fence is the one that opened it (`filter_spot_rule`).
-/

namespace CssNest

namespace Token

/-- Whether the token opens or closes a ruleset. -/
def isFence : Token → Bool
  | .rulesetStart _ | .rulesetEnd => true
  | _ => false

/-- Whether the token opens or closes an `@media` block. -/
def isMedia : Token → Bool
  | .mediaStart _ | .mediaEnd => true
  | _ => false

/-- Extraction tells four kinds of tokens apart. -/
theorem fence_cases (t : Token) :
    (∃ selectors, t = .rulesetStart selectors) ∨ t = .rulesetEnd
      ∨ (t.isMedia = true ∧ t.isBoundary = true ∧ t.isFence = false)
      ∨ (t.isMedia = false ∧ t.isBoundary = false ∧ t.isFence = false) := by
  cases t with
  | rulesetStart selectors => exact .inl ⟨selectors, rfl⟩
  | rulesetEnd => exact .inr (.inl rfl)
  | mediaStart queries => exact .inr (.inr (.inl ⟨rfl, rfl, rfl⟩))
  | mediaEnd => exact .inr (.inr (.inl ⟨rfl, rfl, rfl⟩))
  | _ => exact .inr (.inr (.inr ⟨rfl, rfl, rfl⟩))

theorem isBoundary_of_isFence {t : Token} (h : t.isFence = true) : t.isBoundary = true := by
  rcases fence_cases t with ⟨selectors, rfl⟩ | rfl | ⟨_, hb, _⟩ | ⟨_, _, hf⟩
  · rfl
  · rfl
  · exact hb
  · exact absurd h (by simp [hf])

end Token

namespace Rule

/-- The ends of `@media` blocks are passed over. -/
theorem extractFrom_media {t : Token} (h : t.isMedia = true) (opened : Option Rule)
    (rest : List Token) : extractFrom opened (t :: rest) = extractFrom opened rest := by
  cases t with
  | mediaStart queries => exact extractFrom_mediaStart opened queries rest
  | mediaEnd => exact extractFrom_mediaEnd opened rest
  | _ => exact absurd h (by simp [Token.isMedia])

/-! ## Fences and spots -/

/-- The nearest fence before a position, with its own position. -/
def fenceBefore (tokens : List Token) (i : Nat) : Option (Token × Nat) :=
  (tokens.zipIdx.take i).reverse.find? fun e => e.1.isFence

/-- The nearest fence behind a position, with its own position. -/
def fenceAfter (tokens : List Token) (i : Nat) : Option (Token × Nat) :=
  (tokens.zipIdx.drop (i + 1)).find? fun e => e.1.isFence

/-- Whether there is a fence, and it closes a ruleset. -/
def closes : Option (Token × Nat) → Bool
  | some (.rulesetEnd, _) => true
  | _ => false

/-- What becomes of a token. -/
inductive Spot where
  | outside
  /-- Part of the rule that the token at `start` opens. -/
  | rule (start : Nat)
  | dropped
deriving DecidableEq, Repr

/-- What becomes of the token at a position, as its fences tell. -/
def spot (tokens : List Token) (i : Nat) : Spot :=
  match fenceBefore tokens i with
  | some (.rulesetStart _, start) =>
    if closes (fenceAfter tokens i) then .rule start else .dropped
  | _ => .outside

/-- The tokens of one spot, each once, in the order of the stream. -/
def tokensAt (tokens : List Token) (s : Spot) : List Token :=
  (tokens.zipIdx.filter fun e => !e.1.isBoundary && spot tokens e.2 == s).map Prod.fst

/-- The rule that a token opens, if the next fence closes it. -/
def ruleAt? (tokens : List Token) (e : Token × Nat) : Option Rule :=
  match e.1 with
  | .rulesetStart selectors =>
    if closes (fenceAfter tokens e.2) then some ⟨selectors, tokensAt tokens (.rule e.2)⟩ else none
  | _ => none

theorem ruleAt?_of_not_fence {t : Token} (h : t.isFence = false) (tokens : List Token) (i : Nat) :
    ruleAt? tokens (t, i) = none := by
  cases t with
  | rulesetStart selectors => exact absurd h (by simp [Token.isFence])
  | _ => rfl

/-! ## A stream in two parts -/

section Split

variable {tokens : List Token} {before after : List (Token × Nat)}

/-- The last fence of the part that was read. -/
def lastFence (before : List (Token × Nat)) : Option (Token × Nat) :=
  before.reverse.find? fun e => e.1.isFence

/-- Whether there is a fence, and it opens a ruleset. -/
def opens : Option (Token × Nat) → Bool
  | some (.rulesetStart _, _) => true
  | _ => false

/-- Whether there is a fence, and it opens the ruleset at `start`. -/
def opensAt (start : Nat) : Option (Token × Nat) → Bool
  | some (.rulesetStart _, i) => i == start
  | _ => false

theorem position_of_opensAt {start : Nat} {e : Token × Nat} (h : opensAt start (some e) = true) :
    e.2 = start := by
  obtain ⟨t, i⟩ := e
  cases t with
  | rulesetStart selectors => exact beq_iff_eq.mp h
  | _ => exact absurd h (by simp [opensAt])

theorem lastFence_concat_fence {e : Token × Nat} (h : e.1.isFence = true) :
    lastFence (before ++ [e]) = some e := by
  unfold lastFence
  rw [List.reverse_append, List.reverse_singleton, List.singleton_append, List.find?_cons, h]

theorem lastFence_concat_other {e : Token × Nat} (h : e.1.isFence = false) :
    lastFence (before ++ [e]) = lastFence before := by
  unfold lastFence
  rw [List.reverse_append, List.reverse_singleton, List.singleton_append, List.find?_cons, h]

/-- Each token carries its own position. -/
theorem position_of_getElem? {k : Nat} {e : Token × Nat} (h : tokens.zipIdx[k]? = some e) :
    e.2 = k := by
  rw [List.getElem?_zipIdx] at h
  obtain ⟨t, _, ht⟩ := Option.map_eq_some_iff.mp h
  rw [← ht]
  exact Nat.zero_add k

/-- The position of a token is the number of tokens before it. -/
theorem position_of_split {e : Token × Nat} (h : tokens.zipIdx = before ++ e :: after) :
    e.2 = before.length := by
  have hget : tokens.zipIdx[before.length]? = some e := by
    rw [h, List.getElem?_append_right (Nat.le_refl _), Nat.sub_self, List.getElem?_cons_zero]
  exact position_of_getElem? hget

theorem fenceBefore_of_split {e : Token × Nat} (h : tokens.zipIdx = before ++ e :: after) :
    fenceBefore tokens e.2 = lastFence before := by
  unfold fenceBefore lastFence
  rw [position_of_split h, h, List.take_left]

theorem fenceAfter_of_split {e : Token × Nat} (h : tokens.zipIdx = before ++ e :: after) :
    fenceAfter tokens e.2 = after.find? fun e => e.1.isFence := by
  unfold fenceAfter
  rw [position_of_split h, h, ← List.drop_drop, List.drop_left, List.drop_one, List.tail_cons]

/-- One token further. -/
theorem split_concat {e : Token × Nat} (h : tokens.zipIdx = before ++ e :: after) :
    tokens.zipIdx = before ++ [e] ++ after := by
  rw [h, List.append_assoc, List.singleton_append]

end Split

theorem spot_eq_outside (tokens : List Token) (i : Nat) :
    (spot tokens i == .outside) = !opens (fenceBefore tokens i) := by
  unfold spot opens
  split
  · split <;> rfl
  · rfl

theorem spot_eq_rule (tokens : List Token) (i start : Nat) :
    (spot tokens i == .rule start)
      = (opensAt start (fenceBefore tokens i) && closes (fenceAfter tokens i)) := by
  unfold spot opensAt
  split
  · rename_i j _
    cases closes (fenceAfter tokens i) with
    | true =>
        rw [if_pos rfl, Bool.and_true, Bool.eq_iff_iff, beq_iff_eq, beq_iff_eq, Spot.rule.injEq]
    | false =>
        rw [Bool.and_false]
        rfl
  · rfl

/-! ## Tokens outside rules -/

/-- What is read from here on stays outside exactly if its last fence opens nothing. -/
theorem topLevel_extractFrom {tokens : List Token} {before after : List (Token × Nat)}
    (h : tokens.zipIdx = before ++ after) (opened : Option Rule)
    (ho : opened.isSome = opens (lastFence before)) :
    (extractFrom opened (after.map Prod.fst)).topLevel
      = (after.filter fun e => !e.1.isBoundary && spot tokens e.2 == .outside).map Prod.fst := by
  induction after generalizing before opened with
  | nil => rfl
  | cons e after ih =>
      have hnext := split_concat h
      have hspot := spot_eq_outside tokens e.2
      rw [fenceBefore_of_split h, ← ho] at hspot
      rw [List.map_cons, List.filter_cons, hspot]
      obtain ⟨t, i⟩ := e
      rcases Token.fence_cases t with ⟨selectors, rfl⟩ | rfl | ⟨hm, hb, hf⟩ | ⟨hm, hb, hf⟩
      · have hlast : opens (lastFence (before ++ [(.rulesetStart selectors, i)])) = true := by
          rw [lastFence_concat_fence rfl]
          rfl
        rw [extractFrom_rulesetStart, Extraction.topLevel_append, ih hnext _ (by rw [hlast]; rfl)]
        rfl
      · have hlast : opens (lastFence (before ++ [(.rulesetEnd, i)])) = false := by
          rw [lastFence_concat_fence rfl]
          rfl
        have hrest := ih hnext none (by rw [hlast]; rfl)
        cases opened with
        | none =>
            rw [extractFrom_none_rulesetEnd, Extraction.topLevel_append, hrest]
            rfl
        | some r =>
            rw [extractFrom_some_rulesetEnd, Extraction.topLevel_append, hrest]
            rfl
      · have hrest := ih hnext opened (by rw [lastFence_concat_other hf]; exact ho)
        rw [extractFrom_media hm, hrest, hb]
        rfl
      · cases opened with
        | none =>
            have hrest := ih hnext none (by rw [lastFence_concat_other hf]; exact ho)
            rw [extractFrom_none_inner hb, Extraction.topLevel_append, hrest, hb]
            rfl
        | some r =>
            have hrest := ih hnext (some ⟨r.selectors, r.body ++ [t]⟩)
              (by rw [lastFence_concat_other hf]; exact ho)
            rw [extractFrom_some_inner hb, hrest, hb]
            rfl

/-! ## Rules -/

/-- The tokens before the next fence that a rule collects. -/
def untilFence (after : List (Token × Nat)) : List Token :=
  ((after.takeWhile fun e => !e.1.isFence).filter fun e => !e.1.isBoundary).map Prod.fst

theorem untilFence_fence {e : Token × Nat} (h : e.1.isFence = true) (after : List (Token × Nat)) :
    untilFence (e :: after) = [] := by
  simp [untilFence, h]

theorem untilFence_media {e : Token × Nat} (hf : e.1.isFence = false)
    (hb : e.1.isBoundary = true) (after : List (Token × Nat)) :
    untilFence (e :: after) = untilFence after := by
  simp [untilFence, hf, hb]

theorem untilFence_inner {e : Token × Nat} (hf : e.1.isFence = false)
    (hb : e.1.isBoundary = false) (after : List (Token × Nat)) :
    untilFence (e :: after) = e.1 :: untilFence after := by
  simp [untilFence, hf, hb]

/--
From here on, the tokens of the rule opened at `start` are those before the next fence, if
that rule is the one still open and the fence closes it; otherwise there are none.
-/
theorem filter_spot_rule {tokens : List Token} {before after : List (Token × Nat)}
    (h : tokens.zipIdx = before ++ after) {start : Nat} (hstart : start < before.length) :
    (after.filter fun e => !e.1.isBoundary && spot tokens e.2 == .rule start).map Prod.fst
      = if opensAt start (lastFence before) && closes (after.find? fun e => e.1.isFence) then
          untilFence after
        else [] := by
  induction after generalizing before with
  | nil => simp [untilFence]
  | cons e after ih =>
      have hnext := split_concat h
      have hlen : start < (before ++ [e]).length := by
        rw [List.length_append]
        omega
      have hrest := ih hnext hlen
      have hspot := spot_eq_rule tokens e.2 start
      rw [fenceBefore_of_split h, fenceAfter_of_split h] at hspot
      rw [List.filter_cons, hspot, List.find?_cons]
      cases hf : e.1.isFence with
      | true =>
          -- behind this fence no token belongs to a ruleset opened before it
          have hother : opensAt start (some e) = false := by
            rw [Bool.eq_false_iff]
            intro hopen
            have hpos := position_of_split h
            have hstart := position_of_opensAt hopen
            omega
          rw [lastFence_concat_fence hf, hother, Bool.false_and, if_neg (by simp)] at hrest
          rw [Token.isBoundary_of_isFence hf, Bool.not_true, Bool.false_and, if_neg (by simp),
            hrest, untilFence_fence hf, ite_self]
      | false =>
          rw [lastFence_concat_other hf] at hrest
          cases hb : e.1.isBoundary with
          | true =>
              rw [Bool.not_true, Bool.false_and, if_neg (by simp), untilFence_media hf hb]
              exact hrest
          | false =>
              rw [Bool.not_false, Bool.true_and, untilFence_inner hf hb]
              dsimp only
              split
              · rename_i hc
                rw [if_pos hc] at hrest
                rw [List.map_cons, hrest]
              · rename_i hc
                rw [if_neg hc] at hrest
                exact hrest

/-- The fence before a position stands before it. -/
theorem lt_of_fenceBefore {tokens : List Token} {i : Nat} {e : Token × Nat}
    (h : fenceBefore tokens i = some e) : e.2 < i := by
  have hmem := List.mem_of_find?_eq_some h
  rw [List.mem_reverse, List.mem_iff_getElem?] at hmem
  obtain ⟨k, hk⟩ := hmem
  rw [List.getElem?_take] at hk
  split at hk
  · rename_i hlt
    rw [position_of_getElem? hk]
    exact hlt
  · exact absurd hk (by simp)

/-- A rule that is closed has the tokens before the next fence. -/
theorem tokensAt_rule {tokens : List Token} {before after : List (Token × Nat)}
    {selectors : List String} {i : Nat}
    (h : tokens.zipIdx = before ++ (.rulesetStart selectors, i) :: after)
    (hc : closes (after.find? fun e => e.1.isFence) = true) :
    tokensAt tokens (.rule i) = untilFence after := by
  have hpos : i = before.length := position_of_split h
  -- tokens before the ruleset have their fence before them
  have hbefore : (before.filter fun e => !e.1.isBoundary && spot tokens e.2 == .rule i) = [] := by
    rw [List.filter_eq_nil_iff]
    intro e he hspot
    rw [Bool.and_eq_true, spot_eq_rule, Bool.and_eq_true] at hspot
    obtain ⟨k, hk⟩ := List.mem_iff_getElem?.mp he
    have hlt : k < before.length := (List.getElem?_eq_some_iff.mp hk).1
    have hget : tokens.zipIdx[k]? = some e := by
      rw [h, List.getElem?_append_left hlt, hk]
    have hke : e.2 = k := position_of_getElem? hget
    cases hfence : fenceBefore tokens e.2 with
    | none =>
        rw [hfence] at hspot
        exact absurd hspot.2.1 (by simp [opensAt])
    | some f =>
        have hf := lt_of_fenceBefore hfence
        rw [hfence] at hspot
        have hfi := position_of_opensAt hspot.2.1
        omega
  have hopen : opensAt i (lastFence (before ++ [(.rulesetStart selectors, i)])) = true := by
    rw [lastFence_concat_fence rfl]
    simp [opensAt]
  have hlen : i < (before ++ [(Token.rulesetStart selectors, i)]).length := by
    rw [List.length_append, ← hpos]
    simp
  have hrest := filter_spot_rule (split_concat h) hlen
  rw [hopen, hc, Bool.and_self, if_pos rfl] at hrest
  unfold tokensAt
  rw [h, List.filter_append, hbefore, List.nil_append, List.filter_cons,
    if_neg (by simp [Token.isBoundary])]
  exact hrest

/-- The rule that is open, with what comes before the next fence, if that fence closes it. -/
def finished (opened : Option Rule) (after : List (Token × Nat)) : List Rule :=
  match opened with
  | some r =>
    if closes (after.find? fun e => e.1.isFence) then [⟨r.selectors, r.body ++ untilFence after⟩]
    else []
  | none => []

theorem finished_rulesetStart (opened : Option Rule) (selectors : List String) (i : Nat)
    (after : List (Token × Nat)) :
    finished opened ((.rulesetStart selectors, i) :: after) = [] := by
  cases opened <;> rfl

theorem finished_rulesetEnd (r : Rule) (i : Nat) (after : List (Token × Nat)) :
    finished (some r) ((.rulesetEnd, i) :: after) = [r] := by
  show [Rule.mk r.selectors (r.body ++ [])] = [r]
  rw [List.append_nil]

theorem finished_media {t : Token} (hf : t.isFence = false) (hb : t.isBoundary = true)
    (opened : Option Rule) (i : Nat) (after : List (Token × Nat)) :
    finished opened ((t, i) :: after) = finished opened after := by
  cases opened with
  | none => rfl
  | some r =>
      unfold finished
      rw [List.find?_cons, hf, untilFence_media hf hb]

theorem finished_inner {t : Token} (hf : t.isFence = false) (hb : t.isBoundary = false)
    (r : Rule) (i : Nat) (after : List (Token × Nat)) :
    finished (some r) ((t, i) :: after)
      = finished (some ⟨r.selectors, r.body ++ [t]⟩) after := by
  unfold finished
  dsimp only
  rw [List.find?_cons, hf, untilFence_inner hf hb, List.append_assoc, List.singleton_append]

/-- From here on come the rule that is open, if it is closed, and the rules still to be opened. -/
theorem rules_extractFrom {tokens : List Token} {before after : List (Token × Nat)}
    (h : tokens.zipIdx = before ++ after) (opened : Option Rule) :
    (extractFrom opened (after.map Prod.fst)).rules
      = finished opened after ++ after.filterMap (ruleAt? tokens) := by
  induction after generalizing before opened with
  | nil => cases opened <;> rfl
  | cons e after ih =>
      have hnext := split_concat h
      have hfence := fenceAfter_of_split h
      obtain ⟨t, i⟩ := e
      rw [List.map_cons, List.filterMap_cons]
      rcases Token.fence_cases t with ⟨selectors, rfl⟩ | rfl | ⟨hm, hb, hf⟩ | ⟨hm, hb, hf⟩
      · -- the rule that was open is given up, and this one comes out if it is closed
        rw [extractFrom_rulesetStart, Extraction.rules_append, ih hnext, finished_rulesetStart]
        unfold ruleAt? finished
        dsimp only
        rw [hfence]
        cases hc : closes (after.find? fun e => e.1.isFence) with
        | true =>
            rw [tokensAt_rule h hc]
            rfl
        | false => rfl
      · cases opened with
        | none =>
            rw [extractFrom_none_rulesetEnd, Extraction.rules_append, ih hnext]
            rfl
        | some r =>
            rw [extractFrom_some_rulesetEnd, Extraction.rules_append, ih hnext, finished_rulesetEnd]
            rfl
      · rw [extractFrom_media hm, ih hnext, finished_media hf hb, ruleAt?_of_not_fence hf]
      · rw [ruleAt?_of_not_fence hf]
        cases opened with
        | none =>
            rw [extractFrom_none_inner hb, Extraction.rules_append, ih hnext]
            rfl
        | some r => rw [extractFrom_some_inner hb, ih hnext, finished_inner hf hb]

/-! ## Whole streams -/

/-- Without the ends of `@media` blocks everything comes out the same. -/
theorem extractFrom_filter_media (opened : Option Rule) (tokens : List Token) :
    extractFrom opened (tokens.filter fun t => !t.isMedia) = extractFrom opened tokens := by
  induction tokens generalizing opened with
  | nil => rfl
  | cons t rest ih =>
      rw [List.filter_cons]
      rcases Token.fence_cases t with ⟨selectors, rfl⟩ | rfl | ⟨hm, hb, hf⟩ | ⟨hm, hb, hf⟩
      · rw [if_pos (by rfl), extractFrom_rulesetStart, extractFrom_rulesetStart, ih]
      · rw [if_pos (by rfl)]
        cases opened with
        | none => rw [extractFrom_none_rulesetEnd, extractFrom_none_rulesetEnd, ih]
        | some r => rw [extractFrom_some_rulesetEnd, extractFrom_some_rulesetEnd, ih]
      · rw [hm, if_neg (by simp), extractFrom_media hm, ih]
      · rw [hm, if_pos (by rfl)]
        cases opened with
        | none => rw [extractFrom_none_inner hb, extractFrom_none_inner hb, ih]
        | some r => rw [extractFrom_some_inner hb, extractFrom_some_inner hb, ih]

/-- In a ruleset everything up to the next fence is collected, but for the ends of `@media`. -/
theorem extractFrom_some_unfenced {body : List Token} (h : ∀ t ∈ body, t.isFence = false)
    (r : Rule) (rest : List Token) :
    extractFrom (some r) (body ++ rest)
      = extractFrom (some ⟨r.selectors, r.body ++ body.filter fun t => !t.isMedia⟩) rest := by
  have hinner : ∀ t ∈ body.filter (fun t => !t.isMedia), t.isBoundary = false := by
    intro t ht
    rw [List.mem_filter] at ht
    have hf := h t ht.1
    rcases Token.fence_cases t with ⟨selectors, rfl⟩ | rfl | ⟨hm, _, _⟩ | ⟨_, hb, _⟩
    · exact absurd hf (by simp [Token.isFence])
    · exact absurd hf (by simp [Token.isFence])
    · exact absurd ht.2 (by simp [hm])
    · exact hb
  rw [← extractFrom_filter_media, List.filter_append, extractFrom_some_body hinner,
    extractFrom_filter_media]

/-- Behind the end of a ruleset extraction starts anew. -/
theorem extractFrom_append_rulesetEnd (opened : Option Rule) (xs ys : List Token) :
    extractFrom opened (xs ++ .rulesetEnd :: ys)
      = extractFrom opened (xs ++ [.rulesetEnd]) ++ extractFrom none ys := by
  induction xs generalizing opened with
  | nil =>
      have hend : ∀ e : Extraction, e ++ extractFrom none [] = e := by
        intro e
        show Extraction.mk _ _ _ = e
        simp [extractFrom]
      rw [List.nil_append, List.nil_append]
      cases opened with
      | none => rw [extractFrom_none_rulesetEnd, extractFrom_none_rulesetEnd, hend]
      | some r => rw [extractFrom_some_rulesetEnd, extractFrom_some_rulesetEnd, hend]
  | cons t xs ih =>
      rw [List.cons_append, List.cons_append]
      rcases Token.fence_cases t with ⟨selectors, rfl⟩ | rfl | ⟨hm, hb, hf⟩ | ⟨hm, hb, hf⟩
      · rw [extractFrom_rulesetStart, extractFrom_rulesetStart, ih, Extraction.append_assoc]
      · cases opened with
        | none =>
            rw [extractFrom_none_rulesetEnd, extractFrom_none_rulesetEnd, ih,
              Extraction.append_assoc]
        | some r =>
            rw [extractFrom_some_rulesetEnd, extractFrom_some_rulesetEnd, ih,
              Extraction.append_assoc]
      · rw [extractFrom_media hm, extractFrom_media hm, ih]
      · cases opened with
        | none =>
            rw [extractFrom_none_inner hb, extractFrom_none_inner hb, ih, Extraction.append_assoc]
        | some r => rw [extractFrom_some_inner hb, extractFrom_some_inner hb, ih]

/--
**Every token goes where its fences say.** Outside rules are exactly the tokens with no fence
before them, or one that closes a ruleset. The rules are those rulesets that the next fence
closes, each with its selectors and exactly the tokens between the two fences. Each token is
there once, and all are in the order of the stream. The ends of `@media` blocks make no
difference, and extraction starts anew behind each end of a ruleset.
-/
theorem extract_follows_fences (tokens : List Token) :
    (extract tokens).topLevel = tokensAt tokens .outside
      ∧ (extract tokens).rules = tokens.zipIdx.filterMap (ruleAt? tokens)
      ∧ extract (tokens.filter fun t => !t.isMedia) = extract tokens
      ∧ ∀ xs ys : List Token,
          extract (xs ++ .rulesetEnd :: ys) = extract (xs ++ [.rulesetEnd]) ++ extract ys := by
  have hsplit : tokens.zipIdx = [] ++ tokens.zipIdx := rfl
  have htokens : tokens.zipIdx.map Prod.fst = tokens := List.zipIdx_map_fst 0 tokens
  refine ⟨?_, ?_, extractFrom_filter_media none tokens, extractFrom_append_rulesetEnd none⟩
  · have htop := topLevel_extractFrom hsplit none rfl
    rw [htokens] at htop
    exact htop
  · have hrules := rules_extractFrom hsplit none
    rw [htokens] at hrules
    exact hrules

end Rule

end CssNest
