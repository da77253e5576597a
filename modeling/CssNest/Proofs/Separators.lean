import CssNest.Proofs.Extraction
import CssNest.Proofs.Inlining
import CssNest.Proofs.Replay
import CssNest.Proofs.TokenStream

/-!
# Semicolons in merged blocks

The last declaration of a ruleset is written without a semicolon. Whether a declaration is
the last one is settled in its own ruleset, before anything is merged; a block of the sheet
may then hold the texts of several rulesets, and nested blocks behind them. So the text of a
last declaration lacks its semicolon wherever it ends up, also with something behind it.

All other declarations have theirs. To say so of the sheet, where a text no longer shows what
it was made from, `Origin` keeps for each text the token that it comes from and what follows
that token in its ruleset. The texts of a block are those of its origins, one by one.
-/

namespace CssNest

/-- The declaration without a semicolon. -/
def Declaration.bare (d : Declaration) : String :=
  d.property ++ ": " ++ d.value ++ (if d.important then " !important" else "")

theorem Declaration.text_eq_bare (d : Declaration) :
    d.text = d.bare ++ (if d.isLast then "" else ";") := rfl

namespace Token

/-! ## Streams that mark the last declarations -/

/-- Whether exactly the last declaration of a ruleset is marked as the last one. -/
def marksLast : List Token → Bool
  | [] => true
  | .declaration body _ :: later => body.isLast == !later.any isDeclaration && marksLast later
  | _ :: later => marksLast later

/--
Every ruleset is closed before another one is opened, and marks exactly its last declaration
as the last one. Outside rulesets anything may stand.
-/
inductive Marked : List Token → Prop where
  | nil : Marked []
  | ruleset {body rest : List Token} (selectors : List String) :
      (∀ t ∈ body, t.isFence = false) → marksLast body = true → Marked rest →
      Marked (.rulesetStart selectors :: (body ++ .rulesetEnd :: rest))
  | outside {t : Token} {rest : List Token} :
      (∀ selectors, t ≠ .rulesetStart selectors) → Marked rest → Marked (t :: rest)

theorem marksLast_cons {t : Token} (h : t.isDeclaration = false) (later : List Token) :
    marksLast (t :: later) = marksLast later := by
  cases t with
  | declaration body media => exact absurd h (by simp [isDeclaration])
  | _ => rfl

/-- The ends of `@media` blocks are no declarations. -/
theorem any_isDeclaration_filter_media (body : List Token) :
    (body.filter fun t => !t.isMedia).any isDeclaration = body.any isDeclaration := by
  rw [List.any_filter]
  congr 1
  funext t
  cases t <;> rfl

theorem marksLast_filter_media {body : List Token} (h : marksLast body = true) :
    marksLast (body.filter fun t => !t.isMedia) = true := by
  induction body with
  | nil => rfl
  | cons t later ih =>
      rw [List.filter_cons]
      cases hd : t.isDeclaration with
      | true =>
          cases t with
          | declaration body media =>
              rw [marksLast, Bool.and_eq_true] at h
              rw [if_pos (by rfl), marksLast, any_isDeclaration_filter_media, h.1, ih h.2]
              rfl
          | _ => exact absurd hd (by simp [isDeclaration])
      | false =>
          rw [marksLast_cons hd] at h
          split
          · rw [marksLast_cons hd]
            exact ih h
          · exact ih h

/-! ## Rules that mark the last declarations -/

/-- The rules of a marked stream mark their last declarations. -/
theorem Marked.rules {tokens : List Token} (h : Marked tokens) :
    ∀ r ∈ (Rule.extract tokens).rules, marksLast r.body = true := by
  unfold Rule.extract
  induction h with
  | nil =>
      intro r hr
      exact absurd hr (by simp [Rule.extractFrom])
  | @ruleset body rest selectors hbody hlast _ ih =>
      rw [Rule.extractFrom_rulesetStart, Rule.extractFrom_some_unfenced hbody,
        Rule.extractFrom_some_rulesetEnd]
      intro r hr
      rw [Extraction.rules_append, Extraction.rules_append, List.mem_append, List.mem_append] at hr
      rcases hr with hr | hr | hr
      · exact absurd hr (by simp)
      · rw [List.mem_singleton.mp hr]
        exact marksLast_filter_media hlast
      · exact ih r hr
  | @outside t rest ht _ ih =>
      rcases fence_cases t with ⟨selectors, rfl⟩ | rfl | ⟨hm, _, _⟩ | ⟨_, hb, _⟩
      · exact absurd rfl (ht selectors)
      · rw [Rule.extractFrom_none_rulesetEnd]
        exact ih
      · rw [Rule.extractFrom_media hm]
        exact ih
      · rw [Rule.extractFrom_none_inner hb]
        exact ih

/-- Other declarations in the same places, with the same marks, are marked as well. -/
theorem marksLast_alike {P : Declaration → Declaration → Prop}
    (hP : ∀ body body', P body body' → body.isLast = body'.isLast) {ts ts' : List Token}
    (h : List.Forall₂ (Token.Alike P) ts ts') :
    ts.any isDeclaration = ts'.any isDeclaration ∧ marksLast ts = marksLast ts' := by
  induction h with
  | nil => exact ⟨rfl, rfl⟩
  | @cons t t' later later' ht _ ih =>
      rw [List.any_cons, List.any_cons, ih.1]
      cases ht with
      | same t =>
          refine ⟨rfl, ?_⟩
          cases hd : t.isDeclaration with
          | true =>
              cases t with
              | declaration body media => rw [marksLast, marksLast, ih.1, ih.2]
              | _ => exact absurd hd (by simp [isDeclaration])
          | false => rw [marksLast_cons hd, marksLast_cons hd, ih.2]
      | declaration media hbody =>
          refine ⟨rfl, ?_⟩
          rw [marksLast, marksLast, ih.1, ih.2, hP _ _ hbody]

theorem marksLast_rules_alike {P : Declaration → Declaration → Prop}
    (hP : ∀ body body', P body body' → body.isLast = body'.isLast) {rules rules' : List Rule}
    (h : List.Forall₂ (Rule.Alike P) rules rules')
    (hmarks : ∀ r ∈ rules, marksLast r.body = true) : ∀ r ∈ rules', marksLast r.body = true := by
  induction h with
  | nil => exact hmarks
  | cons hr _ ih =>
      rw [List.forall_mem_cons] at hmarks ⊢
      refine ⟨?_, ih hmarks.2⟩
      rw [← (marksLast_alike hP hr.body).2]
      exact hmarks.1

/-- With or without variables, the rules that are laid out mark their last declarations. -/
theorem Marked.rules_prepare {tokens : List Token} (h : Marked tokens) (d : Dialect)
    (extracts : Bool) :
    ∀ r ∈ (Rule.extract (Layout.prepare d extracts tokens).1).rules, marksLast r.body = true := by
  cases extracts with
  | false => exact h.rules
  | true =>
      have hP : ∀ body body', Variables.Replaces d (Variables.extract d tokens).2 body body' →
          body.isLast = body'.isLast := by
        rintro body _ ⟨name, _, _, rfl⟩
        rfl
      exact marksLast_rules_alike hP
        (Rule.extractFrom_alike (Variables.extract_alike d tokens) .none).rules h.rules

end Token

/-! ## Where the texts of a sheet come from -/

/-- A text to be placed, the token it comes from, and what follows that token in its ruleset. -/
structure Origin where
  place : Placement
  token : Token
  later : List Token
deriving DecidableEq

/-- Whether the text goes to `path` under `media`. -/
def Origin.isAt (media : String) (path : List String) (o : Origin) : Bool :=
  o.place.occurrence.isAt media path

namespace Rule

/-- The origins of the texts of a ruleset: by token, then by media type, then by selector. -/
def originsFrom (selectors : List String) : List Token → List Origin
  | [] => []
  | token :: later =>
    (token.scopes.flatMap fun media =>
        selectors.map fun selector => ⟨⟨media, selector, token.line 0⟩, token, later⟩)
      ++ originsFrom selectors later

/-- The origins of the texts of a rule. -/
def origins (r : Rule) : List Origin := originsFrom r.selectors r.body

/-- Each text that a rule places has its origin. -/
theorem map_place_origins (r : Rule) : r.origins.map Origin.place = r.placements := by
  obtain ⟨selectors, body⟩ := r
  unfold origins placements
  dsimp only
  induction body with
  | nil => rfl
  | cons token later ih =>
      rw [originsFrom, List.map_append, ih, List.flatMap_cons, List.map_flatMap]
      simp only [List.map_map]
      rfl

/-- In a ruleset that marks its last declaration, all others have a semicolon. -/
theorem text_of_mem_originsFrom {selectors : List String} {body : List Token}
    (h : Token.marksLast body = true) {o : Origin} (ho : o ∈ originsFrom selectors body)
    {d : Declaration} {media : List String} (hd : o.token = .declaration d media) :
    o.place.text = d.bare ++ (if o.later.any Token.isDeclaration then ";" else "") := by
  induction body with
  | nil => exact absurd ho (by simp [originsFrom])
  | cons token later ih =>
      rw [originsFrom, List.mem_append, List.mem_flatMap] at ho
      rcases ho with ⟨m, _, ho⟩ | ho
      · obtain ⟨selector, _, rfl⟩ := List.mem_map.mp ho
        dsimp only at hd ⊢
        subst hd
        rw [Token.marksLast, Bool.and_eq_true, beq_iff_eq] at h
        rw [Token.line_declaration, Declaration.text_eq_bare, h.1]
        cases later.any Token.isDeclaration <;> rfl
      · refine ih ?_ ho
        cases token with
        | declaration body media =>
            rw [Token.marksLast, Bool.and_eq_true] at h
            exact h.2
        | _ => exact h

end Rule

/-- The texts at a place are those of the origins there, in their order. -/
theorem Sheet.textsAt_ofRules (rules : List Rule) (media : String) (path : List String) :
    (Sheet.ofRules rules).textsAt media path
      = ((rules.flatMap Rule.origins).filter (Origin.isAt media path)).map fun o =>
          o.place.text := by
  have hplace : rules.flatMap Rule.placements
      = (rules.flatMap Rule.origins).map Origin.place := by
    rw [List.map_flatMap]
    congr 1
    funext r
    exact r.map_place_origins.symm
  unfold ofRules
  rw [textsAt_placeAll, textsAt_empty, List.nil_append, hplace, List.map_map, List.filter_map,
    List.map_map]
  rfl

/-- Something stands behind the `i`th rule text of a block: another one, or a nested block. -/
def Block.FollowedAt (b : Block) (i : Nat) : Prop :=
  ∃ before texts after, b.entries = before ++ .rules texts :: after
    ∧ i < texts.length ∧ (i + 1 < texts.length ∨ after ≠ [])

namespace Layout

/-- The origins of the texts that are laid out at `path` under `media`. -/
def originsAt (d : Dialect) (extracts : Bool) (tokens : List Token) (media : String)
    (path : List String) : List Origin :=
  ((Rule.extract (prepare d extracts tokens).1).rules.flatMap Rule.origins).filter
    (Origin.isAt media path)

/-- In every block, the text of a declaration with something behind it ends with a semicolon. -/
def Separated (d : Dialect) (extracts : Bool) (tokens : List Token) : Prop :=
  ∀ (media : String) (path : List String) (block : Block) (i : Nat) (o : Origin),
    (ofTokens d extracts tokens).sheet.node? media path = some block →
    (originsAt d extracts tokens media path)[i]? = some o → o.token.isDeclaration = true →
    block.FollowedAt i → ∃ stem, block.rules[i]? = some (stem ++ ";")

/--
`a { margin: 0; top: 1px } a:hover { color: red }`, where the second ruleset goes into the
first.
-/
def mergedSample : List Token :=
  [.rulesetStart ["a"],
    .declaration ⟨"margin", "0", false, false⟩ [], .declaration ⟨"top", "1px", false, true⟩ [],
    .rulesetEnd,
    .rulesetStart ["a:hover"], .declaration ⟨"color", "red", false, true⟩ [], .rulesetEnd]

theorem marked_mergedSample : Token.Marked mergedSample := by
  have hhover : Token.Marked (.rulesetStart ["a:hover"]
      :: ([.declaration ⟨"color", "red", false, true⟩ []] ++ .rulesetEnd :: [])) :=
    .ruleset ["a:hover"] (by simp [Token.isFence]) rfl .nil
  have ha : Token.Marked (.rulesetStart ["a"]
      :: ([.declaration ⟨"margin", "0", false, false⟩ [],
          .declaration ⟨"top", "1px", false, true⟩ []] ++ .rulesetEnd :: _)) :=
    .ruleset ["a"] (by simp [Token.isFence]) rfl hhover
  exact ha

theorem node?_mergedSample :
    (ofTokens .less false mergedSample).sheet.node? "all" ["a"]
      = some (.mk [("&:hover", .mk [] ["color: red"] (some 0))] ["margin: 0;", "top: 1px"]
          (some 0)) := by
  have hrun := Sheet.node?_placeAll .empty
    ((Rule.extract mergedSample).rules.flatMap Rule.placements) "all" ["a"]
  have hany : ((Rule.extract mergedSample).rules.flatMap Rule.placements).any
      (Placement.reaches "all" ["a"]) = true := by
    decide +kernel
  have hsteps : (((Rule.extract mergedSample).rules.flatMap Rule.placements).filter
      (Placement.reaches "all" ["a"])).map (Placement.below ["a"])
        = [([], "margin: 0;"), ([], "top: 1px"), (["&:hover"], "color: red")] := by
    decide +kernel
  rw [if_pos hany, hsteps, Sheet.node?_empty] at hrun
  exact hrun

/--
The last declaration of a ruleset is not separated from what follows it in its block: here
the nested block of `a:hover` comes right behind `top: 1px`.
-/
theorem not_separated_mergedSample :
    Token.Marked mergedSample ∧ ¬ Separated .less false mergedSample := by
  refine ⟨marked_mergedSample, ?_⟩
  intro h
  have hfollowed : Block.FollowedAt (.mk [("&:hover", .mk [] ["color: red"] (some 0))]
      ["margin: 0;", "top: 1px"] (some 0)) 1 :=
    ⟨[], ["margin: 0;", "top: 1px"], [.child "&:hover" (.mk [] ["color: red"] (some 0))], rfl,
      by simp, .inr (by simp)⟩
  have horigin : (originsAt .less false mergedSample "all" ["a"])[1]?
      = some ⟨⟨"all", "a", "top: 1px"⟩, .declaration ⟨"top", "1px", false, true⟩ [], []⟩ := by
    decide +kernel
  obtain ⟨stem, hstem⟩ := h "all" ["a"] _ 1 _ node?_mergedSample horigin rfl hfollowed
  have htext : "top: 1px" = stem ++ ";" := Option.some.inj hstem
  have hlast : "top: 1px".toList.getLast? = some ';' := by
    rw [htext, String.toList_append, List.getLast?_append]
    rfl
  exact absurd hlast (by decide)

/--
**A semicolon stands behind each declaration but the last of its ruleset.** However the
rulesets of a stream are merged, with or without variables: the texts of a block are those of
the tokens that were placed there, one by one, and the text of a declaration ends with a
semicolon exactly if another declaration follows it in its own ruleset. What follows the text
in the block makes no difference.
-/
theorem texts_terminated_in_ruleset (d : Dialect) (extracts : Bool) {tokens : List Token}
    (h : Token.Marked tokens) (media : String) (path : List String) :
    List.Forall₂
      (fun (o : Origin) text => ∀ body queries, o.token = .declaration body queries →
        text = body.bare ++ (if o.later.any Token.isDeclaration then ";" else ""))
      (originsAt d extracts tokens media path)
      ((ofTokens d extracts tokens).sheet.textsAt media path) := by
  have htexts : (ofTokens d extracts tokens).sheet.textsAt media path
      = (originsAt d extracts tokens media path).map fun o => o.place.text :=
    Sheet.textsAt_ofRules _ media path
  rw [htexts, List.forall₂_map_right_iff, List.forall₂_same]
  intro o ho body queries hbody
  obtain ⟨r, hr, hor⟩ := List.mem_flatMap.mp (List.mem_filter.mp ho).1
  exact Rule.text_of_mem_originsFrom (h.rules_prepare d extracts r hr) hor hbody

theorem texts_terminated_mergedSample :
    Token.Marked mergedSample
      ∧ (ofTokens .less false mergedSample).sheet.textsAt "all" ["a"] = ["margin: 0;", "top: 1px"]
      ∧ List.Forall₂
        (fun (o : Origin) text => ∀ body queries, o.token = .declaration body queries →
          text = body.bare ++ (if o.later.any Token.isDeclaration then ";" else ""))
        (originsAt .less false mergedSample "all" ["a"])
        ((ofTokens .less false mergedSample).sheet.textsAt "all" ["a"]) := by
  refine ⟨marked_mergedSample, ?_,
    texts_terminated_in_ruleset .less false marked_mergedSample "all" ["a"]⟩
  exact (Sheet.textsAt_ofRules _ "all" ["a"]).trans (by decide +kernel)

end Layout

end CssNest
