import CssNest.Proofs.OrderedMap
import CssNest.Proofs.TokenStream

/-!
# The queries of nested `@media` blocks

An `@media` inside another one applies where both do, so its queries are combined with those
around it: each query with each of the outer ones. Repetitions are dropped at every level, and
what is combined further in is combined with what was left. Nothing is missing at the end for
all that: the queries of a statement are the ways to choose one query of each statement around
it and one of its own, each of them once.

Where the tokens of a statement stand in the stream is said by taking the stream apart along the
nesting. The nodes before and behind a statement are flattened by themselves, because a node
swallows its neighbour only if that is a ruleset (`items_append`).
-/

namespace CssNest

theorem nodup_distinct {α : Type} [BEq α] [LawfulBEq α] (xs : List α) : (distinct xs).Nodup := by
  induction xs using List.reverseRecOn with
  | nil => exact .nil
  | append_singleton xs x ih =>
      rw [distinct_concat]
      exact nodup_pushNew ih x

/-! ## Statements inside each other -/

/-- An `@media` statement with the nodes that stand before and behind it. -/
structure Enclosure where
  before : List Node
  statement : Node
  after : List Node

/-- The nodes in the block of a statement. -/
def Node.blockNodes (n : Node) : List Node := ((n.child? .block).map Node.children).getD []

/--
The statements lie inside each other, from the outside in: the first one among `nodes`, and
each other one in the block of the one before it.
-/
def Nested (nodes : List Node) : List Enclosure → Prop
  | [] => True
  | e :: inner =>
    nodes = e.before ++ e.statement :: e.after ∧ e.statement.kind = .mediaStatement
      ∧ Nested e.statement.blockNodes inner

namespace Source

/-- The queries as they are written at a statement. -/
def written (src : Source) (e : Enclosure) : List String := e.statement.heading.map src.collapsed

/-- The queries that hold inside some statements, under the queries `outer`. -/
def scope (src : Source) (outer : List String) (chain : List Enclosure) : List String :=
  chain.foldl (fun outer e => src.queries outer e.statement) outer

/-! ## Choosing one query of each -/

theorem mem_combineQueries {outer : List String} (houter : outer ≠ []) {queries : List String}
    {s : String} :
    s ∈ combineQueries outer queries
      ↔ ∃ o ∈ outer, ∃ q ∈ queries, s = o ++ " and " ++ q := by
  have hne : outer.isEmpty = false := List.isEmpty_eq_false_iff.mpr houter
  rw [combineQueries, hne, if_neg (by simp), mem_distinct, List.mem_flatMap]
  constructor
  · rintro ⟨q, hq, hs⟩
    obtain ⟨o, ho, rfl⟩ := List.mem_map.mp hs
    exact ⟨o, ho, q, hq, rfl⟩
  · rintro ⟨o, ho, q, hq, rfl⟩
    exact ⟨q, hq, List.mem_map.mpr ⟨o, ho, rfl⟩⟩

theorem nodup_combineQueries (outer queries : List String) :
    (combineQueries outer queries).Nodup := by
  unfold combineQueries
  split
  · exact nodup_distinct _
  · exact nodup_distinct _

/-- As long as there is something to choose, a statement leaves something. -/
theorem queries_ne_nil (src : Source) (outer : List String) {n : Node} (h : n.heading ≠ []) :
    src.queries outer n ≠ [] := by
  obtain ⟨m, rest, hheading⟩ := List.exists_cons_of_ne_nil h
  have hq : src.collapsed m ∈ n.heading.map src.collapsed := by simp [hheading]
  cases outer with
  | nil =>
      have hmem : src.collapsed m ∈ src.queries [] n := mem_distinct.mpr hq
      exact List.ne_nil_of_mem hmem
  | cons o outer =>
      have hmem : o ++ " and " ++ src.collapsed m ∈ src.queries (o :: outer) n :=
        (mem_combineQueries (by simp)).mpr ⟨o, by simp, _, hq, rfl⟩
      exact List.ne_nil_of_mem hmem

/-- Inside some statements the queries are an outer one, continued by a choice from each. -/
theorem mem_scope (src : Source) {chain : List Enclosure}
    (hqueries : ∀ e ∈ chain, e.statement.heading ≠ []) {outer : List String}
    (houter : outer ≠ []) (s : String) :
    s ∈ src.scope outer chain
      ↔ ∃ o ∈ outer, ∃ choice, List.Forall₂ (fun q e => q ∈ src.written e) choice chain
          ∧ s = " and ".intercalate (o :: choice) := by
  induction chain generalizing outer with
  | nil =>
      constructor
      · intro hs
        exact ⟨s, hs, [], .nil, rfl⟩
      · rintro ⟨o, ho, choice, hchoice, rfl⟩
        cases hchoice
        exact ho
  | cons e chain ih =>
      rw [List.forall_mem_cons] at hqueries
      have hinner : s ∈ src.scope outer (e :: chain)
          ↔ ∃ o ∈ src.queries outer e.statement, ∃ choice,
              List.Forall₂ (fun q e => q ∈ src.written e) choice chain
                ∧ s = " and ".intercalate (o :: choice) :=
        ih hqueries.2 (src.queries_ne_nil outer hqueries.1)
      rw [hinner]
      -- an outer query and one of this statement are joined as the first two of the choice are
      constructor
      · rintro ⟨o', ho', choice, hchoice, rfl⟩
        obtain ⟨o, ho, q, hq, rfl⟩ := (mem_combineQueries houter).mp ho'
        exact ⟨o, ho, q :: choice, .cons hq hchoice, rfl⟩
      · rintro ⟨o, ho, choice, hchoice, rfl⟩
        cases hchoice with
        | @cons q _ choice _ hq hrest =>
            exact ⟨o ++ " and " ++ q, (mem_combineQueries houter).mpr ⟨o, ho, q, hq, rfl⟩, choice,
              hrest, rfl⟩

/-- From the top the queries are the choices of one query of each statement. -/
theorem mem_scope_top (src : Source) {e : Enclosure} {chain : List Enclosure}
    (hqueries : ∀ m ∈ e :: chain, m.statement.heading ≠ []) (s : String) :
    s ∈ src.scope [] (e :: chain)
      ↔ ∃ choice, List.Forall₂ (fun q m => q ∈ src.written m) choice (e :: chain)
          ∧ s = " and ".intercalate choice := by
  rw [List.forall_mem_cons] at hqueries
  have hfirst : ∀ q, q ∈ src.queries [] e.statement ↔ q ∈ src.written e := fun q => mem_distinct
  have hinner : s ∈ src.scope [] (e :: chain)
      ↔ ∃ q ∈ src.queries [] e.statement, ∃ choice,
          List.Forall₂ (fun q m => q ∈ src.written m) choice chain
            ∧ s = " and ".intercalate (q :: choice) :=
    src.mem_scope hqueries.2 (src.queries_ne_nil [] hqueries.1) s
  rw [hinner]
  constructor
  · rintro ⟨q, hq, choice, hchoice, rfl⟩
    exact ⟨q :: choice, .cons ((hfirst q).mp hq) hchoice, rfl⟩
  · rintro ⟨choice, hchoice, rfl⟩
    cases hchoice with
    | @cons q _ choice _ hq hrest => exact ⟨q, (hfirst q).mpr hq, choice, hrest, rfl⟩

/-! ## The stream, taken apart -/

/--
The nodes in front of a node are flattened by themselves, unless the last of them is the
beginning of a broken at-rule and the node is its body.
-/
theorem items_append (src : Source) (media : List String) {n : Node} (after : List Node) :
    ∀ before : List Node,
      (∀ m ∈ before.getLast?, (src.startsAtRule m && n.kind == .ruleSet) = false) →
      (src.items media (before ++ n :: after)).tokens
        = (src.items media before).tokens ++ (src.items media (n :: after)).tokens
  | [], _ => by
      rw [List.nil_append, items.eq_1]
      rfl
  | [m], h => by
      have hm : (src.startsAtRule m && n.kind == .ruleSet) = false := h m (by simp)
      have hone : src.items media [m] = src.item media m := by rw [items]
      have hboth : src.items media (m :: n :: after)
          = src.item media m ++ src.items media (n :: after) := by
        rw [items, hm, if_neg (by simp)]
      rw [List.singleton_append, hboth, hone, tokens_append]
  | m :: next :: rest, h => by
      rw [List.cons_append, List.cons_append, items, items]
      split
      · rw [tokens_append, tokens_append, List.append_assoc]
        congr 1
        refine items_append src media after rest ?_
        intro k hk
        cases rest with
        | nil => exact absurd hk (by simp)
        | cons r rest => exact h k (by simpa using hk)
      · rw [tokens_append, tokens_append, List.append_assoc]
        congr 1
        exact items_append src media after (next :: rest) fun k hk => h k (by simpa using hk)

/-- A node that does not begin a broken at-rule is flattened by itself. -/
theorem items_cons (src : Source) (media : List String) {n : Node}
    (h : src.startsAtRule n = false) (after : List Node) :
    (src.items media (n :: after)).tokens
      = (src.item media n).tokens ++ (src.items media after).tokens := by
  cases after with
  | nil =>
      rw [items, items]
      exact (List.append_nil _).symm
  | cons next rest =>
      rw [items, h, Bool.false_and, if_neg (by simp), tokens_append]

theorem startsAtRule_of_kind {src : Source} {n : Node} (h : n.kind ≠ .error) :
    src.startsAtRule n = false := by
  unfold startsAtRule
  rw [beq_false_of_ne h, Bool.false_and]

theorem mediaBlock_eq (src : Source) (media : List String) (nodes : List Node) :
    (src.mediaBlock media nodes).tokens
      = (src.items media
          (((nodes.find? fun c => c.kind == .block).map Node.children).getD [])).tokens := by
  induction nodes with
  | nil =>
      rw [mediaBlock, List.find?_nil, Option.map_none, Option.getD_none, items]
  | cons n nodes ih =>
      obtain ⟨kind, span, children⟩ := n
      rw [mediaBlock, List.find?_cons]
      by_cases hk : kind == .block
      · have hfound : ((Node.mk kind span children).kind == .block) = true := hk
        rw [if_pos hk, hfound]
        rfl
      · have hnot : ((Node.mk kind span children).kind == .block) = false :=
          Bool.eq_false_iff.mpr hk
        rw [if_neg hk, hnot, ih]

/-- A statement gives its queries, what is in its block under these queries, and its end. -/
theorem item_media (src : Source) (outer : List String) {n : Node}
    (h : n.kind = .mediaStatement) :
    (src.item outer n).tokens
      = .mediaStart (src.queries outer n)
        :: ((src.items (src.queries outer n) n.blockNodes).tokens ++ [.mediaEnd]) := by
  obtain ⟨kind, span, children⟩ := n
  have hkind : kind = .mediaStatement := h
  subst hkind
  rw [item, if_neg (by decide), if_pos (by decide)]
  dsimp only
  rw [tokens_between, mediaBlock_eq]
  rfl

/-- All that comes before what is inside some statements. -/
def opening (src : Source) (outer : List String) : List Enclosure → List Token
  | [] => []
  | e :: inner =>
    (src.items outer e.before).tokens
      ++ .mediaStart (src.queries outer e.statement)
        :: src.opening (src.queries outer e.statement) inner

/-- All that comes behind what is inside some statements. -/
def closing (src : Source) (outer : List String) : List Enclosure → List Token
  | [] => []
  | e :: inner =>
    src.closing (src.queries outer e.statement) inner
      ++ .mediaEnd :: (src.items outer e.after).tokens

/-- The nodes in the innermost block of some statements. -/
def innermost (nodes : List Node) : List Enclosure → List Node
  | [] => nodes
  | e :: inner => innermost e.statement.blockNodes inner

theorem Nested.of_append {nodes : List Node} {outside inner : List Enclosure}
    (h : Nested nodes (outside ++ inner)) :
    Nested nodes outside ∧ Nested (innermost nodes outside) inner := by
  induction outside generalizing nodes with
  | nil => exact ⟨trivial, h⟩
  | cons e outside ih =>
      obtain ⟨hnodes, hkind, hrest⟩ := h
      obtain ⟨houtside, hinner⟩ := ih hrest
      exact ⟨⟨hnodes, hkind, houtside⟩, hinner⟩

/-- One statement cuts the stream into what stands before it, in it and behind it. -/
theorem items_enclosure (src : Source) (outer : List String) {e : Enclosure}
    (h : e.statement.kind = .mediaStatement) :
    (src.items outer (e.before ++ e.statement :: e.after)).tokens
      = (src.items outer e.before).tokens
        ++ .mediaStart (src.queries outer e.statement)
          :: ((src.items (src.queries outer e.statement) e.statement.blockNodes).tokens
            ++ .mediaEnd :: (src.items outer e.after).tokens) := by
  have hrule : e.statement.kind ≠ .ruleSet := by
    rw [h]
    decide
  have herror : e.statement.kind ≠ .error := by
    rw [h]
    decide
  rw [items_append src outer e.after e.before fun m _ => by simp [hrule],
    items_cons src outer (startsAtRule_of_kind herror), item_media src outer h]
  simp

/-- So do statements inside each other, and their innermost block is under all their queries. -/
theorem items_nested (src : Source) {nodes : List Node} {chain : List Enclosure}
    (h : Nested nodes chain) (outer : List String) :
    (src.items outer nodes).tokens
      = src.opening outer chain
        ++ ((src.items (src.scope outer chain) (innermost nodes chain)).tokens
          ++ src.closing outer chain) := by
  induction chain generalizing nodes outer with
  | nil => simp [opening, closing, scope, innermost]
  | cons e inner ih =>
      obtain ⟨rfl, hkind, hinner⟩ := h
      have hscope : src.scope outer (e :: inner)
          = src.scope (src.queries outer e.statement) inner := rfl
      rw [src.items_enclosure outer hkind, ih hinner, innermost, hscope, opening, closing]
      simp

/-! ## Rulesets in the innermost block -/

/-- Every declaration of a ruleset has the queries that the ruleset stands under. -/
theorem media_of_mem_ruleSet {src : Source} {media : List String} {n : Node} {body : Declaration}
    {queries : List String} (h : .declaration body queries ∈ (src.ruleSet media n).tokens) :
    queries = media := by
  rw [ruleSet] at h
  split at h
  · exact absurd h (by simp [brokenAtRule, Emission.say, Emission.one])
  · split at h
    · rename_i selectors block _ _
      have hgroup : Token.Group (fun d => .declaration d media)
          (src.blockItems (fun d => .declaration d media) block.children).tokens :=
        src.blockItems_group (by simp) (by simp) _
      have hall := hgroup.forall_mem
        (p := fun t => ∀ d m, t = .declaration d m → m = media)
        (fun d d' m heq => (Token.declaration.inj heq).2.symm) (by simp) (by simp)
      rw [tokens_between, List.mem_cons, List.mem_append, List.mem_singleton] at h
      rcases h with h | h | h
      · exact absurd h (by simp)
      · exact hall _ h body queries rfl
      · exact absurd h (by simp)
    · exact absurd h (by simp [Emission.say])

/--
A ruleset among other nodes is flattened by itself, or it is taken for the body of the broken
at-rule in front of it.
-/
theorem items_ruleSet (src : Source) (media : List String) (before : List Node) {rule : Node}
    (hrule : rule.kind = .ruleSet) (after : List Node) :
    (src.items media (before ++ rule :: after)).tokens
        = (src.items media before).tokens
          ++ ((src.ruleSet media rule).tokens ++ (src.items media after).tokens)
      ∨ ∃ front broken, before = front ++ [broken] ∧ src.startsAtRule broken = true
          ∧ (src.items media (before ++ rule :: after)).tokens
            = (src.items media front).tokens
              ++ .raw (src.joined broken rule) :: (src.items media after).tokens := by
  have hitem : src.item media rule = src.ruleSet media rule := by
    obtain ⟨kind, span, children⟩ := rule
    have hkind : kind = .ruleSet := hrule
    rw [item, hkind, if_pos (by decide)]
  have herror : rule.kind ≠ .error := by
    rw [hrule]
    decide
  by_cases hlast : ∀ m ∈ before.getLast?, src.startsAtRule m = false
  · left
    rw [items_append src media after before fun m hm => by rw [hlast m hm, Bool.false_and],
      items_cons src media (startsAtRule_of_kind herror), hitem]
  · right
    push Not at hlast
    obtain ⟨broken, hbroken, hstarts⟩ := hlast
    have hstarts : src.startsAtRule broken = true := by simpa using hstarts
    obtain ⟨front, rfl⟩ := List.getLast?_eq_some_iff.mp hbroken
    refine ⟨front, broken, rfl, hstarts, ?_⟩
    -- an error is no ruleset, so nothing swallows it
    have hkind : broken.kind ≠ .ruleSet := by
      intro hk
      rw [startsAtRule, hk] at hstarts
      exact absurd hstarts (by simp [Kind.ruleSet])
    have hswallow : (src.items media (broken :: rule :: after)).tokens
        = .raw (src.joined broken rule) :: (src.items media after).tokens := by
      rw [items, hstarts, hrule, if_pos (by decide)]
      rfl
    rw [List.append_assoc, List.singleton_append,
      items_append src media (rule :: after) front fun m _ => by simp [hkind], hswallow]

/--
**Nested `@media` combine every choice of queries.** However deep a statement lies inside
others, if each of them has queries: its opening token has, each once, exactly the strings that
join one query of each statement, from the outside in. It stands in the stream between what is
flattened from the nodes before and behind the statements, which are under the queries of the
statements around them and of no other. So do the declarations of each ruleset in its block,
unless the ruleset is taken for the body of a broken at-rule.
-/
theorem nested_media_carry_choices (src : Source) {nodes : List Node} {outside : List Enclosure}
    {e : Enclosure} (hnested : Nested nodes (outside ++ [e]))
    (hqueries : ∀ m ∈ outside ++ [e], m.statement.heading ≠ []) :
    let around := src.scope [] outside
    let queries := src.scope [] (outside ++ [e])
    queries.Nodup
      ∧ (∀ s, s ∈ queries
          ↔ ∃ choice, List.Forall₂ (fun q m => q ∈ src.written m) choice (outside ++ [e])
              ∧ s = " and ".intercalate choice)
      ∧ (src.items [] nodes).tokens
          = src.opening [] outside
            ++ ((src.items around e.before).tokens
              ++ .mediaStart queries
                :: ((src.items queries e.statement.blockNodes).tokens
                  ++ .mediaEnd :: ((src.items around e.after).tokens ++ src.closing [] outside)))
      ∧ ∀ before rule after, e.statement.blockNodes = before ++ rule :: after →
          rule.kind = .ruleSet →
          (∀ body media, .declaration body media ∈ (src.ruleSet queries rule).tokens →
              media = queries)
            ∧ ((src.items queries e.statement.blockNodes).tokens
                  = (src.items queries before).tokens
                    ++ ((src.ruleSet queries rule).tokens ++ (src.items queries after).tokens)
                ∨ ∃ front broken, before = front ++ [broken] ∧ src.startsAtRule broken = true
                    ∧ (src.items queries e.statement.blockNodes).tokens
                      = (src.items queries front).tokens
                        ++ .raw (src.joined broken rule) :: (src.items queries after).tokens) := by
  intro around queries
  have hscope : queries = src.queries around e.statement := by
    show src.scope [] (outside ++ [e]) = _
    unfold scope
    rw [List.foldl_append]
    rfl
  obtain ⟨houtside, hlast⟩ := Nested.of_append hnested
  obtain ⟨hnodes, hkind, -⟩ := hlast
  refine ⟨?_, ?_, ?_, ?_⟩
  · rw [hscope]
    exact nodup_combineQueries _ _
  · intro s
    obtain ⟨first, rest, hchain⟩ := List.exists_cons_of_ne_nil (l := outside ++ [e]) (by simp)
    show s ∈ src.scope [] (outside ++ [e]) ↔ _
    rw [hchain] at hqueries ⊢
    exact src.mem_scope_top hqueries s
  · rw [src.items_nested houtside [], hnodes, src.items_enclosure around hkind, ← hscope]
    simp [around]
  · intro before rule after hblock hrule
    refine ⟨fun body media h => media_of_mem_ruleSet h, ?_⟩
    rw [hblock]
    exact src.items_ruleSet queries before hrule after

/-- `@media a,b{@media c,c{p{top:0}}}` -/
def twoLevels : Source := Source.ofString "@media a,b\x7b@media c,c\x7bp\x7btop:0\x7d\x7d\x7d"

/-- A query of one letter. -/
def letterQuery (start : Nat) : Node := .mk (.named "keyword_query") ⟨start, start + 1⟩ []

def twoLevelsRule : Node :=
  .mk .ruleSet ⟨22, 30⟩
    [.mk .selectors ⟨22, 23⟩ [.mk (.named "tag_name") ⟨22, 23⟩ []],
      .mk .block ⟨23, 30⟩
        [.mk .openBrace ⟨23, 24⟩ [],
          .mk .declaration ⟨24, 29⟩
            [.mk .propertyName ⟨24, 27⟩ [], .mk .colon ⟨27, 28⟩ [],
              .mk (.named "integer_value") ⟨28, 29⟩ []],
          .mk .closeBrace ⟨29, 30⟩ []]]

/-- The inner statement, which names its one query twice. -/
def innerLevel : Enclosure where
  before := [.mk .openBrace ⟨10, 11⟩ []]
  statement := .mk .mediaStatement ⟨11, 31⟩
    [.mk (.literal "@media") ⟨11, 17⟩ [], letterQuery 18, .mk (.literal ",") ⟨19, 20⟩ [],
      letterQuery 20,
      .mk .block ⟨21, 31⟩
        [.mk .openBrace ⟨21, 22⟩ [], twoLevelsRule, .mk .closeBrace ⟨30, 31⟩ []]]
  after := [.mk .closeBrace ⟨31, 32⟩ []]

def outerLevel : Enclosure where
  before := []
  statement := .mk .mediaStatement ⟨0, 32⟩
    [.mk (.literal "@media") ⟨0, 6⟩ [], letterQuery 7, .mk (.literal ",") ⟨8, 9⟩ [],
      letterQuery 9,
      .mk .block ⟨10, 32⟩ (innerLevel.before ++ innerLevel.statement :: innerLevel.after)]
  after := []

theorem twoLevels_carry_choices :
    Nested [outerLevel.statement] ([outerLevel] ++ [innerLevel])
      ∧ (∀ m ∈ [outerLevel] ++ [innerLevel], m.statement.heading ≠ [])
      ∧ (∀ s, s ∈ ["a and c", "b and c"]
          ↔ ∃ choice, List.Forall₂ (fun q m => q ∈ twoLevels.written m) choice
              ([outerLevel] ++ [innerLevel]) ∧ s = " and ".intercalate choice)
      ∧ (twoLevels.items [] [outerLevel.statement]).tokens
          = [.mediaStart ["a", "b"], .mediaStart ["a and c", "b and c"], .rulesetStart ["p"],
              .declaration ⟨"top", "0", false, true⟩ ["a and c", "b and c"], .rulesetEnd,
              .mediaEnd, .mediaEnd] := by
  have hnested : Nested [outerLevel.statement] ([outerLevel] ++ [innerLevel]) :=
    ⟨rfl, rfl, rfl, rfl, trivial⟩
  have hqueries : ∀ m ∈ [outerLevel] ++ [innerLevel], m.statement.heading ≠ [] := by
    simp only [List.singleton_append, List.forall_mem_cons, List.not_mem_nil, false_imp_iff,
      implies_true, and_true]
    exact ⟨by decide, by decide⟩
  have hscope : twoLevels.scope [] ([outerLevel] ++ [innerLevel]) = ["a and c", "b and c"] := by
    decide +kernel
  obtain ⟨-, hmem, -, -⟩ := nested_media_carry_choices twoLevels hnested hqueries
  rw [hscope] at hmem
  exact ⟨hnested, hqueries, hmem, by decide +kernel⟩

end Source

end CssNest
