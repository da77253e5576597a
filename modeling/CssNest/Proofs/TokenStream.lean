import CssNest.Proofs.Rule
import CssNest.Token.Emission

/-!
# The grammar of token streams

Whatever the syntax tree looks like, the tokens that it is flattened into are well nested:
each group that is opened is closed again, with only its own kind of tokens in between. So
nothing downstream has to cope with a ruleset left open or closed twice.

`Stream` is that grammar. It also says two things that a bare grammar would not: a
declaration carries the queries of the innermost open `@media`, which is why `Stream` has
these queries as an index, and a declaration marked as the last one of its group is
followed by no other.

The proof goes along the flattening: one lemma for each kind of node, and an induction
over the tree for `@media`, the only construct that holds items again.
-/

namespace CssNest

namespace Token

/-! ## The grammar -/

/--
What stands in the braces of a group, where `make` makes the group's declarations. One that
is marked as the last is followed by comments and raw text only.
-/
inductive Group (make : Declaration → Token) : List Token → Prop where
  | nil : Group make []
  | declaration {rest : List Token} (d : Declaration) :
      (d.isLast = true → ∀ d', make d' ∉ rest) → Group make rest → Group make (make d :: rest)
  | comment {rest : List Token} (text : String) : Group make rest →
      Group make (.comment text :: rest)
  | raw {rest : List Token} (text : String) : Group make rest → Group make (.raw text :: rest)

/-- What stands in the braces of a `@keyframes`: keyframes and comments. -/
inductive Keyframes : List Token → Prop where
  | nil : Keyframes []
  | keyframe {body rest : List Token} (selectors : List String) :
      Group .keyframeDeclaration body → Keyframes rest →
      Keyframes (.keyframeStart selectors :: (body ++ .keyframeEnd :: rest))
  | comment {rest : List Token} (text : String) : Keyframes rest →
      Keyframes (.comment text :: rest)

/-- The items of a stylesheet, or of an `@media` block with the queries `media`. -/
inductive Stream : List String → List Token → Prop where
  | nil {media : List String} : Stream media []
  | ruleset {media : List String} {body rest : List Token} (selectors : List String) :
      Group (fun d => .declaration d media) body → Stream media rest →
      Stream media (.rulesetStart selectors :: (body ++ .rulesetEnd :: rest))
  | media {media : List String} {inner rest : List Token} (queries : List String) :
      Stream queries inner → Stream media rest →
      Stream media (.mediaStart queries :: (inner ++ .mediaEnd :: rest))
  | fontFace {media : List String} {body rest : List Token} :
      Group .fontFaceDeclaration body → Stream media rest →
      Stream media (.fontFaceStart :: (body ++ .fontFaceEnd :: rest))
  | keyframes {media : List String} {inner rest : List Token} (keyword name : String) :
      Keyframes inner → Stream media rest →
      Stream media (.keyframesStart keyword name :: (inner ++ .keyframesEnd :: rest))
  | charset {media : List String} {rest : List Token} (value : String) :
      Stream media rest → Stream media (.charset value :: rest)
  | comment {media : List String} {rest : List Token} (text : String) :
      Stream media rest → Stream media (.comment text :: rest)
  | raw {media : List String} {rest : List Token} (text : String) :
      Stream media rest → Stream media (.raw text :: rest)

/--
Read from left to right, with the queries of the open `@media` blocks on a stack: every
declaration has the queries on top, or none if no block is open.
-/
def CarryMedia : List (List String) → List Token → Prop
  | _, [] => True
  | stack, .mediaStart queries :: rest => CarryMedia (queries :: stack) rest
  | stack, .mediaEnd :: rest => CarryMedia stack.tail rest
  | stack, .declaration _ media :: rest => media = stack.headD [] ∧ CarryMedia stack rest
  | stack, _ :: rest => CarryMedia stack rest

/-- What follows a list that begins with a group follows the rest of that list. -/
theorem enclosed_append (opening closing : Token) (body rest more : List Token) :
    opening :: (body ++ closing :: rest) ++ more
      = opening :: (body ++ closing :: (rest ++ more)) := by
  simp

/-- One stream after another is a stream. -/
theorem Stream.append {media : List String} {a b : List Token} (ha : Stream media a)
    (hb : Stream media b) : Stream media (a ++ b) := by
  induction ha with
  | nil => exact hb
  | ruleset selectors hbody _ ih =>
      rw [enclosed_append]
      exact .ruleset selectors hbody (ih hb)
  | media queries hinner _ _ ih =>
      rw [enclosed_append]
      exact .media queries hinner (ih hb)
  | fontFace hbody _ ih =>
      rw [enclosed_append]
      exact .fontFace hbody (ih hb)
  | keyframes keyword name hinner _ ih =>
      rw [enclosed_append]
      exact .keyframes keyword name hinner (ih hb)
  | charset value _ ih => exact .charset value (ih hb)
  | comment text _ ih => exact .comment text (ih hb)
  | raw text _ ih => exact .raw text (ih hb)

theorem Keyframes.append {a b : List Token} (ha : Keyframes a) (hb : Keyframes b) :
    Keyframes (a ++ b) := by
  induction ha with
  | nil => exact hb
  | keyframe selectors hbody _ ih =>
      rw [enclosed_append]
      exact .keyframe selectors hbody ih
  | comment text _ ih => exact .comment text ih

end Token

namespace Source

open Token (Group Keyframes Stream)

/-! ## Blocks -/

@[simp] theorem tokens_append (a b : Emission) : (a ++ b).tokens = a.tokens ++ b.tokens := rfl

@[simp] theorem tokens_between (opening closing : Token) (inner : Emission) :
    (Emission.between opening closing inner).tokens = opening :: (inner.tokens ++ [closing]) := rfl

/--
All that one node adds to a block: a declaration, marked as the last if no declaration
node follows, a comment, raw text, or nothing.
-/
theorem blockItems_cons_cases (src : Source) (make : Declaration → Token) (n : Node)
    (rest : List Node) :
    (n.isDeclaration = true ∧ ∃ d, d.isLast = rest.all (fun r => !r.isDeclaration)
        ∧ (src.blockItems make (n :: rest)).tokens = make d :: (src.blockItems make rest).tokens)
      ∨ (∃ text, (src.blockItems make (n :: rest)).tokens
          = .comment text :: (src.blockItems make rest).tokens)
      ∨ (∃ text, (src.blockItems make (n :: rest)).tokens
          = .raw text :: (src.blockItems make rest).tokens)
      ∨ (src.blockItems make (n :: rest)).tokens = (src.blockItems make rest).tokens := by
  rw [blockItems, tokens_append]
  split
  · rename_i hn
    cases hdecl : src.declaration? n (rest.all fun r => !r.isDeclaration) with
    | none => exact .inr (.inr (.inr rfl))
    | some d =>
        obtain ⟨property, _, hd⟩ := Option.map_eq_some_iff.mp hdecl
        exact .inl ⟨hn, d, by rw [← hd], rfl⟩
  · split
    · exact .inr (.inl ⟨_, rfl⟩)
    · split
      · exact .inr (.inr (.inr rfl))
      · split
        · exact .inr (.inr (.inr rfl))
        · split
          · exact .inr (.inr (.inl ⟨_, rfl⟩))
          · exact .inr (.inr (.inr rfl))

/-- Without declaration nodes a block has comments and raw text only. -/
theorem blockItems_without_declarations (src : Source) (make : Declaration → Token)
    {nodes : List Node} (h : nodes.all (fun n => !n.isDeclaration) = true) :
    ∀ t ∈ (src.blockItems make nodes).tokens,
      (∃ text, t = .comment text) ∨ ∃ text, t = .raw text := by
  induction nodes with
  | nil =>
      intro t ht
      rw [blockItems] at ht
      exact absurd ht (by simp [Emission.empty])
  | cons n rest ih =>
      rw [List.all_cons, Bool.and_eq_true] at h
      rcases src.blockItems_cons_cases make n rest with ⟨hn, _⟩ | ⟨text, hts⟩ | ⟨text, hts⟩ | hts
      · rw [hn] at h
        exact absurd h.1 (by decide)
      · rw [hts]
        exact List.forall_mem_cons.mpr ⟨.inl ⟨text, rfl⟩, ih h.2⟩
      · rw [hts]
        exact List.forall_mem_cons.mpr ⟨.inr ⟨text, rfl⟩, ih h.2⟩
      · rw [hts]
        exact ih h.2

/-- The contents of any block form a group. -/
theorem blockItems_group (src : Source) {make : Declaration → Token}
    (hcomment : ∀ d text, make d ≠ .comment text) (hraw : ∀ d text, make d ≠ .raw text)
    (nodes : List Node) : Group make (src.blockItems make nodes).tokens := by
  induction nodes with
  | nil => rw [blockItems]; exact .nil
  | cons n rest ih =>
      rcases src.blockItems_cons_cases make n rest
        with ⟨_, d, hlast, hts⟩ | ⟨text, hts⟩ | ⟨text, hts⟩ | hts
      · rw [hts]
        refine .declaration d ?_ ih
        intro hd d' hd'
        -- the mark says that no declaration node is left, so none is made any more
        have hnone : rest.all (fun r => !r.isDeclaration) = true := by rw [← hlast, hd]
        rcases blockItems_without_declarations src make hnone _ hd' with ⟨text, h⟩ | ⟨text, h⟩
        · exact hcomment d' text h
        · exact hraw d' text h
      · rw [hts]
        exact .comment text ih
      · rw [hts]
        exact .raw text ih
      · rw [hts]
        exact ih

/-! ## Statements -/

theorem verbatim_stream (src : Source) (media : List String) (n : Node) :
    Stream media (src.verbatim n).tokens := .raw _ .nil

theorem brokenAtRule_stream (media : List String) (text : String) :
    Stream media (brokenAtRule text).tokens := .raw _ .nil

theorem ruleSet_stream (src : Source) (media : List String) (n : Node) :
    Stream media (src.ruleSet media n).tokens := by
  rw [ruleSet]
  split
  · exact brokenAtRule_stream media _
  · split
    · rw [tokens_between]
      exact .ruleset _ (src.blockItems_group (by simp) (by simp) _) .nil
    · exact .nil

theorem charset_stream (src : Source) (media : List String) (n : Node) :
    Stream media (src.charset n).tokens := by
  rw [charset]
  split
  · exact .charset _ .nil
  · exact .nil

theorem keyframe_keyframes (src : Source) (n : Node) : Keyframes (src.keyframe n).tokens := by
  rw [keyframe, tokens_between, block]
  refine .keyframe _ ?_ .nil
  split
  · exact src.blockItems_group (by simp) (by simp) _
  · exact .nil

theorem keyframeItem_keyframes (src : Source) (n : Node) :
    Keyframes (src.keyframeItem n).tokens := by
  rw [keyframeItem]
  split
  · exact src.keyframe_keyframes n
  · split
    · exact .comment _ .nil
    · exact .nil

/-- Any list of nodes between the braces of a `@keyframes` gives keyframes and comments. -/
theorem keyframeItems_keyframes (src : Source) (nodes : List Node) :
    Keyframes (Emission.join (nodes.map src.keyframeItem)).tokens := by
  induction nodes with
  | nil => exact .nil
  | cons n nodes ih => exact (src.keyframeItem_keyframes n).append ih

theorem keyframes_stream (src : Source) (media : List String) (n : Node) :
    Stream media (src.keyframes n).tokens := by
  rw [keyframes, tokens_between]
  exact .keyframes _ _ (src.keyframeItems_keyframes _) .nil

theorem atRule_stream (src : Source) (media : List String) (n : Node) :
    Stream media (src.atRule n).tokens := by
  rw [atRule]
  split
  · rw [tokens_between]
    exact .fontFace (src.blockItems_group (by simp) (by simp) _) .nil
  · exact src.verbatim_stream media n

theorem plainItem_stream (src : Source) (media : List String) (n : Node) :
    Stream media (src.plainItem n).tokens := by
  rw [plainItem]
  split
  · exact src.charset_stream media n
  · split
    · exact src.keyframes_stream media n
    · split
      · exact src.atRule_stream media n
      · split
        · exact .comment _ .nil
        · split
          · exact .nil
          · split
            · exact src.verbatim_stream media n
            · exact .nil

/-! ## The whole tree -/

mutual

/-- Any list of nodes is flattened into a stream. -/
theorem items_stream (src : Source) (media : List String) :
    ∀ nodes : List Node, Stream media (src.items media nodes).tokens
  | [] => by rw [items]; exact .nil
  | [n] => by rw [items]; exact item_stream src media n
  | n :: next :: rest => by
      rw [items]
      split
      · exact (brokenAtRule_stream media _).append (items_stream src media rest)
      · exact (item_stream src media n).append (items_stream src media (next :: rest))

theorem item_stream (src : Source) (media : List String) :
    ∀ n : Node, Stream media (src.item media n).tokens
  | .mk kind span children => by
      rw [item]
      split
      · exact src.ruleSet_stream media _
      · split
        · dsimp only
          rw [tokens_between]
          exact .media _ (mediaBlock_stream src _ children) .nil
        · exact src.plainItem_stream media _

theorem mediaBlock_stream (src : Source) (media : List String) :
    ∀ nodes : List Node, Stream media (src.mediaBlock media nodes).tokens
  | [] => by rw [mediaBlock]; exact .nil
  | .mk kind span children :: rest => by
      rw [mediaBlock]
      split
      · exact items_stream src media children
      · exact mediaBlock_stream src media rest

end

end Source

/-! ## What the grammar gives to its readers -/

namespace Token

/-- A group changes nothing about the open `@media` blocks. -/
theorem Group.carryMedia {make : Declaration → Token} {stack : List (List String)}
    {body rest : List Token} (h : Group make body)
    (hmake : ∀ d rest, CarryMedia stack rest → CarryMedia stack (make d :: rest))
    (hrest : CarryMedia stack rest) : CarryMedia stack (body ++ rest) := by
  induction h with
  | nil => exact hrest
  | declaration d _ _ ih => exact hmake d _ ih
  | comment text _ ih => exact ih
  | raw text _ ih => exact ih

theorem Keyframes.carryMedia {stack : List (List String)} {inner rest : List Token}
    (h : Keyframes inner) (hrest : CarryMedia stack rest) : CarryMedia stack (inner ++ rest) := by
  induction h with
  | nil => exact hrest
  | keyframe selectors hbody _ ih =>
      rw [enclosed_append]
      show CarryMedia stack (_ ++ _)
      exact hbody.carryMedia (fun _ _ hr => hr) ih
  | comment text _ ih => exact ih

/-- Every declaration of a stream carries the queries of the innermost open block. -/
theorem Stream.carryMedia {media : List String} {ts : List Token} (h : Stream media ts) :
    ∀ {stack : List (List String)} {rest : List Token}, stack.headD [] = media →
      CarryMedia stack rest → CarryMedia stack (ts ++ rest) := by
  induction h with
  | nil => intro stack rest _ hrest; exact hrest
  | ruleset selectors hbody _ ih =>
      intro stack rest hmedia hrest
      rw [enclosed_append]
      show CarryMedia stack (_ ++ _)
      exact hbody.carryMedia (fun _ _ hr => ⟨hmedia.symm, hr⟩) (ih hmedia hrest)
  | media queries _ _ ihinner ih =>
      intro stack rest hmedia hrest
      rw [enclosed_append]
      -- inside, the new queries are on top; behind the end, the old ones are again
      show CarryMedia (queries :: stack) (_ ++ _)
      exact ihinner rfl (ih hmedia hrest)
  | fontFace hbody _ ih =>
      intro stack rest hmedia hrest
      rw [enclosed_append]
      show CarryMedia stack (_ ++ _)
      exact hbody.carryMedia (fun _ _ hr => hr) (ih hmedia hrest)
  | keyframes keyword name hinner _ ih =>
      intro stack rest hmedia hrest
      rw [enclosed_append]
      show CarryMedia stack (_ ++ _)
      exact hinner.carryMedia (ih hmedia hrest)
  | charset value _ ih => intro stack rest hmedia hrest; exact ih hmedia hrest
  | comment text _ ih => intro stack rest hmedia hrest; exact ih hmedia hrest
  | raw text _ ih => intro stack rest hmedia hrest; exact ih hmedia hrest

/-- The selectors of a token that opens a ruleset. -/
def selectors? : Token → Option (List String)
  | .rulesetStart selectors => some selectors
  | _ => none

/-- Whether the token is a declaration of a ruleset. -/
def isDeclaration : Token → Bool
  | .declaration _ _ => true
  | _ => false

/-- What holds of a group's declarations, of comments and of raw text holds of its tokens. -/
theorem Group.forall_mem {make : Declaration → Token} {p : Token → Prop} {body : List Token}
    (h : Group make body) (hmake : ∀ d, p (make d)) (hcomment : ∀ text, p (.comment text))
    (hraw : ∀ text, p (.raw text)) : ∀ t ∈ body, p t := by
  induction h with
  | nil => simp
  | declaration d _ _ ih => exact List.forall_mem_cons.mpr ⟨hmake d, ih⟩
  | comment text _ ih => exact List.forall_mem_cons.mpr ⟨hcomment text, ih⟩
  | raw text _ ih => exact List.forall_mem_cons.mpr ⟨hraw text, ih⟩

/-- Tokens that extraction keeps outside rules, if it meets them there. -/
def StaysOutside (t : Token) : Prop := t.isBoundary = false ∧ t.isDeclaration = false

theorem Keyframes.staysOutside {inner : List Token} (h : Keyframes inner) :
    ∀ t ∈ inner, t.StaysOutside := by
  induction h with
  | nil => simp
  | keyframe selectors hbody _ ih =>
      intro t ht
      rw [List.mem_cons, List.mem_append, List.mem_cons] at ht
      rcases ht with rfl | ht | rfl | ht
      · exact ⟨rfl, rfl⟩
      · exact hbody.forall_mem (fun _ => ⟨rfl, rfl⟩) (fun _ => ⟨rfl, rfl⟩)
          (fun _ => ⟨rfl, rfl⟩) t ht
      · exact ⟨rfl, rfl⟩
      · exact ih t ht
  | comment text _ ih => exact List.forall_mem_cons.mpr ⟨⟨rfl, rfl⟩, ih⟩

/--
An extraction that took a stream apart without loss: there was nothing to say about it,
each ruleset became a rule, each token inside or outside rulesets was kept, and no
declaration was left outside.
-/
structure Faithful (ts : List Token) (e : Extraction) : Prop where
  records : e.records = []
  rules : e.rules.map Rule.selectors = ts.filterMap selectors?
  tokens : (e.topLevel ++ e.rules.flatMap Rule.body).Perm (ts.filter fun t => !t.isBoundary)
  outside : ∀ t ∈ e.topLevel, t.isDeclaration = false

theorem Faithful.append {a b : List Token} {e f : Extraction} (he : Faithful a e)
    (hf : Faithful b f) : Faithful (a ++ b) (e ++ f) := by
  refine ⟨?_, ?_, ?_, ?_⟩
  · rw [Extraction.records_append, he.records, hf.records, List.append_nil]
  · rw [Extraction.rules_append, List.map_append, he.rules, hf.rules, List.filterMap_append]
  · rw [Extraction.topLevel_append, Extraction.rules_append, List.flatMap_append,
      List.filter_append]
    refine List.Perm.trans ?_ (he.tokens.append hf.tokens)
    -- only the two inner parts have to change places
    rw [List.append_assoc, List.append_assoc]
    refine List.Perm.append_left _ ?_
    rw [← List.append_assoc, ← List.append_assoc]
    exact List.Perm.append_right _ List.perm_append_comm
  · intro t ht
    rw [Extraction.topLevel_append, List.mem_append] at ht
    rcases ht with ht | ht
    · exact he.outside t ht
    · exact hf.outside t ht

/-- A part of a stream that extraction takes apart without loss and leaves as it came. -/
def Extracts (ts : List Token) : Prop :=
  ∃ e, Faithful ts e
    ∧ ∀ rest, Rule.extractFrom none (ts ++ rest) = e ++ Rule.extractFrom none rest

theorem Extracts.append {a b : List Token} (ha : Extracts a) (hb : Extracts b) :
    Extracts (a ++ b) := by
  obtain ⟨e, he, hext⟩ := ha
  obtain ⟨f, hf, hext'⟩ := hb
  refine ⟨e ++ f, he.append hf, ?_⟩
  intro rest
  rw [List.append_assoc, hext, hext', Extraction.append_assoc]

theorem filterMap_selectors_eq_nil {ts : List Token} (h : ∀ t ∈ ts, t.isBoundary = false) :
    ts.filterMap selectors? = [] := by
  rw [List.filterMap_eq_nil_iff]
  intro t ht
  cases t with
  | rulesetStart selectors => exact absurd (h _ ht) (by simp [isBoundary])
  | _ => rfl

theorem filter_inner_eq_self {ts : List Token} (h : ∀ t ∈ ts, t.isBoundary = false) :
    ts.filter (fun t => !t.isBoundary) = ts := by
  rw [List.filter_eq_self]
  intro t ht
  rw [h t ht]
  rfl

/-- Tokens that stay outside are kept as they are. -/
theorem extracts_outside {ts : List Token} (h : ∀ t ∈ ts, t.StaysOutside) : Extracts ts := by
  have hb : ∀ t ∈ ts, t.isBoundary = false := fun t ht => (h t ht).1
  refine ⟨{ topLevel := ts }, ⟨rfl, ?_, ?_, fun t ht => (h t ht).2⟩, Rule.extractFrom_none_body hb⟩
  · rw [filterMap_selectors_eq_nil hb]
    rfl
  · rw [filter_inner_eq_self hb]
    simp

theorem extracts_one {t : Token} (h : t.StaysOutside) : Extracts [t] := by
  apply extracts_outside
  intro u hu
  rw [List.mem_singleton.mp hu]
  exact h

/-- So is a group of which every token stays outside. -/
theorem extracts_enclosed {opening closing : Token} {body : List Token}
    (hopening : opening.StaysOutside) (hclosing : closing.StaysOutside)
    (hbody : ∀ t ∈ body, t.StaysOutside) : Extracts (opening :: (body ++ [closing])) := by
  apply extracts_outside
  intro t ht
  rw [List.mem_cons, List.mem_append, List.mem_singleton] at ht
  rcases ht with rfl | ht | rfl
  · exact hopening
  · exact hbody t ht
  · exact hclosing

/-- A ruleset becomes a rule with all that it holds. -/
theorem extracts_ruleset (selectors : List String) {body : List Token}
    (h : ∀ t ∈ body, t.isBoundary = false) :
    Extracts (.rulesetStart selectors :: (body ++ [.rulesetEnd])) := by
  refine ⟨{ rules := [⟨selectors, body⟩] }, ⟨rfl, ?_, ?_, by simp⟩, ?_⟩
  · rw [List.filterMap_cons, List.filterMap_append, filterMap_selectors_eq_nil h]
    rfl
  · rw [List.filter_cons_of_neg (by simp [isBoundary]), List.filter_append,
      filter_inner_eq_self h]
    simp [isBoundary]
  · intro rest
    rw [List.cons_append, List.append_assoc, Rule.extractFrom_rulesetStart,
      Rule.extractFrom_some_body h, List.singleton_append, Rule.extractFrom_some_rulesetEnd]
    rfl

/-- The tokens around an `@media` block are passed over. -/
theorem extracts_media (queries : List String) {inner : List Token} (h : Extracts inner) :
    Extracts (.mediaStart queries :: (inner ++ [.mediaEnd])) := by
  obtain ⟨e, he, hext⟩ := h
  refine ⟨e, ⟨he.records, ?_, ?_, he.outside⟩, ?_⟩
  · rw [he.rules, List.filterMap_cons, List.filterMap_append]
    exact (List.append_nil _).symm
  · rw [List.filter_cons_of_neg (by simp [isBoundary]), List.filter_append]
    refine he.tokens.trans ?_
    simp [isBoundary]
  · intro rest
    rw [List.cons_append, List.append_assoc, Rule.extractFrom_mediaStart, hext]
    rfl

/-- Extraction takes every stream apart without loss. -/
theorem Stream.extracts {media : List String} {ts : List Token} (h : Stream media ts) :
    Extracts ts := by
  -- a group with what follows it, as the two parts that are treated one after the other
  have split : ∀ (opening closing : Token) (body rest : List Token),
      opening :: (body ++ closing :: rest) = opening :: (body ++ [closing]) ++ rest :=
    fun opening closing body rest => (enclosed_append opening closing body [] rest).symm
  induction h with
  | nil => exact extracts_outside (by simp)
  | ruleset selectors hbody _ ih =>
      rw [split]
      exact (extracts_ruleset selectors
        (hbody.forall_mem (fun _ => rfl) (fun _ => rfl) (fun _ => rfl))).append ih
  | media queries _ _ ihinner ih =>
      rw [split]
      exact (extracts_media queries ihinner).append ih
  | fontFace hbody _ ih =>
      rw [split]
      exact (extracts_enclosed ⟨rfl, rfl⟩ ⟨rfl, rfl⟩ (hbody.forall_mem (fun _ => ⟨rfl, rfl⟩)
        (fun _ => ⟨rfl, rfl⟩) (fun _ => ⟨rfl, rfl⟩))).append ih
  | keyframes keyword name hinner _ ih =>
      rw [split]
      exact (extracts_enclosed ⟨rfl, rfl⟩ ⟨rfl, rfl⟩ hinner.staysOutside).append ih
  | charset value _ ih => exact (extracts_one ⟨rfl, rfl⟩).append ih
  | comment text _ ih => exact (extracts_one ⟨rfl, rfl⟩).append ih
  | raw text _ ih => exact (extracts_one ⟨rfl, rfl⟩).append ih

end Token

/--
**What a syntax tree is flattened into is well nested.** Under any stack of open `@media`
blocks, any list of nodes gives a stream of the grammar in which each declaration has the
queries of the innermost open block. So extraction has nothing to complain about: each
ruleset becomes a rule, no token is lost, and no declaration is left outside the rules.
-/
theorem Source.items_wellNested (src : Source) (stack : List (List String)) (nodes : List Node) :
    let tokens := (src.items (stack.headD []) nodes).tokens
    Token.Stream (stack.headD []) tokens ∧ Token.CarryMedia stack tokens
      ∧ Token.Faithful tokens (Rule.extract tokens) := by
  intro tokens
  have hstream : Token.Stream (stack.headD []) tokens := src.items_stream _ nodes
  refine ⟨hstream, ?_, ?_⟩
  · have hcarry : Token.CarryMedia stack (tokens ++ []) := hstream.carryMedia rfl trivial
    rwa [List.append_nil] at hcarry
  · obtain ⟨e, he, hext⟩ := hstream.extracts
    have hextract : Rule.extract tokens = e := by
      have := hext []
      rw [List.append_nil] at this
      rw [Rule.extract, this]
      show Extraction.mk _ _ _ = e
      simp [Rule.extractFrom]
    rw [hextract]
    exact he

end CssNest
