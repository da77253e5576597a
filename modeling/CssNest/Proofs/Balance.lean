import CssNest.Proofs.Characters
import CssNest.Proofs.TokenStream

/-!
# Braces balance

The braces of the output come from three places. The variables have none. The tokens outside
rulesets bring their own, one token at a time: the opening brace of a `@keyframes` and the closing
one are different tokens, and extraction takes rulesets and the ends of `@media` blocks out from
between them. The sheet writes a pair around each nested block.

That the middle part balances hangs on the stream: a group that is opened is closed again, and
none of its tokens is lost on the way, since rulesets never stand inside another group. For the
sheet it is enough that no segment and no rule text has a brace of its own. There the indentation
tells the depth too, so the lines are read with the depth carried along.
-/

namespace CssNest

/-! ## Balanced texts -/

/-- No brace is closed before it is opened, and none is left open. -/
structure Balanced (cs : List Char) : Prop where
  /-- Every prefix has at least as many opening braces as closing ones. -/
  sane : ∀ p, p <+: cs → p.count '\x7d' ≤ p.count '\x7b'
  /-- The whole has equally many. -/
  settled : cs.count '\x7b' = cs.count '\x7d'

/-- Any character but a brace. -/
def NoBrace (c : Char) : Prop := c ≠ '\x7b' ∧ c ≠ '\x7d'

theorem count_eq_zero_of_noBrace {cs : List Char} (h : ∀ x ∈ cs, NoBrace x) :
    cs.count '\x7b' = 0 ∧ cs.count '\x7d' = 0 := by
  rw [List.count_eq_zero, List.count_eq_zero]
  exact ⟨fun hmem => (h _ hmem).1 rfl, fun hmem => (h _ hmem).2 rfl⟩

theorem balanced_of_noBrace {cs : List Char} (h : ∀ x ∈ cs, NoBrace x) : Balanced cs := by
  refine ⟨?_, ?_⟩
  · intro p hp
    rw [(count_eq_zero_of_noBrace fun x hx => h x (hp.subset hx)).2]
    exact Nat.zero_le _
  · rw [(count_eq_zero_of_noBrace h).1, (count_eq_zero_of_noBrace h).2]

/-- One balanced text after another is balanced: where the second starts, nothing is open. -/
theorem Balanced.append {cs ds : List Char} (hc : Balanced cs) (hd : Balanced ds) :
    Balanced (cs ++ ds) := by
  refine ⟨?_, ?_⟩
  · intro p hp
    rcases List.prefix_or_prefix_of_prefix hp (List.prefix_append cs ds) with h | ⟨q, rfl⟩
    · exact hc.sane p h
    · have hq := hd.sane q ((List.prefix_append_right_inj cs).mp hp)
      have hsettled := hc.settled
      rw [List.count_append, List.count_append]
      omega
  · rw [List.count_append, List.count_append, hc.settled, hd.settled]

/-- Braces around a balanced text. -/
theorem Balanced.enclosed {cs : List Char} (h : Balanced cs) :
    Balanced ('\x7b' :: (cs ++ ['\x7d'])) := by
  have hopen : ∀ q : List Char, ('\x7b' :: q).count '\x7b' = q.count '\x7b' + 1
      ∧ ('\x7b' :: q).count '\x7d' = q.count '\x7d' := by
    intro q
    simp
  have hsettled := h.settled
  refine ⟨?_, ?_⟩
  · intro p hp
    cases p with
    | nil => simp
    | cons x q =>
        obtain ⟨rfl, hq⟩ := List.cons_prefix_cons.mp hp
        rw [(hopen q).1, (hopen q).2]
        rcases List.prefix_concat_iff.mp hq with rfl | hq
        · -- the whole text: the last brace closes the first
          rw [List.count_append, List.count_append]
          simp
          omega
        · have := h.sane q hq
          omega
  · rw [(hopen _).1, (hopen _).2, List.count_append, List.count_append]
    simp
    omega

/-- Whether the character is a brace. -/
def isBrace (c : Char) : Bool := c == '\x7b' || c == '\x7d'

/-- Only the braces of a text matter. -/
theorem Balanced.of_filter {cs : List Char} (h : Balanced (cs.filter isBrace)) : Balanced cs := by
  have hcount : ∀ p : List Char, (p.filter isBrace).count '\x7b' = p.count '\x7b'
      ∧ (p.filter isBrace).count '\x7d' = p.count '\x7d' := by
    intro p
    exact ⟨List.count_filter rfl, List.count_filter rfl⟩
  refine ⟨?_, ?_⟩
  · intro p hp
    have := h.sane (p.filter isBrace) (hp.filter isBrace)
    rwa [(hcount p).1, (hcount p).2] at this
  · have := h.settled
    rwa [(hcount cs).1, (hcount cs).2] at this

theorem filter_isBrace_of_noBrace {cs : List Char} (h : ∀ x ∈ cs, NoBrace x) :
    cs.filter isBrace = [] := by
  rw [List.filter_eq_nil_iff]
  intro x hx
  simp [isBrace, (h x hx).1, (h x hx).2]

/-! ## Streams with closed groups -/

namespace Token

/-- The groups that hold declarations. -/
inductive GroupKind where
  | ruleset
  | fontFace
  | keyframe
deriving DecidableEq

/-- What may stand in a group: declarations of its own kind, comments and raw text. -/
def fitsIn (kind : GroupKind) : Token → Bool
  | declaration _ _ => kind == .ruleset
  | fontFaceDeclaration _ => kind == .fontFace
  | keyframeDeclaration _ => kind == .keyframe
  | comment _ | raw _ => true
  | _ => false

/-- What may stand in a `@keyframes`: keyframes and comments. -/
inductive Frames : List Token → Prop where
  | nil : Frames []
  | keyframe {body rest : List Token} (selectors : List String) :
      (∀ t ∈ body, t.fitsIn .keyframe = true) → Frames rest →
      Frames (.keyframeStart selectors :: (body ++ .keyframeEnd :: rest))
  | comment {rest : List Token} (text : String) : Frames rest → Frames (.comment text :: rest)

/--
A stylesheet, or what stands in an `@media` block: rulesets, `@media` blocks with the same in
them, font faces, keyframes, and single tokens, in any order.
-/
inductive Arranged : List Token → Prop where
  | nil : Arranged []
  | ruleset {body rest : List Token} (selectors : List String) :
      (∀ t ∈ body, t.fitsIn .ruleset = true) → Arranged rest →
      Arranged (.rulesetStart selectors :: (body ++ .rulesetEnd :: rest))
  | media {inner rest : List Token} (queries : List String) :
      Arranged inner → Arranged rest →
      Arranged (.mediaStart queries :: (inner ++ .mediaEnd :: rest))
  | fontFace {body rest : List Token} :
      (∀ t ∈ body, t.fitsIn .fontFace = true) → Arranged rest →
      Arranged (.fontFaceStart :: (body ++ .fontFaceEnd :: rest))
  | keyframes {inner rest : List Token} (keyword name : String) :
      Frames inner → Arranged rest →
      Arranged (.keyframesStart keyword name :: (inner ++ .keyframesEnd :: rest))
  | charset {rest : List Token} (value : String) : Arranged rest →
      Arranged (.charset value :: rest)
  | comment {rest : List Token} (text : String) : Arranged rest →
      Arranged (.comment text :: rest)
  | raw {rest : List Token} (text : String) : Arranged rest → Arranged (.raw text :: rest)

/-- What stands in a group of a stream fits in it, whatever is marked as the last. -/
theorem Group.fitsIn {make : Declaration → Token} {kind : GroupKind}
    (hmake : ∀ d, (make d).fitsIn kind = true) {body : List Token} (h : Group make body) :
    ∀ t ∈ body, t.fitsIn kind = true := by
  induction h with
  | nil => simp
  | declaration d _ _ ih => exact List.forall_mem_cons.mpr ⟨hmake d, ih⟩
  | comment text _ ih => exact List.forall_mem_cons.mpr ⟨rfl, ih⟩
  | raw text _ ih => exact List.forall_mem_cons.mpr ⟨rfl, ih⟩

theorem Keyframes.frames {inner : List Token} (h : Keyframes inner) : Frames inner := by
  induction h with
  | nil => exact .nil
  | keyframe selectors hbody _ ih => exact .keyframe selectors (hbody.fitsIn fun _ => rfl) ih
  | comment text _ ih => exact .comment text ih

theorem Stream.arranged {media : List String} {tokens : List Token} (h : Stream media tokens) :
    Arranged tokens := by
  induction h with
  | nil => exact .nil
  | ruleset selectors hbody _ ih => exact .ruleset selectors (hbody.fitsIn fun _ => rfl) ih
  | media queries _ _ ihinner ih => exact .media queries ihinner ih
  | fontFace hbody _ ih => exact .fontFace (hbody.fitsIn fun _ => rfl) ih
  | keyframes keyword name hinner _ ih => exact .keyframes keyword name hinner.frames ih
  | charset value _ ih => exact .charset value ih
  | comment text _ ih => exact .comment text ih
  | raw text _ ih => exact .raw text ih

theorem brace_of_fitsIn {kind : GroupKind} {t : Token} (h : t.fitsIn kind = true) :
    t.brace = [] ∧ t.isBoundary = false := by
  cases t with
  | declaration | fontFaceDeclaration | keyframeDeclaration | comment | raw => exact ⟨rfl, rfl⟩
  | _ => exact absurd h (by simp [fitsIn])

theorem flatMap_brace_of_fitsIn {kind : GroupKind} {body : List Token}
    (h : ∀ t ∈ body, t.fitsIn kind = true) : body.flatMap brace = [] := by
  rw [List.flatMap_eq_nil_iff]
  exact fun t ht => (brace_of_fitsIn (h t ht)).1

/-- The braces of keyframes balance, and extraction treats all of their tokens alike. -/
theorem Frames.balanced {inner : List Token} (h : Frames inner) :
    Balanced (inner.flatMap brace) ∧ ∀ t ∈ inner, t.isBoundary = false := by
  induction h with
  | nil => exact ⟨balanced_of_noBrace (by simp), by simp⟩
  | @keyframe body rest selectors hbody _ ih =>
      refine ⟨?_, ?_⟩
      · have hnil : Balanced [] := balanced_of_noBrace (by simp)
        have hpair : Balanced ['\x7b', '\x7d'] := hnil.enclosed
        rw [List.flatMap_cons, List.flatMap_append, List.flatMap_cons,
          flatMap_brace_of_fitsIn hbody]
        exact hpair.append ih.1
      · intro t ht
        rw [List.mem_cons, List.mem_append, List.mem_cons] at ht
        rcases ht with rfl | ht | rfl | ht
        · rfl
        · exact (brace_of_fitsIn (hbody t ht)).2
        · rfl
        · exact ih.2 t ht
  | comment text _ ih => exact ⟨ih.1, List.forall_mem_cons.mpr ⟨rfl, ih.2⟩⟩

end Token

/-- Every tree is flattened into an arranged stream. -/
theorem Source.items_arranged (src : Source) (media : List String) (nodes : List Node) :
    Token.Arranged (src.items media nodes).tokens :=
  (src.items_stream media nodes).arranged

/-! ## What extraction leaves of the groups -/

/-- The braces outside rules balance, and inside rules there are none. -/
structure Extraction.Closed (e : Extraction) : Prop where
  topLevel : Balanced (e.topLevel.flatMap Token.brace)
  rules : ∀ r ∈ e.rules, ∀ t ∈ r.body, t.brace = []

/-- A run of tokens outside rules, with balanced braces, before what is closed already. -/
theorem Extraction.Closed.outside {body rest : List Token}
    (hbody : ∀ t ∈ body, t.isBoundary = false) (hbalanced : Balanced (body.flatMap Token.brace))
    (h : (Rule.extractFrom none rest).Closed) : (Rule.extractFrom none (body ++ rest)).Closed := by
  rw [Rule.extractFrom_none_body hbody]
  refine ⟨?_, h.rules⟩
  rw [Extraction.topLevel_append, List.flatMap_append]
  exact hbalanced.append h.topLevel

/-- A whole group outside rules. -/
theorem Extraction.Closed.group {opening closing : Token} {inner rest : List Token}
    (hopening : opening.brace = ['\x7b'] ∧ opening.isBoundary = false)
    (hclosing : closing.brace = ['\x7d'] ∧ closing.isBoundary = false)
    (hinner : ∀ t ∈ inner, t.isBoundary = false) (hbalanced : Balanced (inner.flatMap Token.brace))
    (h : (Rule.extractFrom none rest).Closed) :
    (Rule.extractFrom none (opening :: (inner ++ closing :: rest))).Closed := by
  have hsplit :
      opening :: (inner ++ closing :: rest) = opening :: (inner ++ [closing]) ++ rest := by simp
  rw [hsplit]
  refine Extraction.Closed.outside ?_ ?_ h
  · intro t ht
    rw [List.mem_cons, List.mem_append, List.mem_singleton] at ht
    rcases ht with rfl | ht | rfl
    · exact hopening.2
    · exact hinner t ht
    · exact hclosing.2
  · rw [List.flatMap_cons, List.flatMap_append, List.flatMap_singleton, hopening.1, hclosing.1]
    exact hbalanced.enclosed

/-- Extraction keeps the groups of a stream closed, whatever closed stream follows. -/
theorem Token.Arranged.closed {tokens : List Token} (h : Arranged tokens) {rest : List Token}
    (hrest : (Rule.extractFrom none rest).Closed) :
    (Rule.extractFrom none (tokens ++ rest)).Closed := by
  -- the single tokens have no brace and stay where they are
  have hsingle : ∀ {t : Token} {rest : List Token}, t.isBoundary = false → t.brace = [] →
      (Rule.extractFrom none rest).Closed → (Rule.extractFrom none (t :: rest)).Closed := by
    intro t rest hboundary hbrace hclosed
    show (Rule.extractFrom none ([t] ++ rest)).Closed
    refine Extraction.Closed.outside ?_ ?_ hclosed
    · simpa using hboundary
    · rw [List.flatMap_singleton, hbrace]
      exact balanced_of_noBrace (by simp)
  induction h generalizing rest with
  | nil => exact hrest
  | @ruleset body later selectors hbody _ ih =>
      have hinner : ∀ t ∈ body, t.isBoundary = false := fun t ht => (brace_of_fitsIn (hbody t ht)).2
      rw [List.cons_append, List.append_assoc, List.cons_append, Rule.extractFrom_rulesetStart,
        Rule.extractFrom_some_body hinner, Rule.extractFrom_some_rulesetEnd]
      refine ⟨(ih hrest).topLevel, ?_⟩
      intro r hr
      rcases List.mem_cons.mp hr with rfl | hr
      · exact fun t ht => (brace_of_fitsIn (hbody t ht)).1
      · exact (ih hrest).rules r hr
  | @media inner later queries _ _ ihinner ih =>
      rw [List.cons_append, List.append_assoc, List.cons_append, Rule.extractFrom_mediaStart]
      apply ihinner
      rw [Rule.extractFrom_mediaEnd]
      exact ih hrest
  | @fontFace body later hbody _ ih =>
      rw [List.cons_append, List.append_assoc, List.cons_append]
      refine Extraction.Closed.group ⟨rfl, rfl⟩ ⟨rfl, rfl⟩
        (fun t ht => (brace_of_fitsIn (hbody t ht)).2) ?_ (ih hrest)
      rw [flatMap_brace_of_fitsIn hbody]
      exact balanced_of_noBrace (by simp)
  | @keyframes inner later keyword name hinner _ ih =>
      rw [List.cons_append, List.append_assoc, List.cons_append]
      exact Extraction.Closed.group ⟨rfl, rfl⟩ ⟨rfl, rfl⟩ hinner.balanced.2 hinner.balanced.1
        (ih hrest)
  | charset value _ ih => exact hsingle rfl rfl (ih hrest)
  | comment text _ ih => exact hsingle rfl rfl (ih hrest)
  | raw text _ ih => exact hsingle rfl rfl (ih hrest)

section Alike

/-- What holds of one list, and is carried over by the relation, holds of the other. -/
theorem forall_mem_of_forall₂ {α β : Type} {R : α → β → Prop} {p : α → Prop} {q : β → Prop}
    {xs : List α} {ys : List β} (h : List.Forall₂ R xs ys) (hp : ∀ x ∈ xs, p x)
    (hpq : ∀ x y, R x y → p x → q y) : ∀ y ∈ ys, q y := by
  induction h with
  | nil => simp
  | cons hxy _ ih =>
      rw [List.forall_mem_cons] at hp ⊢
      exact ⟨hpq _ _ hxy hp.1, ih hp.2⟩

variable {P : Declaration → Declaration → Prop}

theorem Token.Alike.brace {t t' : Token} (h : Token.Alike P t t') : t.brace = t'.brace := by
  cases h with
  | same t => rfl
  | declaration media hP => rfl

theorem flatMap_brace_alike {ts ts' : List Token} (h : List.Forall₂ (Token.Alike P) ts ts') :
    ts.flatMap Token.brace = ts'.flatMap Token.brace := by
  induction h with
  | nil => rfl
  | cons ht _ ih => rw [List.flatMap_cons, List.flatMap_cons, ht.brace, ih]

/-- Other declarations in the same places change no brace. -/
theorem Extraction.Closed.alike {e e' : Extraction} (h : e.Closed) (ha : Extraction.Alike P e e') :
    e'.Closed := by
  refine ⟨?_, ?_⟩
  · rw [← flatMap_brace_alike ha.topLevel]
    exact h.topLevel
  · refine forall_mem_of_forall₂ ha.rules h.rules ?_
    intro r r' hr hbody
    refine forall_mem_of_forall₂ hr.body hbody ?_
    intro t t' ht hbrace
    rw [← ht.brace]
    exact hbrace

/-- With or without variables, the groups of a stream that was closed come out closed. -/
theorem Token.Arranged.closed_prepare {tokens : List Token} (h : Arranged tokens) (d : Dialect)
    (extracts : Bool) : (Rule.extract (Layout.prepare d extracts tokens).1).Closed := by
  have hnil : (Rule.extractFrom none []).Closed :=
    ⟨balanced_of_noBrace (by simp [Rule.extractFrom]), by simp [Rule.extractFrom]⟩
  have hclosed := h.closed hnil
  rw [List.append_nil] at hclosed
  cases extracts with
  | false => exact hclosed
  | true => exact hclosed.alike (Rule.extractFrom_alike (Variables.extract_alike d tokens) .none)

end Alike

/-! ## The three parts of the output -/

/-- The tokens outside rules, written out, have the braces of the tokens and no others. -/
theorem Layout.filter_renderTopLevel {tokens : List Token} (h : ∀ t ∈ tokens, t.Spelled NoBrace) :
    (renderTopLevel tokens).toList.filter isBrace = tokens.flatMap Token.brace := by
  have hplain : ∀ x, Plain x → NoBrace x := fun x hx => hx.2
  unfold renderTopLevel
  rw [String.toList_join, List.flatMap_map, List.filter_flatMap]
  apply List.flatMap_congr
  intro t ht
  obtain ⟨cs, hcs, hline⟩ := (h t ht).line hplain 0
  rw [String.toList_append, hline, List.filter_append, List.filter_append,
    filter_isBrace_of_noBrace hcs]
  cases t <;> rfl

namespace Block

/-- The lines of a nested block balance if those in it do. -/
theorem balanced_nested {segment : String} (h : Spells NoBrace segment) (level : Nat)
    {ls : List (List Char)} (hls : Balanced (unlines ls)) :
    Balanced (unlines (openingLine level segment :: (ls ++ [closingLine level]))) := by
  have htabs : ∀ x ∈ List.replicate level '\t', NoBrace x :=
    List.forall_mem_replicate.mpr (.inr (by simp [NoBrace]))
  have hbefore : Balanced (ruleLine level segment ++ [' ']) := by
    apply balanced_of_noBrace
    rw [List.forall_mem_append]
    exact ⟨forall_mem_ruleLine (by simp [NoBrace]) h level, by simp [NoBrace]⟩
  have hinner : Balanced (['\n'] ++ unlines ls ++ List.replicate level '\t') :=
    ((balanced_of_noBrace (by simp [NoBrace])).append hls).append (balanced_of_noBrace htabs)
  have hafter : Balanced ['\n'] := balanced_of_noBrace (by simp [NoBrace])
  have hwhole := (hbefore.append hinner.enclosed).append hafter
  simpa [openingLine, closingLine, ruleLine] using hwhole

/-- A block without braces in its segments and rule texts has balanced lines. -/
theorem Spelled.balanced_lines {b : Block} (h : b.Spelled NoBrace) (level : Nat) :
    Balanced (unlines (b.lines level)) := by
  refine h.lines_induction (Q := fun _ ls => Balanced (unlines ls)) ?_ ?_ ?_ ?_ level
  · exact fun _ => balanced_of_noBrace (by simp)
  · intro level ls ls' hls hls'
    rw [unlines_append]
    exact hls.append hls'
  · intro level text ht
    apply balanced_of_noBrace
    rw [unlines_cons, unlines_nil, List.forall_mem_append]
    exact ⟨forall_mem_ruleLine (by simp [NoBrace]) ht level, by simp [NoBrace]⟩
  · exact fun level segment ls hs hls => balanced_nested hs level hls

end Block

/-! ## Indentation -/

/--
Lines that follow each other from a given depth on: each begins with as many tabs as it is
deep, or more. A line that closes a brace stands at the depth that it returns to.
-/
def Indented (depth : Nat) : List (List Char) → Prop
  | [] => True
  | l :: rest =>
    let next := depth + l.count '\x7b' - l.count '\x7d'
    min depth next ≤ (l.takeWhile (· == '\t')).length ∧ Indented next rest

/-- Lines at `level` that bring the depth back to where it was. -/
def Steady (level : Nat) (ls : List (List Char)) : Prop :=
  ∀ depth ≤ level, ∀ rest, Indented depth rest → Indented depth (ls ++ rest)

theorem le_tabs (level : Nat) (cs : List Char) :
    level ≤ ((List.replicate level '\t' ++ cs).takeWhile (· == '\t')).length := by
  rw [List.takeWhile_append_of_pos (by simp), List.length_append, List.length_replicate]
  omega

namespace Block

/-- The braces of the three kinds of lines. -/
theorem count_ruleLine {text : String} (h : Spells NoBrace text) (level : Nat) :
    (ruleLine level text).count '\x7b' = 0 ∧ (ruleLine level text).count '\x7d' = 0 :=
  count_eq_zero_of_noBrace (forall_mem_ruleLine (by simp [NoBrace]) h level)

theorem count_openingLine {segment : String} (h : Spells NoBrace segment) (level : Nat) :
    (openingLine level segment).count '\x7b' = 1
      ∧ (openingLine level segment).count '\x7d' = 0 := by
  have hline : openingLine level segment = ruleLine level segment ++ [' ', '\x7b'] := rfl
  rw [hline, List.count_append, List.count_append, (count_ruleLine h level).1,
    (count_ruleLine h level).2]
  exact ⟨rfl, rfl⟩

theorem count_closingLine (level : Nat) :
    (closingLine level).count '\x7b' = 0 ∧ (closingLine level).count '\x7d' = 1 := by
  simp [closingLine, List.count_replicate]

theorem steady_rule {text : String} (h : Spells NoBrace text) (level : Nat) :
    Steady level [ruleLine level text] := by
  intro depth hdepth rest hrest
  obtain ⟨hopen, hclose⟩ := count_ruleLine h level
  have htabs : level ≤ ((ruleLine level text).takeWhile (· == '\t')).length := le_tabs level _
  show min depth _ ≤ _ ∧ Indented _ rest
  rw [hopen, hclose]
  exact ⟨by omega, hrest⟩

/-- Inside a nested block the depth is one more, and behind it the same as before. -/
theorem steady_nested {segment : String} (h : Spells NoBrace segment) (level : Nat)
    {ls : List (List Char)} (hls : Steady (level + 1) ls) :
    Steady level (openingLine level segment :: (ls ++ [closingLine level])) := by
  intro depth hdepth rest hrest
  obtain ⟨hopen, hclose⟩ := count_openingLine h level
  obtain ⟨hopen', hclose'⟩ := count_closingLine level
  have htabs : level ≤ ((openingLine level segment).takeWhile (· == '\t')).length := by
    unfold openingLine
    rw [List.append_assoc]
    exact le_tabs level _
  have htabs' : level ≤ ((closingLine level).takeWhile (· == '\t')).length := le_tabs level _
  rw [List.cons_append, List.append_assoc]
  -- the opening line stands at the depth around the block, the closing line returns to it
  show min depth _ ≤ _ ∧ Indented _ _
  rw [hopen, hclose]
  refine ⟨by omega, hls (depth + 1) (by omega) _ ?_⟩
  show min (depth + 1) _ ≤ _ ∧ Indented _ rest
  rw [hopen', hclose']
  exact ⟨by omega, hrest⟩

/-- The lines of a block at some level are indented for every depth up to it. -/
theorem Spelled.steady_lines {b : Block} (h : b.Spelled NoBrace) (level : Nat) :
    Steady level (b.lines level) := by
  refine h.lines_induction (Q := Steady) ?_ ?_ ?_ ?_ level
  · exact fun _ _ _ _ hrest => hrest
  · intro level ls ls' hls hls' depth hdepth rest hrest
    rw [List.append_assoc]
    exact hls depth hdepth _ (hls' depth hdepth rest hrest)
  · exact fun level text ht => steady_rule ht level
  · exact fun level segment ls hs hls => steady_nested hs level hls

end Block

namespace Sheet

/-- The lines of the block of one media type. -/
def mediaLines (media : String) (b : Block) : List (List Char) :=
  if media == Token.allMedia then b.lines 0
  else Block.openingLine 0 ("@media " ++ media) :: (b.lines 1 ++ [Block.closingLine 0])

/-- The lines of a sheet. -/
def lines (s : Sheet) : List (List Char) := s.media.toList.flatMap fun e => mediaLines e.1 e.2

theorem toList_render (s : Sheet) : s.render.toList = unlines s.lines := by
  unfold render lines
  rw [String.toList_join, List.flatMap_map, unlines, List.flatMap_assoc]
  apply List.flatMap_congr
  intro e _
  show _ = unlines (mediaLines e.1 e.2)
  unfold renderMedia mediaLines
  split
  · exact Block.toList_render 0 e.2
  · simp [Block.toList_render, Block.openingLine, Block.closingLine]

/-- What holds of no lines and of each media type, and of one part after another, holds of all. -/
theorem lines_forall {Q : List (List Char) → Prop} (hnil : Q [])
    (happend : ∀ ls ls', Q ls → Q ls' → Q (ls ++ ls')) {s : Sheet}
    (h : ∀ e ∈ s.media.toList, Q (mediaLines e.1 e.2)) : Q s.lines := by
  unfold lines
  generalize s.media.toList = entries at h ⊢
  induction entries with
  | nil => exact hnil
  | cons e es ih =>
      rw [List.forall_mem_cons] at h
      exact happend _ _ h.1 (ih h.2)

theorem spells_mediaHeading {P : Char → Prop} (hP : ∀ x, Plain x → P x) {media : String}
    (h : Spells P media) : Spells P ("@media " ++ media) :=
  spells_append.mpr ⟨spells_plain hP (by simp [Spells, Plain]), h⟩

theorem Spelled.balanced_render {s : Sheet} (h : s.Spelled NoBrace) :
    Balanced s.render.toList := by
  rw [toList_render]
  refine lines_forall (Q := fun ls => Balanced (unlines ls)) (balanced_of_noBrace (by simp)) ?_ ?_
  · intro ls ls' hls hls'
    rw [unlines_append]
    exact hls.append hls'
  · intro e he
    unfold mediaLines
    split
    · exact (h.2 e he).balanced_lines 0
    · exact Block.balanced_nested (spells_mediaHeading (fun _ hx => hx.2) (h.1 e he)) 0
        ((h.2 e he).balanced_lines 1)

theorem Spelled.steady_lines {s : Sheet} (h : s.Spelled NoBrace) : Steady 0 s.lines := by
  refine lines_forall (Q := Steady 0) (fun _ _ _ hrest => hrest) ?_ ?_
  · intro ls ls' hls hls' depth hdepth rest hrest
    rw [List.append_assoc]
    exact hls depth hdepth _ (hls' depth hdepth rest hrest)
  · intro e he
    unfold mediaLines
    split
    · exact (h.2 e he).steady_lines 0
    · exact Block.steady_nested (spells_mediaHeading (fun _ hx => hx.2) (h.1 e he)) 0
        ((h.2 e he).steady_lines 1)

theorem Spelled.notMem_lines {s : Sheet} (h : s.Spelled (· ≠ '\n')) : ∀ l ∈ s.lines, '\n' ∉ l := by
  refine lines_forall (Q := fun ls => ∀ l ∈ ls, '\n' ∉ l) (by simp) ?_ ?_
  · exact fun ls ls' hls hls' => List.forall_mem_append.mpr ⟨hls, hls'⟩
  · intro e he
    unfold mediaLines
    split
    · exact (h.2 e he).notMem_lines 0
    · simp only [List.forall_mem_cons, List.forall_mem_append, List.mem_singleton, forall_eq]
      have hmedia : '\n' ∉ ("@media " ++ e.1).toList := fun hmem =>
        spells_mediaHeading (fun _ hx => hx.1) (h.1 e he) _ hmem rfl
      refine ⟨?_, (h.2 e he).notMem_lines 1, by simp [Block.closingLine]⟩
      intro hmem
      rcases List.mem_append.mp hmem with hmem | hmem
      · exact hmedia hmem
      · exact absurd hmem (by simp)

end Sheet

/-! ## The whole output -/

namespace Layout

/-- How many braces are open at the end of a text. -/
def depthAfter (cs : List Char) : Nat := cs.count '\x7b' - cs.count '\x7d'

/-- The tokens outside rules and those of the rules are spelled like the stream. -/
theorem spelled_extraction {P : Char → Prop} (hP : ∀ x, Plain x → P x) (d : Dialect)
    (extracts : Bool) {tokens : List Token} (h : ∀ t ∈ tokens, t.Spelled P) :
    (∀ t ∈ (ofTokens d extracts tokens).topLevel, t.Spelled P)
      ∧ ∀ r ∈ (Rule.extract (prepare d extracts tokens).1).rules,
          (Token.rulesetStart r.selectors).Spelled P ∧ ∀ t ∈ r.body, t.Spelled P :=
  Rule.extractFrom_forall (spelled_prepare hP d extracts h).1 (by simp)

/-- The sheet that is laid out is spelled like the stream, if its groups are closed. -/
theorem spelled_sheet {P : Char → Prop} (hP : ∀ x, Plain x → P x) (d : Dialect) (extracts : Bool)
    {tokens : List Token} (harranged : Token.Arranged tokens) (h : ∀ t ∈ tokens, t.Spelled P) :
    (ofTokens d extracts tokens).sheet.Spelled P := by
  obtain ⟨_, hrules⟩ := spelled_extraction hP d extracts h
  refine Sheet.spelled_ofRules hP (fun r hr => (hrules r hr).1) ?_
  intro r hr t ht
  exact ⟨(hrules r hr).2 t ht, (harranged.closed_prepare d extracts).rules r hr t ht⟩

/-- The part before the sheet balances. -/
theorem balanced_front (d : Dialect) (extracts : Bool) {tokens : List Token}
    (harranged : Token.Arranged tokens) (h : ∀ t ∈ tokens, t.Spelled NoBrace) :
    ∃ front, (ofTokens d extracts tokens).render.toList
        = front ++ (ofTokens d extracts tokens).sheet.render.toList ∧ Balanced front := by
  have hP : ∀ x, Plain x → NoBrace x := fun _ hx => hx.2
  obtain ⟨_, htable⟩ := spelled_prepare hP d extracts h
  obtain ⟨htopLevel, _⟩ := spelled_extraction hP d extracts h
  have hvariables : Balanced
      (((ofTokens d extracts tokens).table.map (Variables.render d)).getD "").toList := by
    apply balanced_of_noBrace
    cases hsome : (prepare d extracts tokens).2 with
    | none =>
        show Spells NoBrace (((prepare d extracts tokens).2.map (Variables.render d)).getD "")
        rw [hsome]
        simp [Spells]
    | some table =>
        show Spells NoBrace (((prepare d extracts tokens).2.map (Variables.render d)).getD "")
        rw [hsome]
        exact (htable table hsome).spells_render hP (by simp [NoBrace]) d
  have htop : Balanced (renderTopLevel (ofTokens d extracts tokens).topLevel).toList := by
    apply Balanced.of_filter
    rw [filter_renderTopLevel htopLevel]
    exact (harranged.closed_prepare d extracts).topLevel
  refine ⟨_, ?_, hvariables.append htop⟩
  rw [render, String.toList_append, String.toList_append]
  rfl

/--
**The braces of the output balance.** Take a stream in which every group is closed, with no
brace in any of its strings. Laid out in either dialect, with or without variables, no prefix of
the text closes more braces than it opens, and the whole closes as many as it opens. If no string
has a newline either, each line of the sheet starts with at least as many tabs as braces are open
where it stands, counted from the start of the output.
-/
theorem render_braces_balanced (d : Dialect) (extracts : Bool) {tokens : List Token}
    (harranged : Token.Arranged tokens) (h : ∀ t ∈ tokens, t.Spelled NoBrace) :
    let l := ofTokens d extracts tokens
    Balanced l.render.toList
      ∧ ((∀ t ∈ tokens, t.Spelled (· ≠ '\n')) →
          ∃ front, l.render.toList = front ++ l.sheet.render.toList
            ∧ Indented (depthAfter front) (l.sheet.render.toList.splitOn '\n')) := by
  intro l
  have hsheet : l.sheet.Spelled NoBrace :=
    spelled_sheet (fun _ hx => hx.2) d extracts harranged h
  obtain ⟨front, hfront, hbalanced⟩ := balanced_front d extracts harranged h
  refine ⟨?_, ?_⟩
  · show Balanced l.render.toList
    rw [hfront]
    exact hbalanced.append hsheet.balanced_render
  · intro hnewline
    have hlines : ∀ line ∈ l.sheet.lines, '\n' ∉ line :=
      (spelled_sheet (fun _ hx => hx.1) d extracts harranged hnewline).notMem_lines
    refine ⟨front, hfront, ?_⟩
    -- all braces before the sheet are closed, so the sheet starts at the margin
    have hdepth : depthAfter front = 0 := by
      unfold depthAfter
      rw [hbalanced.settled]
      exact Nat.sub_self _
    rw [hdepth, Sheet.toList_render, splitOn_unlines hlines]
    exact hsheet.steady_lines 0 (Nat.le_refl 0) _ ⟨Nat.le_refl 0, trivial⟩

/-- Rulesets between the groups of a `@media` block, and a `@media` block in that one. -/
def sampleStream : List Token :=
  .charset "\"utf-8\"" :: .mediaStart ["screen"] ::
    ((.keyframesStart "keyframes" "spin" ::
        ((.keyframeStart ["from", "50%"] ::
            ([.keyframeDeclaration ⟨"color", "red", false, true⟩] ++ .keyframeEnd ::
              [.comment "/* half */"])) ++ .keyframesEnd ::
          .rulesetStart ["a > b", "a:hover"] ::
            ([.declaration ⟨"color", "red", true, false⟩ ["screen"], .raw "; top",
              .declaration ⟨"margin", "0", false, true⟩ ["screen"]] ++ .rulesetEnd ::
              .mediaStart ["screen and print"] ::
                ((.fontFaceStart ::
                    ([.fontFaceDeclaration ⟨"src", "url(x)", false, true⟩] ++ .fontFaceEnd ::
                      [])) ++ .mediaEnd :: [])))) ++ .mediaEnd :: [.raw "@import url(y);"])

theorem arranged_sampleStream : Token.Arranged sampleStream :=
  .charset _ <| .media _
    (.keyframes _ _ (.keyframe _ (by simp [Token.fitsIn]) (.comment _ .nil)) <|
      .ruleset _ (by simp [Token.fitsIn]) <|
        .media _ (.fontFace (by simp [Token.fitsIn]) .nil) .nil)
    (.raw _ .nil)

theorem spelled_sampleStream : ∀ t ∈ sampleStream, t.Spelled Plain := by
  simp [sampleStream, Token.Spelled, Token.strings, Spells, Plain]

theorem sampleStream_braces_balanced :
    let l := ofTokens .scss true sampleStream
    Token.Arranged sampleStream ∧ (∀ t ∈ sampleStream, t.Spelled NoBrace)
      ∧ (∀ t ∈ sampleStream, t.Spelled (· ≠ '\n'))
      ∧ Balanced l.render.toList
      ∧ ∃ front, l.render.toList = front ++ l.sheet.render.toList
          ∧ Indented (depthAfter front) (l.sheet.render.toList.splitOn '\n') := by
  have hbraces : ∀ t ∈ sampleStream, t.Spelled NoBrace :=
    fun t ht s hs x hx => (spelled_sampleStream t ht s hs x hx).2
  have hnewlines : ∀ t ∈ sampleStream, t.Spelled (· ≠ '\n') :=
    fun t ht s hs x hx => (spelled_sampleStream t ht s hs x hx).1
  have hrender := render_braces_balanced .scss true arranged_sampleStream hbraces
  exact ⟨arranged_sampleStream, hbraces, hnewlines, hrender.1, hrender.2 hnewlines⟩

end Layout

end CssNest
