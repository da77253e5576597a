import CssNest.Proofs.Located

/-!
# Comments in selectors, queries and values

A comment may stand between any two tokens, so it may be a part of any node of the syntax tree.
Where selectors, queries and values are read, comments are passed over, but only block comments,
and only those that are parts of the node that is looked at. The text of a node is taken
as a whole, with the comments in it, and so is all between the first and the last node of a value.

This module says which comments are read along. What a range of the source overlaps is a matter
of positions, and what a run of nodes has in it is a matter of the tree: for comments both are the
same.

For that the tree has to be laid out over the source: the parts of a node lie in its span, one
after the other. Then of two nodes one is inside the other, or they are apart.
-/

namespace CssNest

/-- A comment from `//` to the end of the line. -/
def Kind.lineComment : Kind := .named "js_comment"

/-- Two parts of the source have a character in common, or one lies within the other. -/
def Span.Overlaps (a b : Span) : Prop := a.start < b.stop ∧ b.start < a.stop

namespace Node

/-- Comments of both kinds. -/
def isRemark (n : Node) : Bool := n.isComment || n.kind == .lineComment

/--
A tree over a source: the parts of each node lie in the node's span, in order and apart from each
other, and a comment has some text and no parts.
-/
inductive Laid : Node → Prop where
  | mk {n : Node} : n.span.start ≤ n.span.stop →
      (∀ k ∈ n.children, n.span.start ≤ k.span.start ∧ k.span.stop ≤ n.span.stop) →
      n.children.Pairwise (fun a b => a.span.stop ≤ b.span.start) →
      (n.isRemark = true → n.children = [] ∧ n.span.start < n.span.stop) →
      (∀ k ∈ n.children, Laid k) → Laid n

/-! ## Nodes inside nodes -/

theorem Laid.child {n k : Node} (h : n.Laid) (hk : k ∈ n.children) : k.Laid := by
  obtain ⟨_, _, _, _, hparts⟩ := h
  exact hparts k hk

/-- Whatever is inside a node lies in its span. -/
theorem Laid.of_inside {n c : Node} (h : n.Laid) (hc : c.Inside n) :
    c.Laid ∧ n.span.start ≤ c.span.start ∧ c.span.stop ≤ n.span.stop := by
  induction hc with
  | self => exact ⟨h, Nat.le_refl _, Nat.le_refl _⟩
  | part hk _ ih =>
      obtain ⟨hlaid, hstart, hstop⟩ := ih (h.child hk)
      obtain ⟨_, hwithin, _, _, _⟩ := h
      obtain ⟨hstart', hstop'⟩ := hwithin _ hk
      exact ⟨hlaid, Nat.le_trans hstart' hstart, Nat.le_trans hstop hstop'⟩

/-- Of two nodes of a tree, one is inside the other, or one ends before the other begins. -/
theorem Laid.nested_or_apart {root a b : Node} (h : root.Laid) (ha : a.Inside root)
    (hb : b.Inside root) :
    a.Inside b ∨ b.Inside a ∨ a.span.stop ≤ b.span.start ∨ b.span.stop ≤ a.span.start := by
  induction ha with
  | self => exact .inr (.inl hb)
  | @part k root hk hak ih =>
      cases hb with
      | self => exact .inl (.part hk hak)
      | @part k' _ hk' hbk' =>
          have hlaid := h.child hk
          obtain ⟨_, hstart, hstop⟩ := hlaid.of_inside hak
          obtain ⟨_, hstart', hstop'⟩ := (h.child hk').of_inside hbk'
          -- the two parts are the same, or one stands before the other
          obtain ⟨_, _, hordered, _, _⟩ := h
          obtain ⟨before, after, hchildren⟩ := List.append_of_mem hk
          rw [hchildren, List.pairwise_append, List.pairwise_cons] at hordered
          obtain ⟨_, ⟨hafter, _⟩, hbefore⟩ := hordered
          rw [hchildren, List.mem_append, List.mem_cons] at hk'
          rcases hk' with hk' | rfl | hk'
          · have := hbefore k' hk' k (by simp)
            omega
          · exact ih hlaid hbk'
          · have := hafter k' hk'
            omega

/-! ## Runs and their ranges -/

theorem range_of_ne_nil {run : List Node} (h : run ≠ []) :
    range run = ⟨(run.head h).span.start, (run.getLast h).span.stop⟩ := by
  unfold range
  rw [List.head?_eq_some_head h, List.getLast?_eq_some_getLast h]
  rfl

/-- The range of a run covers its nodes. -/
theorem Laid.le_range {n : Node} (h : n.Laid) {run : List Node} (hrun : run <:+: n.children)
    {k : Node} (hk : k ∈ run) :
    (range run).start ≤ k.span.start ∧ k.span.stop ≤ (range run).stop := by
  have hne : run ≠ [] := List.ne_nil_of_mem hk
  have hle : ∀ m ∈ run, m.span.start ≤ m.span.stop := by
    intro m hm
    obtain ⟨hm, _⟩ := h.child (hrun.subset hm)
    exact hm
  obtain ⟨_, _, hordered, _, _⟩ := h
  have hpairwise := hordered.sublist hrun.sublist
  rw [range_of_ne_nil hne]
  constructor
  · -- the first node is this one or stands before it
    obtain ⟨first, rest, rfl⟩ := List.exists_cons_of_ne_nil hne
    rcases List.mem_cons.mp hk with rfl | hk
    · exact Nat.le_refl _
    · exact Nat.le_trans (hle first (by simp)) ((List.pairwise_cons.mp hpairwise).1 k hk)
  · -- the last node is this one or stands behind it
    have hsplit := List.dropLast_append_getLast hne
    rw [← hsplit, List.pairwise_append] at hpairwise
    rw [← hsplit, List.mem_append, List.mem_singleton] at hk
    rcases hk with hk | rfl
    · exact Nat.le_trans (hpairwise.2.2 k hk _ (by simp)) (hle _ (List.getLast_mem hne))
    · exact Nat.le_refl _

/-- The other parts of the node end before the run or begin after it. -/
theorem Laid.apart_of_run {n : Node} (h : n.Laid) {before run after : List Node}
    (hchildren : before ++ run ++ after = n.children) (hne : run ≠ []) {k : Node}
    (hk : k ∈ n.children) :
    k ∈ run ∨ k.span.stop ≤ (range run).start ∨ (range run).stop ≤ k.span.start := by
  obtain ⟨_, _, hordered, _, _⟩ := h
  rw [← hchildren, List.pairwise_append, List.pairwise_append] at hordered
  obtain ⟨⟨_, _, hbefore⟩, _, hafter⟩ := hordered
  rw [range_of_ne_nil hne]
  rw [← hchildren, List.mem_append, List.mem_append] at hk
  rcases hk with (hk | hk) | hk
  · exact .inr (.inl (hbefore k hk _ (List.head_mem hne)))
  · exact .inl hk
  · exact .inr (.inr (hafter _ (by simp) k hk))

/-- A comment overlaps the range of a run if and only if the run has it in it. -/
theorem Laid.overlaps_iff_inside {root c : Node} (h : root.Laid) {run : List Node}
    (hrun : root.Holds run) (hc : c.Inside root) (hremark : c.isRemark = true) :
    c.span.Overlaps (range run) ↔ ∃ m ∈ run, c.Inside m := by
  obtain ⟨parent, hparent, hsiblings⟩ := hrun.siblings
  have hlaid := (h.of_inside hparent).1
  obtain ⟨⟨_, _, _, hleaf, _⟩, _⟩ := h.of_inside hc
  obtain ⟨hnochild, hsome⟩ := hleaf hremark
  -- the run has nodes and so the parent has parts, which a comment has not
  have hdiffers : c ≠ parent := by
    rintro rfl
    rw [hnochild] at hsiblings
    exact hrun.nonempty (List.eq_nil_of_infix_nil hsiblings)
  constructor
  · rintro ⟨hstart, hstop⟩
    have hwithin : parent.span.start ≤ (range run).start ∧ (range run).stop ≤ parent.span.stop := by
      obtain ⟨_, hparts, _, _, _⟩ := hlaid
      rw [range_of_ne_nil hrun.nonempty]
      exact ⟨(hparts _ (hsiblings.subset (List.head_mem hrun.nonempty))).1,
        (hparts _ (hsiblings.subset (List.getLast_mem hrun.nonempty))).2⟩
    rcases h.nested_or_apart hc hparent with hinside | hinside | hapart
    · cases hinside with
      | self => exact absurd rfl hdiffers
      | @part k _ hk hck =>
          obtain ⟨before, after, hchildren⟩ := hsiblings
          obtain ⟨_, hkstart, hkstop⟩ := (hlaid.child hk).of_inside hck
          rcases hlaid.apart_of_run hchildren hrun.nonempty hk with hmem | hbefore | hafter
          · exact ⟨k, hmem, hck⟩
          · omega
          · omega
    · -- the parent cannot be in the comment
      cases hinside with
      | self => exact absurd rfl hdiffers
      | part hk _ =>
          rw [hnochild] at hk
          exact absurd hk (by simp)
    · omega
  · rintro ⟨m, hm, hcm⟩
    obtain ⟨_, hmstart, hmstop⟩ := (hlaid.child (hsiblings.subset hm)).of_inside hcm
    obtain ⟨hstart, hstop⟩ := hlaid.le_range hsiblings hm
    exact ⟨by omega, by omega⟩

end Node

/-! ## Comments that are read along -/

/-- The ways for a comment to be a part of the text that is taken at a run of nodes. -/
inductive Enclosed (run : List Node) (c : Node) : Prop where
  /-- All that stands between the nodes of a value is taken with them. -/
  | between {before after : List Node} : before ≠ [] → after ≠ [] → run = before ++ c :: after →
      Enclosed run c
  /-- All that stands in a node is taken with it. -/
  | inside {m k : Node} : m ∈ run → k ∈ m.children → c.Inside k → Enclosed run c

/-- A block comment is at neither end of a run, so it is enclosed if the run has it in it. -/
theorem Node.Holds.inside_iff_enclosed {root c : Node} {run : List Node} (h : root.Holds run)
    (hc : c.isComment = true ∨ c ∉ run) : (∃ m ∈ run, c.Inside m) ↔ Enclosed run c := by
  constructor
  · rintro ⟨m, hm, hcm⟩
    cases hcm with
    | part hk hck => exact .inside hm hk hck
    | self =>
        have hcomment : c.isComment = true := hc.resolve_right fun hnot => hnot hm
        obtain ⟨before, after, hrun⟩ := List.append_of_mem hm
        refine .between ?_ ?_ hrun
        · rintro rfl
          have hfirst := h.first c (by simp [hrun])
          rw [hfirst] at hcomment
          exact absurd hcomment (by simp)
        · rintro rfl
          have hlast := h.last c (by simp [hrun])
          rw [hlast] at hcomment
          exact absurd hcomment (by simp)
  · rintro (⟨_, _, rfl⟩ | ⟨hm, hk, hck⟩)
    · exact ⟨c, by simp, .self c⟩
    · exact ⟨_, hm, .part hk hck⟩

/--
**Which comments are read along.** Take a tree over its source. Each token of the tree has the
texts at its places. A comment of the tree overlaps one of these places only as a part of the text
that is taken there: it stands in a node that is read as a whole, or between two nodes of a value.
No other block comment is read along. Of a line comment that is itself one of the nodes nothing is
said.
-/
theorem Parsed.comments_overlap_iff_enclosed (p : Parsed) (src : Source) (h : p.root.Laid) :
    (src.located p.root).map Located.token = (p.tokens src).value
      ∧ ∀ l ∈ src.located p.root, l.token.CutFrom src l.cuts
          ∧ ∀ run ∈ l.runs, ∀ c : Node, c.Inside p.root → c.isRemark = true →
              (c.isComment = true ∨ c ∉ run) →
              (c.span.Overlaps (range run) ↔ Enclosed run c) := by
  have hlocates := src.locates_located p.root
  refine ⟨hlocates.tokens_eq, ?_⟩
  intro l hl
  refine ⟨hlocates.cutFrom l hl, ?_⟩
  intro run hrun c hc hremark hnode
  obtain ⟨cut, hcut, hrun⟩ := List.mem_flatMap.mp hrun
  have hholds := hlocates.held l hl cut hcut run hrun
  rw [h.overlaps_iff_inside hholds hc hremark]
  exact hholds.inside_iff_enclosed hnode

/-! A stylesheet with a comment in a selector, a line comment between selectors and a comment
between the two nodes of a value. -/

namespace Parsed

def sampleSource : Source :=
  Source.ofString "a /* x */ > b, // y\n c \x7b top: 1px /* z */ 2px; \x7d"

/-- A node without parts. -/
def leaf (kind : Kind) (start stop : Nat) : Node := .mk kind ⟨start, stop⟩ []

def sampleSelector : Node :=
  .mk (.named "child_selector") ⟨0, 13⟩
    [leaf (.named "tag_name") 0 1, leaf .comment 2 9, leaf (.literal ">") 10 11,
      leaf (.named "tag_name") 12 13]

def sampleSelectors : Node :=
  .mk .selectors ⟨0, 22⟩
    [sampleSelector, leaf (.literal ",") 13 14, leaf .lineComment 15 19,
      leaf (.named "tag_name") 21 22]

/-- A number of pixels with one digit. -/
def sampleNumber (start : Nat) : Node :=
  .mk (.named "integer_value") ⟨start, start + 3⟩ [leaf (.named "unit") (start + 1) (start + 3)]

def sampleDeclaration : Node :=
  .mk .declaration ⟨25, 46⟩
    [leaf .propertyName 25 28, leaf .colon 28 29, sampleNumber 30, leaf .comment 34 41,
      sampleNumber 42, leaf .semicolon 45 46]

def sampleBlock : Node :=
  .mk .block ⟨23, 48⟩ [leaf .openBrace 23 24, sampleDeclaration, leaf .closeBrace 47 48]

def sampleRuleSet : Node := .mk .ruleSet ⟨0, 48⟩ [sampleSelectors, sampleBlock]

def sample : Parsed := ⟨.mk (.named "stylesheet") ⟨0, 48⟩ [sampleRuleSet], false⟩

theorem laid_leaf (kind : Kind) {start stop : Nat} (h : start < stop) :
    (leaf kind start stop).Laid :=
  .mk (Nat.le_of_lt h) (by simp [leaf, Node.children]) (by simp [leaf, Node.children])
    (fun _ => ⟨rfl, h⟩) (by simp [leaf, Node.children])

theorem laid_sampleNumber (start : Nat) : (sampleNumber start).Laid := by
  refine .mk ?_ ?_ ?_ ?_ ?_
  · simp [sampleNumber, Node.span]
  · simp [sampleNumber, Node.children, Node.span, leaf]
  · simp [sampleNumber, Node.children]
  · simp [sampleNumber, Node.isRemark, Node.isComment, Node.kind, Kind.comment, Kind.lineComment]
  · simpa [sampleNumber, Node.children] using laid_leaf (.named "unit") (by omega)

theorem laid_sampleSelectors : sampleSelectors.Laid := by
  have hselector : sampleSelector.Laid :=
    .mk (by decide) (by decide) (by decide) (by decide) <| by
      simp only [sampleSelector, Node.children, List.forall_mem_cons, List.not_mem_nil,
        false_imp_iff, implies_true, and_true]
      exact ⟨laid_leaf _ (by decide), laid_leaf _ (by decide), laid_leaf _ (by decide),
        laid_leaf _ (by decide)⟩
  refine .mk (by decide) (by decide) (by decide) (by decide) ?_
  simp only [sampleSelectors, Node.children, List.forall_mem_cons, List.not_mem_nil,
    false_imp_iff, implies_true, and_true]
  exact ⟨hselector, laid_leaf _ (by decide), laid_leaf _ (by decide), laid_leaf _ (by decide)⟩

theorem laid_sampleBlock : sampleBlock.Laid := by
  have hdeclaration : sampleDeclaration.Laid :=
    .mk (by decide) (by decide) (by decide) (by decide) <| by
      simp only [sampleDeclaration, Node.children, List.forall_mem_cons, List.not_mem_nil,
        false_imp_iff, implies_true, and_true]
      exact ⟨laid_leaf _ (by decide), laid_leaf _ (by decide), laid_sampleNumber 30,
        laid_leaf _ (by decide), laid_sampleNumber 42, laid_leaf _ (by decide)⟩
  refine .mk (by decide) (by decide) (by decide) (by decide) ?_
  simp only [sampleBlock, Node.children, List.forall_mem_cons, List.not_mem_nil, false_imp_iff,
    implies_true, and_true]
  exact ⟨laid_leaf _ (by decide), hdeclaration, laid_leaf _ (by decide)⟩

theorem laid_sample : sample.root.Laid := by
  refine .mk (by decide) (by decide) (by decide) (by decide) ?_
  intro k hk
  rw [List.mem_singleton.mp hk]
  refine .mk (by decide) (by decide) (by decide) (by decide) ?_
  intro k hk
  rcases List.mem_pair.mp hk with rfl | rfl
  · exact laid_sampleSelectors
  · exact laid_sampleBlock

theorem sample_comments_overlap_iff_enclosed :
    sample.root.Laid
      ∧ (sampleSource.located sample.root).map Located.token = (sample.tokens sampleSource).value
      ∧ ∀ l ∈ sampleSource.located sample.root, l.token.CutFrom sampleSource l.cuts
          ∧ ∀ run ∈ l.runs, ∀ c : Node, c.Inside sample.root → c.isRemark = true →
              (c.isComment = true ∨ c ∉ run) →
              (c.span.Overlaps (range run) ↔ Enclosed run c) :=
  ⟨laid_sample, comments_overlap_iff_enclosed sample sampleSource laid_sample⟩

/-- All three comments end up in texts of tokens. -/
theorem sample_comments_read :
    sample.root.Laid
      ∧ (sample.tokens sampleSource).value
          = [.rulesetStart ["a /* x */ > b", "// y", "c"],
              .declaration ⟨"top", "1px /* z */ 2px", false, true⟩ [], .rulesetEnd]
      ∧ ∃ l ∈ sampleSource.located sample.root, ∃ run ∈ l.runs, ∃ c : Node,
          c.Inside sample.root ∧ c.isRemark = true ∧ c.span.Overlaps (range run) := by
  refine ⟨laid_sample, by decide +kernel, ?_⟩
  have hlocated : sampleSource.located sample.root
      = sampleSource.locatedRuleSet [] sampleRuleSet := rfl
  have hat : ¬ ((Text.trim (sampleSource.text sampleRuleSet)).head? == some '@') = true := by
    decide +kernel
  rw [hlocated, Source.locatedRuleSet, if_neg hat]
  -- the first comment stands in the first selector
  have hselector : sampleSelector ∈ sampleSelectors.contents :=
    List.mem_filter.mpr ⟨List.mem_cons_self, by decide⟩
  have hcomment : leaf .comment 2 9 ∈ sampleSelector.children := by
    simp [sampleSelector, Node.children]
  refine ⟨_, List.mem_cons_self, [sampleSelector], ?_, leaf .comment 2 9, ?_, by decide, ?_⟩
  · exact List.mem_flatMap.mpr ⟨.node sampleSelector, List.mem_map_of_mem hselector,
      List.mem_cons_self⟩
  · have hselectors : sampleSelectors.Inside sample.root :=
      ((Node.Inside.self _).child (k := sampleRuleSet) List.mem_cons_self).child
        List.mem_cons_self
    exact (hselectors.child (List.mem_filter.mp hselector).1).child hcomment
  · exact ⟨by decide, by decide⟩

end Parsed

end CssNest
