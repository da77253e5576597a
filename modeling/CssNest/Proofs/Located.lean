import CssNest.Proofs.OrderedMap
import CssNest.Proofs.TokenStream
import CssNest.Stylesheet
import Mathlib.Data.List.DropRight

/-!
# Where the texts of tokens stand in the source

The tokens of a tree carry texts that are cut out of the source: selectors, queries, values. A
token does not say where. Here the tree is flattened once more, in the same order, and each token
is kept with the places that its texts are cut from. Each place is a run of sibling nodes, read in
one piece from the start of the first node to the end of the last one. For a selector or a query
that is one node, for a value it is everything between its first and its last node.

`Locates` says what this second flattening is worth: it gives the tokens of the first one, the
texts of each token are those at its places, and each place is a run of the tree.
-/

namespace CssNest

/-! ## Places -/

/-- From the start of the first node of a run to the end of the last one. -/
def range (run : List Node) : Span :=
  ⟨(run.head?.map fun n => n.span.start).getD 0, (run.getLast?.map fun n => n.span.stop).getD 0⟩

/-- What one text is cut from: a run of nodes, and for a query in a `@media` in another one the
origin of the outer query before it. -/
inductive Cut where
  | run (nodes : List Node)
  | within (outer : Cut) (nodes : List Node)

namespace Cut

/-- The text at one run, with its blanks collapsed. -/
def runText (src : Source) (nodes : List Node) : String :=
  String.ofList (Text.collapse (src.slice (range nodes)))

/-- The text that is cut. -/
def text (src : Source) : Cut → String
  | run nodes => runText src nodes
  | within outer nodes => outer.text src ++ " and " ++ runText src nodes

/-- All runs that the text is cut from. -/
def runs : Cut → List (List Node)
  | run nodes => [nodes]
  | within outer nodes => outer.runs ++ [nodes]

/-- One node on its own. -/
def node (n : Node) : Cut := run [n]

/-- Each run of the cut is one node. -/
def OneNode (cut : Cut) : Prop := ∀ nodes ∈ cut.runs, nodes.length = 1

@[simp] theorem text_node (src : Source) (n : Node) : (node n).text src = src.collapsed n := rfl

/-- The queries of a `@media` inside others. -/
def combine (outer : List Cut) (queries : List Node) : List Cut :=
  if outer.isEmpty then queries.map node
  else queries.flatMap fun q => outer.map fun o => within o [q]

end Cut

/-- The texts of a token are those at its cuts. Selectors and queries are cut node by node. -/
def Token.CutFrom (src : Source) (cuts : List Cut) : Token → Prop
  | rulesetStart selectors | keyframeStart selectors =>
    selectors = cuts.map (Cut.text src) ∧ ∀ cut ∈ cuts, cut.OneNode
  | mediaStart queries =>
    queries = distinct (cuts.map (Cut.text src)) ∧ ∀ cut ∈ cuts, cut.OneNode
  | declaration body _ | fontFaceDeclaration body | keyframeDeclaration body =>
    cuts.length ≤ 1 ∧ body.value = (cuts.head?.map (Cut.text src)).getD ""
  | _ => cuts = []

/-- A token with what its texts are cut from. -/
structure Located where
  token : Token
  cuts : List Cut

/-- All runs that the texts of a token are cut from. -/
def Located.runs (l : Located) : List (List Node) := l.cuts.flatMap Cut.runs

/-! ## Values -/

namespace Node

/-- What may stand before, after and between the nodes of a value. -/
def isGap (n : Node) : Bool := n.kind == .semicolon || n.isComment

/-- The parts of a declaration between its colon and `!important`. -/
def valueParts (n : Node) : List Node :=
  ((n.children.takeWhile fun m => m.kind != .important).dropWhile fun m => m.kind != .colon).drop 1

/-- The run of nodes that a value is cut from. -/
def valueRun (n : Node) : List Node := (n.valueParts.dropWhile isGap).rdropWhile isGap

/-- What the value of a declaration is cut from: nothing if there is no value. -/
def valueCuts (n : Node) : List Cut := if n.valueRun.isEmpty then [] else [.run n.valueRun]

end Node

/-! ## Flattening with places -/

namespace Source

/-- Tokens without texts of interest. -/
def unlocated (e : Emission) : List Located := e.tokens.map fun t => ⟨t, []⟩

/-- What stands between two tokens. -/
def enclosed (opening : Located) (closing : Token) (inner : List Located) : List Located :=
  opening :: (inner ++ [⟨closing, []⟩])

/-- The declarations and comments of a block. -/
def locatedBlock (src : Source) (make : Declaration → Token) : List Node → List Located
  | [] => []
  | n :: rest =>
    let first :=
      if n.isDeclaration then
        (src.declaration? n (rest.all fun r => !r.isDeclaration)).toList.map fun d =>
          ⟨make d, n.valueCuts⟩
      else unlocated (src.blockItems make [n])
    first ++ locatedBlock src make rest

/-- A ruleset under some media queries. -/
def locatedRuleSet (src : Source) (media : List String) (n : Node) : List Located :=
  if (Text.trim (src.text n)).head? == some '@' then unlocated (src.ruleSet media n)
  else match n.child? .selectors, n.child? .block with
    | some selectors, some b =>
      enclosed
        ⟨.rulesetStart (selectors.contents.map src.collapsed), selectors.contents.map Cut.node⟩
        .rulesetEnd (src.locatedBlock (fun d => .declaration d media) b.children)
    | _, _ => []

/-- One keyframe. -/
def locatedKeyframe (src : Source) (n : Node) : List Located :=
  enclosed ⟨.keyframeStart (n.heading.map src.collapsed), n.heading.map Cut.node⟩ .keyframeEnd
    (match n.child? .block with
      | some b => src.locatedBlock .keyframeDeclaration b.children
      | none => [])

/-- The keyframes and comments of a list of keyframes. -/
def locatedKeyframeItem (src : Source) (n : Node) : List Located :=
  if n.kind == .keyframeBlock then src.locatedKeyframe n else unlocated (src.keyframeItem n)

/-- A `@keyframes`. Its keyword and its name are no texts of interest. -/
def locatedKeyframes (src : Source) (n : Node) : List Located :=
  let items := ((n.child? .keyframeBlockList).map Node.children).getD []
  ((src.keyframes n).tokens.take 1).map (fun t => ⟨t, []⟩) ++ items.flatMap src.locatedKeyframeItem
    ++ [⟨.keyframesEnd, []⟩]

/-- An at-rule without tokens of its own, or `@font-face`. -/
def locatedAtRule (src : Source) (n : Node) : List Located :=
  match (n.child? .atKeyword).map src.string, n.child? .block with
  | some "@font-face", some b =>
    enclosed ⟨.fontFaceStart, []⟩ .fontFaceEnd (src.locatedBlock .fontFaceDeclaration b.children)
  | _, _ => unlocated (src.atRule n)

/-- Anything but a ruleset or `@media`. -/
def locatedPlainItem (src : Source) (n : Node) : List Located :=
  if n.kind == .keyframesStatement then src.locatedKeyframes n
  else if n.kind == .atRule then src.locatedAtRule n
  else unlocated (src.plainItem n)

/-- The queries that are cut from some places. -/
def queriesAt (src : Source) (cuts : List Cut) : List String := distinct (cuts.map (Cut.text src))

mutual

/-- The items of a stylesheet, or of a `@media` block with queries from `outer`. -/
def locatedItems (src : Source) (outer : List Cut) : List Node → List Located
  | [] => []
  | [n] => src.locatedItem outer n
  | n :: next :: rest =>
    if src.startsAtRule n && next.kind == .ruleSet then
      unlocated (brokenAtRule (src.joined n next)) ++ src.locatedItems outer rest
    else src.locatedItem outer n ++ src.locatedItems outer (next :: rest)

/-- One item of a stylesheet or of a `@media` block. -/
def locatedItem (src : Source) (outer : List Cut) : Node → List Located
  | .mk kind span children =>
    if kind == .ruleSet then src.locatedRuleSet (src.queriesAt outer) (.mk kind span children)
    else if kind == .mediaStatement then
      let cuts := Cut.combine outer (Node.mk kind span children).heading
      enclosed ⟨.mediaStart (src.queriesAt cuts), cuts⟩ .mediaEnd
        (src.locatedMediaBlock cuts children)
    else src.locatedPlainItem (.mk kind span children)

/-- The items of the first block among the parts of a `@media`. -/
def locatedMediaBlock (src : Source) (outer : List Cut) : List Node → List Located
  | [] => []
  | .mk kind _ children :: rest =>
    if kind == .block then src.locatedItems outer children else src.locatedMediaBlock outer rest

end

end Source

/-! ## The span of a value -/

section Trim

variable {α : Type} {p : α → Bool}

/-- Without the last members of a kind, a list ends with the last of the others. -/
theorem getLast?_rdropWhile (xs : List α) :
    (xs.rdropWhile p).getLast? = (xs.filter fun x => !p x).getLast? := by
  induction xs using List.reverseRecOn with
  | nil => rfl
  | append_singleton xs x ih =>
      rw [List.rdropWhile_concat, List.filter_append]
      by_cases hx : p x
      · simp [hx, ih]
      · simp [hx]

theorem head?_rdropWhile {xs : List α} (h : ∀ x ∈ xs.head?, p x = false) :
    (xs.rdropWhile p).head? = xs.head? := by
  induction xs using List.reverseRecOn with
  | nil => rfl
  | append_singleton xs x ih =>
      rw [List.rdropWhile_concat]
      by_cases hx : p x
      · cases xs with
        | nil => exact absurd (h x rfl) (by simp [hx])
        | cons y ys => simpa [hx] using ih (by simpa using h)
      · simp [hx]

theorem head?_dropWhile_rdropWhile (xs : List α) :
    ((xs.dropWhile p).rdropWhile p).head? = (xs.filter fun x => !p x).head? := by
  have hhead : (xs.filter fun x => !p x).head? = (xs.dropWhile p).head? := by
    rw [List.head?_filter, List.find?_eq_head?_dropWhile_not]
    simp
  rw [hhead]
  apply head?_rdropWhile
  intro x hx
  rw [← hhead, List.head?_filter] at hx
  simpa using List.find?_some hx

theorem getLast?_dropWhile_rdropWhile (xs : List α) :
    ((xs.dropWhile p).rdropWhile p).getLast? = (xs.filter fun x => !p x).getLast? := by
  rw [getLast?_rdropWhile]
  congr 1
  induction xs with
  | nil => rfl
  | cons x xs ih =>
      by_cases hx : p x
      · simp [hx, ih]
      · simp [hx]

end Trim

namespace DeclarationParts

/-- The span so far with the next node of the value. -/
def extend (value : Option Span) (n : Node) : Option Span :=
  some ⟨(value.map Span.start).getD n.span.start, n.span.stop⟩

theorem foldl_extend_some (s : Span) (ns : List Node) :
    ns.foldl extend (some s)
      = some ⟨s.start, (ns.getLast?.map fun n => n.span.stop).getD s.stop⟩ := by
  induction ns using List.reverseRecOn with
  | nil => rfl
  | append_singleton ns n ih =>
      rw [List.foldl_concat, ih]
      simp [extend]

/-- Node by node, the value comes to cover the whole run. -/
theorem foldl_extend_none (ns : List Node) :
    ns.foldl extend none = if ns.isEmpty then none else some (range ns) := by
  cases ns with
  | nil => rfl
  | cons n ns =>
      have hfirst : extend none n = some n.span := rfl
      rw [List.foldl_cons, hfirst, foldl_extend_some]
      cases hlast : ns.getLast? with
      | none => simp [range, List.getLast?_cons, hlast]
      | some last => simp [range, List.getLast?_cons, hlast]

/-- After `!important` nothing is added to the value. -/
theorem value_after_important {p : DeclarationParts} (h : p.important = true) (ns : List Node) :
    (ns.foldl add p).value = p.value := by
  induction ns generalizing p with
  | nil => rfl
  | cons n ns ih =>
      have hstep : (p.add n).important = true ∧ (p.add n).value = p.value := by
        unfold add
        split_ifs <;> simp_all
      rw [List.foldl_cons, ih hstep.1, hstep.2]

/-- Between the colon and `!important` every node but comments and semicolons is added. -/
theorem value_after_colon {p : DeclarationParts} (hcolon : p.hasColon = true)
    (himportant : p.important = false) (ns : List Node) :
    (ns.foldl add p).value
      = ((ns.takeWhile fun m => m.kind != .important).filter fun m => !m.isGap).foldl extend
          p.value := by
  induction ns generalizing p with
  | nil => rfl
  | cons n ns ih =>
      rw [List.foldl_cons]
      by_cases hn : n.kind = .important
      · have hstep : p.add n = { p with important := true } := by
          simp [add, hn, Kind.important, Kind.propertyName, Kind.colon, hcolon]
        rw [hstep, value_after_important rfl]
        simp [hn]
      · by_cases hgap : n.isGap = true
        · have hkind : n.kind = .semicolon ∨ n.isComment = true := by
            simpa [Node.isGap] using hgap
          have hstep : p.add n = p := by simp [add, hn, hcolon, hkind]
          rw [hstep, ih hcolon himportant]
          simp [hn, hgap]
        · have hkind : ¬ (n.kind = .semicolon ∨ n.isComment = true) := by
            simpa [Node.isGap] using hgap
          have hstep : p.add n = { p with value := extend p.value n } := by
            simp [add, extend, hn, hcolon, himportant, hkind]
          have hrest := ih (p := p.add n) (by rw [hstep]; exact hcolon)
            (by rw [hstep]; exact himportant)
          rw [hrest, hstep]
          simp [hn, hgap]

theorem value_before_colon {p : DeclarationParts} (hcolon : p.hasColon = false)
    (himportant : p.important = false) (ns : List Node) :
    (ns.foldl add p).value
      = ((((ns.takeWhile fun m => m.kind != .important).dropWhile fun m =>
          m.kind != .colon).drop 1).filter fun m => !m.isGap).foldl extend p.value := by
  induction ns generalizing p with
  | nil => rfl
  | cons n ns ih =>
      rw [List.foldl_cons]
      by_cases hn : n.kind = .important
      · have hstep : p.add n = { p with important := true } := by
          simp [add, hn, Kind.important, Kind.propertyName, Kind.colon]
        rw [hstep, value_after_important rfl]
        simp [hn]
      · by_cases hc : n.kind = .colon
        · have hstep : p.add n = { p with hasColon := true } := by
            simp [add, hc, Kind.propertyName, Kind.colon, hcolon]
          have hrest := value_after_colon (p := p.add n) (by rw [hstep])
            (by rw [hstep]; exact himportant) ns
          rw [hrest, hstep]
          simp [hc, Kind.colon, Kind.important]
        · have hstep : (p.add n).hasColon = false ∧ (p.add n).important = false
              ∧ (p.add n).value = p.value := by
            unfold add
            split_ifs <;> simp_all
          rw [ih hstep.1 hstep.2.1, hstep.2.2]
          simp [hn, hc]

/-- The value of a declaration covers the run of nodes that it is cut from. -/
theorem value_ofNode (n : Node) :
    (ofNode n).value = if n.valueRun.isEmpty then none else some (range n.valueRun) := by
  have hvalue : (ofNode n).value
      = (n.valueParts.filter fun m => !m.isGap).foldl extend none :=
    value_before_colon rfl rfl n.children
  -- the span depends on the ends only, and gaps between the nodes of the value are not at the ends
  have hhead : n.valueRun.head? = (n.valueParts.filter fun m => !m.isGap).head? :=
    head?_dropWhile_rdropWhile n.valueParts
  have hlast : n.valueRun.getLast? = (n.valueParts.filter fun m => !m.isGap).getLast? :=
    getLast?_dropWhile_rdropWhile n.valueParts
  have hempty : n.valueRun.isEmpty = (n.valueParts.filter fun m => !m.isGap).isEmpty := by
    rw [Bool.eq_iff_iff, List.isEmpty_iff, List.isEmpty_iff, ← List.head?_eq_none_iff,
      ← List.head?_eq_none_iff, hhead]
  have hrange : range n.valueRun = range (n.valueParts.filter fun m => !m.isGap) := by
    unfold range
    rw [hhead, hlast]
  rw [hvalue, foldl_extend_none, hempty, hrange]

end DeclarationParts

/-! ## Queries -/

section Distinct

variable {α β γ : Type} [BEq β] [LawfulBEq β] [BEq γ] [LawfulBEq γ]

theorem mem_foldl_pushNew {xs acc : List β} {x : β} :
    x ∈ xs.foldl pushNew acc ↔ x ∈ acc ∨ x ∈ xs := by
  induction xs generalizing acc with
  | nil => simp
  | cons y ys ih =>
      rw [List.foldl_cons, ih, mem_pushNew, List.mem_cons, or_assoc]

/-- What is dropped from a list would be dropped again from its image. -/
theorem foldl_pushNew_map_distinct (f : β → γ) (acc : List γ) (xs : List β) :
    ((distinct xs).map f).foldl pushNew acc = (xs.map f).foldl pushNew acc := by
  induction xs using List.reverseRecOn with
  | nil => rfl
  | append_singleton xs x ih =>
      have himage : ((xs ++ [x]).map f).foldl pushNew acc
          = pushNew ((xs.map f).foldl pushNew acc) (f x) := by
        rw [List.map_append, List.foldl_append]
        rfl
      rw [himage, distinct_concat]
      by_cases hx : x ∈ xs
      · -- a value that came before has its image in the result already
        have hagain : f x ∈ (xs.map f).foldl pushNew acc :=
          mem_foldl_pushNew.mpr (.inr (List.mem_map_of_mem hx))
        rw [pushNew_of_mem (mem_distinct.mpr hx), pushNew_of_mem hagain, ih]
      · rw [pushNew_of_notMem fun h => hx (mem_distinct.mp h), List.map_append,
          List.foldl_append, ih]
        rfl

theorem distinct_flatMap_distinct (f : α → β → γ) (as : List α) (bs : List β) :
    distinct (as.flatMap fun a => (distinct bs).map (f a))
      = distinct (as.flatMap fun a => bs.map (f a)) := by
  unfold distinct
  rw [List.foldl_flatMap, List.foldl_flatMap]
  congr 1
  funext acc a
  exact foldl_pushNew_map_distinct (f a) acc bs

end Distinct

/-- The queries of a `@media` are cut from the places that its queries are combined of. -/
theorem Source.queries_queriesAt (src : Source) (outer : List Cut) (n : Node) :
    src.queries (src.queriesAt outer) n = src.queriesAt (Cut.combine outer n.heading) := by
  unfold queries combineQueries queriesAt Cut.combine
  cases outer with
  | nil => rw [if_pos (by rfl), if_pos (by rfl), List.map_map]; rfl
  | cons cut outer =>
      have hsome : (distinct ((cut :: outer).map (Cut.text src))).isEmpty = false := by
        rw [List.isEmpty_eq_false_iff]
        intro hnil
        have hmem : cut.text src ∈ distinct ((cut :: outer).map (Cut.text src)) := by
          rw [mem_distinct]
          simp
        rw [hnil] at hmem
        exact absurd hmem (by simp)
      rw [hsome, if_neg (by simp), if_neg (by simp),
        distinct_flatMap_distinct (fun q o => o ++ " and " ++ q)]
      congr 1
      rw [List.flatMap_map, List.map_flatMap]
      simp only [List.map_map]
      rfl

/-! ## Runs of a tree -/

namespace Node

/-- `c` is the node `n` or stands somewhere in it. -/
inductive Inside : Node → Node → Prop where
  | self (n : Node) : Inside n n
  | part {c k n : Node} : k ∈ n.children → Inside c k → Inside c n

theorem Inside.child {n root k : Node} (h : n.Inside root) (hk : k ∈ n.children) :
    k.Inside root := by
  induction h with
  | self => exact .part hk (.self k)
  | part hmem _ ih => exact .part hmem ih

/-- A run of sibling nodes somewhere in a tree, with no comment at its ends. -/
structure Holds (root : Node) (run : List Node) : Prop where
  nonempty : run ≠ []
  siblings : ∃ parent : Node, parent.Inside root ∧ run <:+: parent.children
  first : ∀ m ∈ run.head?, m.isComment = false
  last : ∀ m ∈ run.getLast?, m.isComment = false

/-- A selector or a query is a run on its own. -/
theorem Inside.holds_one {n root m : Node} (h : n.Inside root) (hm : m ∈ n.contents) :
    root.Holds [m] := by
  obtain ⟨hmem, hkind⟩ := List.mem_filter.mp hm
  have hcomment : m.isComment = false := by simpa using (Bool.and_eq_true_iff.mp hkind).2
  obtain ⟨before, after, hchildren⟩ := List.append_of_mem hmem
  exact ⟨by simp, ⟨n, h, before, after, by simp [hchildren]⟩, by simpa using hcomment,
    by simpa using hcomment⟩

/-- Whatever stands around a value, the value itself is one run. -/
theorem Inside.holds_valueRun {n root : Node} (h : n.Inside root) (hrun : n.valueRun ≠ []) :
    root.Holds n.valueRun := by
  have hnoGap : ∀ m ∈ n.valueParts.filter (fun m => !m.isGap), m.isComment = false := by
    intro m hm
    have hgap := (List.mem_filter.mp hm).2
    simp only [isGap, Bool.not_or, Bool.and_eq_true, Bool.not_eq_true'] at hgap
    exact hgap.2
  refine ⟨hrun, ⟨n, h, ?_⟩, ?_, ?_⟩
  · have hparts : n.valueParts <:+: n.children :=
      ((List.drop_suffix 1 _).trans (List.dropWhile_suffix _)).isInfix.trans
        (List.takeWhile_prefix _).isInfix
    exact ((List.rdropWhile_prefix _ _).isInfix.trans (List.dropWhile_suffix _).isInfix).trans
      hparts
  · intro m hm
    have hhead := head?_dropWhile_rdropWhile (p := isGap) n.valueParts
    exact hnoGap m (List.mem_of_mem_head? (hhead ▸ hm))
  · intro m hm
    have hlast := getLast?_dropWhile_rdropWhile (p := isGap) n.valueParts
    exact hnoGap m (List.mem_of_mem_getLast? (hlast ▸ hm))

end Node

/-- All runs of the cut stand in the tree. -/
def Cut.Held (root : Node) (cut : Cut) : Prop := ∀ run ∈ cut.runs, root.Holds run

theorem Node.Inside.held_node {n root m : Node} (h : n.Inside root) (hm : m ∈ n.contents) :
    (Cut.node m).Held root := by
  intro run hrun
  rw [List.mem_singleton.mp hrun]
  exact h.holds_one hm

theorem Node.Inside.held_heading {n root : Node} (h : n.Inside root) :
    ∀ cut ∈ n.heading.map Cut.node, cut.Held root := by
  intro cut hcut
  obtain ⟨m, hm, rfl⟩ := List.mem_map.mp hcut
  exact h.held_node (List.mem_filter.mp hm).1

theorem Node.Inside.held_valueCuts {n root : Node} (h : n.Inside root) :
    ∀ cut ∈ n.valueCuts, cut.Held root := by
  intro cut hcut run hrun
  unfold valueCuts at hcut
  split at hcut
  · exact absurd hcut (by simp)
  · rename_i hempty
    rw [List.mem_singleton.mp hcut] at hrun
    rw [List.mem_singleton.mp hrun]
    exact h.holds_valueRun (by simpa using hempty)

theorem Cut.oneNode_node (n : Node) : (node n).OneNode := by
  intro nodes hnodes
  rw [List.mem_singleton.mp hnodes]
  rfl

/-- Selectors and queries are the texts of single nodes. -/
theorem Source.collapsed_heading (src : Source) (nodes : List Node) :
    nodes.map src.collapsed = (nodes.map Cut.node).map (Cut.text src)
      ∧ ∀ cut ∈ nodes.map Cut.node, cut.OneNode := by
  refine ⟨by simp, ?_⟩
  intro cut hcut
  obtain ⟨m, _, rfl⟩ := List.mem_map.mp hcut
  exact Cut.oneNode_node m

theorem Cut.oneNode_combine {outer : List Cut} (houter : ∀ cut ∈ outer, cut.OneNode)
    (queries : List Node) : ∀ cut ∈ combine outer queries, cut.OneNode := by
  intro cut hcut
  unfold combine at hcut
  split at hcut
  · obtain ⟨m, _, rfl⟩ := List.mem_map.mp hcut
    exact oneNode_node m
  · obtain ⟨m, _, hcut⟩ := List.mem_flatMap.mp hcut
    obtain ⟨o, ho, rfl⟩ := List.mem_map.mp hcut
    intro nodes hnodes
    rcases List.mem_append.mp hnodes with hnodes | hnodes
    · exact houter o ho nodes hnodes
    · rw [List.mem_singleton.mp hnodes]
      rfl

/-- Combined queries are cut from the outer places and from the places of the own queries. -/
theorem Node.Inside.held_combine {n root : Node} (h : n.Inside root) {outer : List Cut}
    (houter : ∀ cut ∈ outer, cut.Held root) :
    ∀ cut ∈ Cut.combine outer n.heading, cut.Held root := by
  intro cut hcut
  unfold Cut.combine at hcut
  split at hcut
  · exact h.held_heading cut hcut
  · obtain ⟨m, hm, hcut⟩ := List.mem_flatMap.mp hcut
    obtain ⟨o, ho, rfl⟩ := List.mem_map.mp hcut
    intro run hrun
    rcases List.mem_append.mp hrun with hrun | hrun
    · exact houter o ho run hrun
    · rw [List.mem_singleton.mp hrun]
      exact h.holds_one (List.mem_filter.mp hm).1

/-! ## Every token is located -/

/-- Located tokens are the tokens of a stream, with texts from places in a tree. -/
structure Locates (src : Source) (root : Node) (ls : List Located) (tokens : List Token) :
    Prop where
  tokens_eq : ls.map Located.token = tokens
  cutFrom : ∀ l ∈ ls, l.token.CutFrom src l.cuts
  held : ∀ l ∈ ls, ∀ cut ∈ l.cuts, cut.Held root

section Locates

variable {src : Source} {root : Node}

theorem Locates.nil : Locates src root [] [] := ⟨rfl, by simp, by simp⟩

theorem Locates.append {ls ls' : List Located} {ts ts' : List Token} (h : Locates src root ls ts)
    (h' : Locates src root ls' ts') : Locates src root (ls ++ ls') (ts ++ ts') := by
  refine ⟨?_, ?_, ?_⟩
  · rw [List.map_append, h.tokens_eq, h'.tokens_eq]
  · exact List.forall_mem_append.mpr ⟨h.cutFrom, h'.cutFrom⟩
  · exact List.forall_mem_append.mpr ⟨h.held, h'.held⟩

theorem locates_one {l : Located} (h : l.token.CutFrom src l.cuts)
    (hheld : ∀ cut ∈ l.cuts, cut.Held root) : Locates src root [l] [l.token] :=
  ⟨rfl, by simpa using h, by simpa using hheld⟩

theorem Locates.enclosed {opening : Located} {closing : Token} {inner : List Located}
    {tokens : List Token} (hopening : Locates src root [opening] [opening.token])
    (hclosing : closing.CutFrom src []) (h : Locates src root inner tokens) :
    Locates src root (Source.enclosed opening closing inner)
      (opening.token :: (tokens ++ [closing])) :=
  hopening.append (h.append (locates_one (l := ⟨closing, []⟩) hclosing (by simp)))

theorem locates_unlocated {e : Emission} (h : ∀ t ∈ e.tokens, t.CutFrom src []) :
    Locates src root (Source.unlocated e) e.tokens := by
  refine ⟨?_, ?_, ?_⟩
  · unfold Source.unlocated
    rw [List.map_map]
    exact List.map_id _
  · intro l hl
    obtain ⟨t, ht, rfl⟩ := List.mem_map.mp hl
    exact h t ht
  · intro l hl
    obtain ⟨t, _, rfl⟩ := List.mem_map.mp hl
    simp

end Locates

namespace Source

variable (src : Source) {root : Node}

theorem cutFrom_declaration? {n : Node} {isLast : Bool} {d : Declaration}
    (h : src.declaration? n isLast = some d) :
    n.valueCuts.length ≤ 1 ∧ d.value = (n.valueCuts.head?.map (Cut.text src)).getD "" := by
  obtain ⟨property, _, rfl⟩ := Option.map_eq_some_iff.mp h
  unfold Node.valueCuts
  dsimp only
  rw [DeclarationParts.value_ofNode]
  split
  · exact ⟨by simp, rfl⟩
  · exact ⟨by simp, rfl⟩

theorem blockItems_declaration (make : Declaration → Token) {n : Node}
    (hn : n.isDeclaration = true) (rest : List Node) : (src.blockItems make (n :: rest)).tokens
      = (src.declaration? n (rest.all fun r => !r.isDeclaration)).toList.map make
          ++ (src.blockItems make rest).tokens := by
  rw [blockItems, tokens_append, if_pos hn]
  cases src.declaration? n (rest.all fun r => !r.isDeclaration) <;> rfl

/-- A node that is no declaration makes the same tokens alone as in a block. -/
theorem blockItems_other (make : Declaration → Token) {n : Node} (hn : n.isDeclaration = false)
    (rest : List Node) : (src.blockItems make (n :: rest)).tokens
      = (src.blockItems make [n]).tokens ++ (src.blockItems make rest).tokens := by
  simp [blockItems, hn, Emission.empty]

/-- In a block of any kind, where `make` makes the declarations. -/
theorem locates_block (make : Declaration → Token)
    (hmake : ∀ d cuts, cuts.length ≤ 1 ∧ d.value = (cuts.head?.map (Cut.text src)).getD "" →
      (make d).CutFrom src cuts) {nodes : List Node} (h : ∀ n ∈ nodes, n.Inside root) :
    Locates src root (src.locatedBlock make nodes) (src.blockItems make nodes).tokens := by
  induction nodes with
  | nil => exact .nil
  | cons n rest ih =>
      rw [List.forall_mem_cons] at h
      unfold locatedBlock
      dsimp only
      cases hn : n.isDeclaration with
      | true =>
          rw [src.blockItems_declaration make hn, if_pos rfl]
          refine Locates.append ?_ (ih h.2)
          cases hdecl : src.declaration? n (rest.all fun r => !r.isDeclaration) with
          | none => exact .nil
          | some d =>
              exact locates_one (l := ⟨make d, n.valueCuts⟩)
                (hmake d _ (src.cutFrom_declaration? hdecl)) h.1.held_valueCuts
      | false =>
          rw [src.blockItems_other make hn, if_neg (by simp)]
          refine Locates.append (locates_unlocated ?_) (ih h.2)
          intro t ht
          rcases src.blockItems_without_declarations make (by simp [hn]) t ht
            with ⟨text, rfl⟩ | ⟨text, rfl⟩
          · rfl
          · rfl

theorem cutFrom_verbatim (n : Node) : ∀ t ∈ (src.verbatim n).tokens, t.CutFrom src [] := by
  intro t ht
  rw [List.mem_singleton.mp ht]
  rfl

theorem cutFrom_brokenAtRule (text : String) :
    ∀ t ∈ (brokenAtRule text).tokens, t.CutFrom src [] := by
  intro t ht
  rw [List.mem_singleton.mp ht]
  rfl

theorem locates_ruleSet (media : List String) {n : Node} (h : n.Inside root) :
    Locates src root (src.locatedRuleSet media n) (src.ruleSet media n).tokens := by
  unfold locatedRuleSet
  split
  · rename_i hat
    apply locates_unlocated
    rw [ruleSet, if_pos hat]
    exact src.cutFrom_brokenAtRule _
  · rename_i hat
    rw [ruleSet, if_neg hat]
    cases hselectors : n.child? .selectors with
    | none => exact .nil
    | some selectors =>
        cases hb : n.child? .block with
        | none => exact .nil
        | some b =>
            have hinside := h.child (List.mem_of_find?_eq_some hselectors)
            have hblock := h.child (List.mem_of_find?_eq_some hb)
            have hbody := src.locates_block (fun d => .declaration d media) (fun _ _ hd => hd)
              (fun k hk => hblock.child hk)
            refine Locates.enclosed (locates_one (src.collapsed_heading _) ?_) (by rfl) hbody
            intro cut hcut
            obtain ⟨m, hm, rfl⟩ := List.mem_map.mp hcut
            exact hinside.held_node hm

theorem locates_keyframe {n : Node} (h : n.Inside root) :
    Locates src root (src.locatedKeyframe n) (src.keyframe n).tokens := by
  have hstart : (Token.keyframeStart (n.heading.map src.collapsed)).CutFrom src
      (n.heading.map Cut.node) := src.collapsed_heading n.heading
  unfold locatedKeyframe keyframe block
  cases hb : n.child? .block with
  | none => exact Locates.enclosed (locates_one hstart h.held_heading) (by rfl) .nil
  | some b =>
      have hblock := h.child (List.mem_of_find?_eq_some hb)
      have hbody := src.locates_block .keyframeDeclaration (fun _ _ hd => hd)
        (fun k hk => hblock.child hk)
      exact Locates.enclosed (locates_one hstart h.held_heading) (by rfl) hbody

theorem locates_keyframeItem {n : Node} (h : n.Inside root) :
    Locates src root (src.locatedKeyframeItem n) (src.keyframeItem n).tokens := by
  unfold locatedKeyframeItem
  split
  · rename_i hkind
    rw [keyframeItem, if_pos hkind]
    exact src.locates_keyframe h
  · rename_i hkind
    apply locates_unlocated
    rw [keyframeItem, if_neg hkind]
    split
    · intro t ht
      rw [List.mem_singleton.mp ht]
      rfl
    · simp [Emission.empty]

theorem locates_keyframes {n : Node} (h : n.Inside root) :
    Locates src root (src.locatedKeyframes n) (src.keyframes n).tokens := by
  have hitems : ∀ nodes : List Node, (∀ k ∈ nodes, k.Inside root) →
      Locates src root (nodes.flatMap src.locatedKeyframeItem)
        (Emission.join (nodes.map src.keyframeItem)).tokens := by
    intro nodes hnodes
    induction nodes with
    | nil => exact .nil
    | cons k nodes ih =>
        rw [List.forall_mem_cons] at hnodes
        exact (src.locates_keyframeItem hnodes.1).append (ih hnodes.2)
  have hinside : ∀ k ∈ ((n.child? .keyframeBlockList).map Node.children).getD [],
      k.Inside root := by
    intro k hk
    cases hlist : n.child? .keyframeBlockList with
    | none => simp [hlist] at hk
    | some list =>
        rw [hlist] at hk
        exact (h.child (List.mem_of_find?_eq_some hlist)).child hk
  rw [locatedKeyframes, List.append_assoc]
  exact Locates.enclosed (locates_one rfl (by simp)) rfl (hitems _ hinside)

theorem locates_atRule {n : Node} (h : n.Inside root) :
    Locates src root (src.locatedAtRule n) (src.atRule n).tokens := by
  unfold locatedAtRule
  split
  · rename_i b hkeyword hb
    have hblock := h.child (List.mem_of_find?_eq_some hb)
    rw [atRule, hkeyword, hb]
    have hbody := src.locates_block .fontFaceDeclaration (fun _ _ hd => hd)
      (fun k hk => hblock.child hk)
    exact Locates.enclosed (locates_one rfl (by simp)) rfl hbody
  · rename_i hother
    apply locates_unlocated
    rw [atRule]
    split
    · rename_i b hkeyword hb
      exact absurd hb (hother b hkeyword)
    · exact src.cutFrom_verbatim n

theorem locates_plainItem {n : Node} (h : n.Inside root) :
    Locates src root (src.locatedPlainItem n) (src.plainItem n).tokens := by
  unfold locatedPlainItem
  split
  · rename_i hkind
    have hcharset : ¬ (n.kind == .charsetStatement) = true := by
      rw [beq_iff_eq.mp hkind]
      decide
    rw [plainItem, if_neg hcharset, if_pos hkind]
    exact src.locates_keyframes h
  · rename_i hkeyframes
    split
    · rename_i hkind
      have hcharset : ¬ (n.kind == .charsetStatement) = true := by
        rw [beq_iff_eq.mp hkind]
        decide
      rw [plainItem, if_neg hcharset, if_neg hkeyframes, if_pos hkind]
      exact src.locates_atRule h
    · rename_i hatRule
      apply locates_unlocated
      rw [plainItem, if_neg hkeyframes, if_neg hatRule]
      split
      · rw [charset]
        split <;> simp [Emission.one, Emission.say, Token.CutFrom]
      · split
        · simp [Emission.one, Token.CutFrom]
        · split
          · simp [Emission.say]
          · split
            · exact src.cutFrom_verbatim n
            · simp [Emission.empty]

mutual

/-- Any list of nodes of a tree, below queries from places in that tree. -/
theorem locates_items {outer : List Cut} (houter : ∀ cut ∈ outer, cut.Held root)
    (hone : ∀ cut ∈ outer, cut.OneNode) :
    ∀ nodes : List Node, (∀ n ∈ nodes, n.Inside root) →
      Locates src root (src.locatedItems outer nodes) (src.items (src.queriesAt outer) nodes).tokens
  | [], _ => by rw [locatedItems, items]; exact .nil
  | [n], h => by
      rw [locatedItems, items]
      exact locates_item houter hone n (h n (by simp))
  | n :: next :: rest, h => by
      rw [List.forall_mem_cons] at h
      rw [locatedItems, items]
      split
      · exact (locates_unlocated (src.cutFrom_brokenAtRule _)).append
          (locates_items houter hone rest (List.forall_mem_cons.mp h.2).2)
      · exact (locates_item houter hone n h.1).append (locates_items houter hone (next :: rest) h.2)

theorem locates_item {outer : List Cut} (houter : ∀ cut ∈ outer, cut.Held root)
    (hone : ∀ cut ∈ outer, cut.OneNode) :
    ∀ n : Node, n.Inside root →
      Locates src root (src.locatedItem outer n) (src.item (src.queriesAt outer) n).tokens
  | .mk kind span children, h => by
      rw [locatedItem, item]
      split
      · exact src.locates_ruleSet _ h
      · split
        · dsimp only
          rw [queries_queriesAt, tokens_between]
          have hcuts := h.held_combine houter
          have hone' := Cut.oneNode_combine hone (Node.mk kind span children).heading
          exact Locates.enclosed (locates_one ⟨rfl, hone'⟩ hcuts) rfl
            (locates_mediaBlock hcuts hone' children fun k hk => h.child hk)
        · exact src.locates_plainItem h

theorem locates_mediaBlock {outer : List Cut} (houter : ∀ cut ∈ outer, cut.Held root)
    (hone : ∀ cut ∈ outer, cut.OneNode) :
    ∀ nodes : List Node, (∀ n ∈ nodes, n.Inside root) →
      Locates src root (src.locatedMediaBlock outer nodes)
        (src.mediaBlock (src.queriesAt outer) nodes).tokens
  | [], _ => by rw [locatedMediaBlock, mediaBlock]; exact .nil
  | .mk kind span children :: rest, h => by
      rw [List.forall_mem_cons] at h
      rw [locatedMediaBlock, mediaBlock]
      split
      · exact locates_items houter hone children fun k hk => h.1.child hk
      · exact locates_mediaBlock houter hone rest h.2

end

/-- The tokens of a whole tree with their places. -/
def located (src : Source) (root : Node) : List Located := src.locatedItems [] root.children

theorem locates_located (root : Node) :
    Locates src root (src.located root) (src.items [] root.children).tokens :=
  src.locates_items (by simp) (by simp) root.children fun _ hn => (Node.Inside.self root).child hn

end Source

end CssNest
