import CssNest.Proofs.Lines

/-!
# Reading a block back

Nothing of a block is lost when it is written. The reader here goes through the lines once and
keeps the blocks that are still open on a stack. It tells the three kinds of lines apart by
their braces: segments and rule texts have none, so a line with a closing brace closes the
innermost block, one with an opening brace opens a block, and any other is a rule text. How far
a line is indented is known from the depth of the stack, so tabs at the start of a text or a
segment do no harm.

The reader builds blocks with `addRule` and `addChild` only. That it arrives at the block that was
written, with the rule texts in their old place among the nested blocks, needs that they stand
together and that a place is set only if there are some: the block has to be well formed.
-/

namespace CssNest

/-- One more nested block, at the end. -/
def Block.addChild (b : Block) (segment : String) (c : Block) : Block :=
  .mk (b.children ++ [(segment, c)]) b.rules b.rulesAt

/-! ## The reader -/

/-- Where a reader stands between two lines. -/
structure Reader where
  /-- How far the lines of the open block are indented. -/
  level : Nat
  /-- The blocks around the open one, the innermost first, each with the segment open in it. -/
  above : List (String × Block)
  /-- What the open block has by now. -/
  block : Block

namespace Reader

/-- Reads a line. There is nothing to close at the outermost level. -/
def readLine (r : Reader) (l : List Char) : Option Reader :=
  if l.contains '\x7d' then
    match r.above with
    | [] => none
    | (segment, parent) :: above => some ⟨r.level - 1, above, parent.addChild segment r.block⟩
  else if l.contains '\x7b' then
    let segment := String.ofList ((l.drop r.level).dropLast.dropLast)
    some ⟨r.level + 1, (segment, r.block) :: r.above, .empty⟩
  else some { r with block := r.block.addRule (String.ofList (l.drop r.level)) }

/-- Reads lines one after the other. -/
def readLines (r : Reader) (ls : List (List Char)) : Option Reader := ls.foldlM readLine r

/-- The block that was read, if no other one is open. -/
def result (r : Reader) : Option Block := if r.above.isEmpty then some r.block else none

end Reader

/-- The block that a text is the text of, when it is written at `level`. -/
def Block.read? (level : Nat) (text : String) : Option Block :=
  ((Reader.mk level [] .empty).readLines (text.toList.splitOn '\n').dropLast).bind Reader.result

namespace Reader

open Block (ruleLine openingLine closingLine childLines)

theorem readLines_append (r : Reader) (ls ls' : List (List Char)) :
    r.readLines (ls ++ ls') = (r.readLines ls).bind fun r' => r'.readLines ls' :=
  List.foldlM_append

theorem readLines_cons (r : Reader) (l : List Char) (ls : List (List Char)) :
    r.readLines (l :: ls) = (r.readLine l).bind fun r' => r'.readLines ls :=
  List.foldlM_cons

/-! ## One line -/

theorem drop_tabs (level : Nat) (cs : List Char) :
    (List.replicate level '\t' ++ cs).drop level = cs := by
  rw [List.drop_append_of_le_length (by simp), List.drop_replicate, Nat.sub_self]
  rfl

/-- A plain text with tabs before it has no brace. -/
theorem contains_ruleLine {text : String} (h : Spells Plain text) (level : Nat) :
    (ruleLine level text).contains '\x7b' = false
      ∧ (ruleLine level text).contains '\x7d' = false := by
  have hne : ∀ x ∈ ruleLine level text, x ≠ '\x7b' ∧ x ≠ '\x7d' :=
    Block.forall_mem_ruleLine (by decide) (fun x hx => (h x hx).2) level
  refine ⟨?_, ?_⟩
  · rw [List.contains_eq_mem, decide_eq_false_iff_not]
    exact fun hx => (hne _ hx).1 rfl
  · rw [List.contains_eq_mem, decide_eq_false_iff_not]
    exact fun hx => (hne _ hx).2 rfl

theorem readLine_rule {text : String} (h : Spells Plain text) (r : Reader) :
    r.readLine (ruleLine r.level text) = some { r with block := r.block.addRule text } := by
  obtain ⟨hopen, hclose⟩ := contains_ruleLine h r.level
  rw [readLine, hclose, hopen, ruleLine, drop_tabs, String.ofList_toList]
  rfl

theorem readLine_opening {segment : String} (h : Spells Plain segment) (r : Reader) :
    r.readLine (openingLine r.level segment)
      = some ⟨r.level + 1, (segment, r.block) :: r.above, .empty⟩ := by
  -- up to its last two characters the line is that of a rule text
  have hline : openingLine r.level segment = ruleLine r.level segment ++ [' ', '\x7b'] := rfl
  have hclose : (openingLine r.level segment).contains '\x7d' = false := by
    rw [hline, List.contains_append, (contains_ruleLine h r.level).2]
    rfl
  have hopen : (openingLine r.level segment).contains '\x7b' = true := by
    rw [hline, List.contains_append]
    simp
  have hsegment : ((openingLine r.level segment).drop r.level).dropLast.dropLast
      = segment.toList := by
    rw [openingLine, List.append_assoc, drop_tabs]
    simp
  rw [readLine, hclose, hopen, hsegment, String.ofList_toList]
  rfl

theorem readLine_closing (level : Nat) (segment : String) (parent b : Block)
    (above : List (String × Block)) :
    (Reader.mk (level + 1) ((segment, parent) :: above) b).readLine (closingLine level)
      = some ⟨level, above, parent.addChild segment b⟩ := by
  have hclose : (closingLine level).contains '\x7d' = true := by
    unfold closingLine
    simp
  rw [readLine, hclose]
  rfl

/-! ## Many lines -/

/-- The lines of some rule texts add the texts. -/
theorem readLines_rules {texts : List String} (h : ∀ text ∈ texts, Spells Plain text)
    (r : Reader) :
    r.readLines (texts.map (ruleLine r.level))
      = some { r with block := texts.foldl Block.addRule r.block } := by
  induction texts generalizing r with
  | nil => rfl
  | cons text texts ih =>
      rw [List.forall_mem_cons] at h
      rw [List.map_cons, readLines_cons, readLine_rule h.1]
      exact ih h.2 { r with block := r.block.addRule text }

/-- Its lines take a reader from an empty block to the block, whatever is open around it. -/
def ReadsBack (b : Block) : Prop :=
  ∀ (level : Nat) (above : List (String × Block)),
    (Reader.mk level above .empty).readLines (b.lines level) = some ⟨level, above, b⟩

/-- The lines of nested blocks add these blocks, if each of them reads back. -/
theorem readLines_children {cs : List (String × Block)}
    (hsegments : ∀ c ∈ cs, Spells Plain c.1) (hback : ∀ c ∈ cs, ReadsBack c.2)
    (r : Reader) :
    r.readLines (childLines r.level cs).flatten
      = some { r with block := .mk (r.block.children ++ cs) r.block.rules r.block.rulesAt } := by
  induction cs generalizing r with
  | nil =>
      obtain ⟨level, above, ⟨ds, rs, i⟩⟩ := r
      rw [childLines, List.append_nil]
      rfl
  | cons c cs ih =>
      obtain ⟨segment, block⟩ := c
      rw [List.forall_mem_cons] at hsegments hback
      -- one nested block: its opening line, what it holds, its closing line
      have hone : r.readLines (openingLine r.level segment
            :: (block.lines (r.level + 1) ++ [closingLine r.level]))
          = some { r with block := r.block.addChild segment block } := by
        rw [readLines_cons, readLine_opening hsegments.1, Option.bind_some, readLines_append,
          hback.1, Option.bind_some, readLines_cons, readLine_closing]
        rfl
      rw [childLines, List.flatten_cons, readLines_append, hone, Option.bind_some]
      refine (ih hsegments.2 hback.2 { r with block := r.block.addChild segment block }).trans ?_
      simp [Block.addChild, Block.children, Block.rules, Block.rulesAt]

/-- Rule texts that are added to nested blocks stand behind these. -/
theorem foldl_addRule {texts : List String} (h : texts ≠ []) (cs : List (String × Block)) :
    texts.foldl Block.addRule (.mk cs [] none) = .mk cs texts (some cs.length) := by
  -- from the second text on the place is set, and only the texts become more
  have hmore : ∀ (more before : List String),
      more.foldl Block.addRule (.mk cs before (some cs.length))
        = .mk cs (before ++ more) (some cs.length) := by
    intro more
    induction more with
    | nil => simp
    | cons text more ih =>
        intro before
        have hstep : (Block.mk cs before (some cs.length)).addRule text
            = .mk cs (before ++ [text]) (some cs.length) := rfl
        rw [List.foldl_cons, hstep, ih, List.append_assoc]
        rfl
  cases texts with
  | nil => exact absurd rfl h
  | cons text texts => exact hmore texts [text]

end Reader

namespace Block

open Reader (ReadsBack)

/-- A well-formed block without braces or newlines in its texts reads back. -/
theorem WellFormed.readsBack {b : Block} (h : WellFormed b) (hplain : Spelled Plain b) :
    ReadsBack b := by
  induction h with
  | @mk cs rs i _ _ hiff hle ih =>
      cases hplain with
      | mk hsegments hchildren hrules =>
          have hback : ∀ c ∈ cs, ReadsBack c.2 := fun c hc => ih c hc (hchildren c hc)
          intro level above
          rw [lines]
          cases i with
          | none =>
              -- no place for rule texts, so there are none
              rw [hiff.mp rfl]
              exact Reader.readLines_children hsegments hback ⟨level, above, .empty⟩
          | some i =>
              have hi : i ≤ cs.length := hle i rfl
              have hne : rs ≠ [] := fun hnil => absurd (hiff.mpr hnil) (by simp)
              have hcs : i ≤ (childLines level cs).length := by
                rw [childLines_eq_map, List.length_map]
                exact hi
              have htake : (childLines level cs).take i = childLines level (cs.take i) := by
                rw [childLines_eq_map, childLines_eq_map, List.map_take]
              have hdrop : (childLines level cs).drop i = childLines level (cs.drop i) := by
                rw [childLines_eq_map, childLines_eq_map, List.map_drop]
              -- nested blocks up to the place, then the rule texts, then the other blocks
              have hbefore := Reader.readLines_children
                (fun c hc => hsegments c (List.mem_of_mem_take hc))
                (fun c hc => hback c (List.mem_of_mem_take (i := i) hc)) ⟨level, above, .empty⟩
              have htexts := Reader.readLines_rules hrules ⟨level, above, .mk (cs.take i) [] none⟩
              have hafter := Reader.readLines_children
                (fun c hc => hsegments c (List.mem_of_mem_drop hc))
                (fun c hc => hback c (List.mem_of_mem_drop (i := i) hc))
                ⟨level, above, .mk (cs.take i) rs (some i)⟩
              have hplace : rs.foldl Block.addRule (.mk (cs.take i) [] none)
                  = .mk (cs.take i) rs (some i) := by
                rw [Reader.foldl_addRule hne, List.length_take, Nat.min_eq_left hi]
              rw [insertAt_of_le hcs, List.flatten_append, List.flatten_cons, htake, hdrop,
                Reader.readLines_append, hbefore, Option.bind_some, Reader.readLines_append]
              dsimp only [empty, children, rules, rulesAt, List.nil_append] at htexts hafter ⊢
              rw [htexts, Option.bind_some, hplace, hafter, List.take_append_drop]

/-- The text of such a block is read as the block. -/
theorem WellFormed.read?_render {b : Block} (h : WellFormed b) (hplain : Spelled Plain b)
    (level : Nat) : read? level (b.render level) = some b := by
  have hlines : ∀ l ∈ b.lines level, '\n' ∉ l :=
    (hplain.mono fun _ hx => hx.1).notMem_lines level
  rw [read?, toList_render, splitOn_unlines hlines, List.dropLast_concat,
    h.readsBack hplain level []]
  rfl

/--
**Writing a block loses nothing.** Take two blocks that grew from nothing by any visits, and whose
segments and rule texts, at every depth, have no newline and no brace. Each is what is read from
its own text, at any level. So if their texts are the same, they are the same block: the same
nested blocks in the same order, the same rule texts, and these in the same place among the nested
blocks, at every depth.
-/
theorem render_determines_block (level : Nat) (vs ws : List Visit)
    (hv : Spelled Plain (empty.visitAll vs)) (hw : Spelled Plain (empty.visitAll ws)) :
    read? level ((empty.visitAll vs).render level) = some (empty.visitAll vs)
      ∧ ((empty.visitAll vs).render level = (empty.visitAll ws).render level →
          empty.visitAll vs = empty.visitAll ws) := by
  have hreadv := (wellFormed_empty.visitAll vs).read?_render hv level
  have hreadw := (wellFormed_empty.visitAll ws).read?_render hw level
  refine ⟨hreadv, ?_⟩
  intro heq
  rw [heq, hreadw] at hreadv
  exact (Option.some.inj hreadv).symm

/-- An empty block, then a rule text that starts with a tab, then a block in a block. -/
def sampleVisits : List Visit :=
  [⟨["a"], none⟩, ⟨[], some "\ttop: 0;"⟩, ⟨["b", ">c"], some "left: 0"⟩]

/-- Other visits that leave the same block. -/
def otherVisits : List Visit :=
  [⟨["a"], none⟩, ⟨[], some "\ttop: 0;"⟩, ⟨["b"], none⟩, ⟨["b", ">c"], some "left: 0"⟩,
    ⟨["a"], none⟩]

theorem spelled_sampleVisits : Spelled Plain (empty.visitAll sampleVisits) := by
  have hvisits : empty.visitAll sampleVisits
      = .mk [("a", empty), ("b", .mk [(">c", .mk [] ["left: 0"] (some 0))] [] none)]
          ["\ttop: 0;"] (some 1) := rfl
  rw [hvisits]
  have hinner : Spelled Plain (.mk [] ["left: 0"] (some 0)) :=
    .mk (by simp) (by simp) (by simp [Spells, Plain])
  have hb : Spelled Plain (.mk [(">c", .mk [] ["left: 0"] (some 0))] [] none) :=
    .mk (by simp [Spells, Plain]) (by simpa using hinner) (by simp)
  have ha : Spelled Plain empty := .mk (by simp) (by simp) (by simp)
  exact .mk (by simp [Spells, Plain]) (by simpa using ⟨ha, hb⟩) (by simp [Spells, Plain])

theorem render_determines_sampleVisits :
    Spelled Plain (empty.visitAll sampleVisits) ∧ Spelled Plain (empty.visitAll otherVisits)
      ∧ read? 1 ((empty.visitAll sampleVisits).render 1) = some (empty.visitAll sampleVisits)
      ∧ ((empty.visitAll sampleVisits).render 1 = (empty.visitAll otherVisits).render 1 →
          empty.visitAll sampleVisits = empty.visitAll otherVisits) :=
  ⟨spelled_sampleVisits, spelled_sampleVisits,
    render_determines_block 1 sampleVisits otherVisits spelled_sampleVisits spelled_sampleVisits⟩

end Block

end CssNest
