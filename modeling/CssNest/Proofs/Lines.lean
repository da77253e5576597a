import CssNest.Proofs.Block

/-!
# A block, line by line

The text of a block is a sequence of lines of three kinds: a line that opens a nested block,
a line that closes one, and a line for each rule text. `Block.lines` lists them without their
newlines, so that what is said about the text can be said about one line after the other.
-/

namespace CssNest

/-! ## Characters of texts -/

/-- Every character of the text has `P`. -/
def Spells (P : Char → Prop) (s : String) : Prop := ∀ x ∈ s.toList, P x

/-- Neither a newline nor a brace. -/
def Plain (c : Char) : Prop := c ≠ '\n' ∧ c ≠ '\x7b' ∧ c ≠ '\x7d'

/-! ## Texts made of lines -/

/-- The text of some lines, each with its newline. -/
def unlines (ls : List (List Char)) : List Char := ls.flatMap (· ++ ['\n'])

@[simp] theorem unlines_nil : unlines [] = [] := rfl

@[simp] theorem unlines_cons (l : List Char) (ls : List (List Char)) :
    unlines (l :: ls) = l ++ '\n' :: unlines ls := by
  simp [unlines]

@[simp] theorem unlines_append (ls ls' : List (List Char)) :
    unlines (ls ++ ls') = unlines ls ++ unlines ls' := by
  simp [unlines]

/-- Lines that have no newline of their own are found again, with nothing behind the last. -/
theorem splitOn_unlines {ls : List (List Char)} (h : ∀ l ∈ ls, '\n' ∉ l) :
    (unlines ls).splitOn '\n' = ls ++ [[]] := by
  unfold List.splitOn
  induction ls with
  | nil => rfl
  | cons l ls ih =>
      rw [List.forall_mem_cons] at h
      have hline : l.splitOnP (fun c => c == '\n') = [l] := by
        rw [List.splitOnP_eq_singleton]
        intro c hc
        exact beq_false_of_ne fun hcn => h.1 (hcn ▸ hc)
      rw [unlines_cons, List.splitOnP_append_cons _ _ (by simp), hline, ih h.2]
      rfl

theorem mem_of_mem_insertAt {α : Type} {i : Option Nat} {x y : α} {xs : List α}
    (h : y ∈ insertAt i x xs) : y = x ∨ y ∈ xs := by
  cases i with
  | none => exact .inr h
  | some i =>
      unfold insertAt at h
      dsimp only at h
      split at h
      · rcases List.mem_append.mp h with h | h
        · exact .inr (List.mem_of_mem_take h)
        · rcases List.mem_cons.mp h with h | h
          · exact .inl h
          · exact .inr (List.mem_of_mem_drop h)
      · exact .inr h

namespace Block

/-! ## The three kinds of lines -/

/-- The line of a rule text. -/
def ruleLine (level : Nat) (text : String) : List Char := List.replicate level '\t' ++ text.toList

/-- The line that opens a nested block. -/
def openingLine (level : Nat) (segment : String) : List Char :=
  List.replicate level '\t' ++ segment.toList ++ [' ', '\x7b']

/-- The line that closes a nested block. -/
def closingLine (level : Nat) : List Char := List.replicate level '\t' ++ ['\x7d']

theorem forall_mem_ruleLine {P : Char → Prop} (htab : P '\t') {text : String} (h : Spells P text)
    (level : Nat) : ∀ x ∈ ruleLine level text, P x :=
  List.forall_mem_append.mpr ⟨List.forall_mem_replicate.mpr (.inr htab), h⟩

mutual

/-- The lines of a block, written at `level`. -/
def lines (level : Nat) : Block → List (List Char)
  | mk children rules rulesAt =>
    (insertAt rulesAt (rules.map (ruleLine level)) (childLines level children)).flatten

/-- The lines of the nested blocks, one list for each. -/
def childLines (level : Nat) : List (String × Block) → List (List (List Char))
  | [] => []
  | (segment, block) :: rest =>
    (openingLine level segment :: (block.lines (level + 1) ++ [closingLine level]))
      :: childLines level rest

end

theorem childLines_eq_map (level : Nat) (cs : List (String × Block)) :
    childLines level cs = cs.map fun c =>
      openingLine level c.1 :: (c.2.lines (level + 1) ++ [closingLine level]) := by
  induction cs with
  | nil => rw [childLines, List.map_nil]
  | cons c cs ih =>
      obtain ⟨segment, block⟩ := c
      rw [childLines, ih, List.map_cons]

theorem toList_indentation (level : Nat) :
    (Token.indentation level).toList = List.replicate level '\t' := by
  rw [Token.indentation, String.toList_ofList]

theorem toList_renderRules (level : Nat) (texts : List String) :
    (renderRules level texts).toList = unlines (texts.map (ruleLine level)) := by
  rw [renderRules, String.toList_join, List.flatMap_map, unlines, List.flatMap_map]
  congr 1
  funext text
  simp [ruleLine, toList_indentation]

mutual

/-- The text of a block is that of its lines. -/
theorem toList_render (level : Nat) :
    ∀ b : Block, (b.render level).toList = unlines (b.lines level)
  | mk children rules rulesAt => by
      have hmap : (insertAt rulesAt (renderRules level rules)
            (renderChildren level children)).map String.toList
          = (insertAt rulesAt (rules.map (ruleLine level)) (childLines level children)).map
              unlines := by
        rw [map_insertAt, map_insertAt, toList_renderRules, toList_renderChildren]
      rw [render, lines, String.toList_join, List.flatMap_def, hmap, unlines, List.flatMap_def,
        List.map_flatten, List.flatten_flatten, List.map_map]
      rfl

theorem toList_renderChildren (level : Nat) :
    ∀ cs : List (String × Block),
      (renderChildren level cs).map String.toList = (childLines level cs).map unlines
  | [] => by
      rw [renderChildren, childLines]
      rfl
  | (segment, block) :: rest => by
      rw [renderChildren, childLines, List.map_cons, List.map_cons,
        toList_renderChildren level rest]
      congr 1
      simp [toList_render (level + 1) block, toList_indentation, openingLine, closingLine]

end

/-! ## Induction over the lines -/

/-- At every depth the segments and the rule texts have only characters with `P`. -/
inductive Spelled (P : Char → Prop) : Block → Prop where
  | mk {children : List (String × Block)} {rules : List String} {rulesAt : Option Nat} :
      (∀ c ∈ children, Spells P c.1) → (∀ c ∈ children, Spelled P c.2) →
      (∀ text ∈ rules, Spells P text) → Spelled P (.mk children rules rulesAt)

theorem Spelled.mono {P Q : Char → Prop} (hPQ : ∀ x, P x → Q x) {b : Block} (h : Spelled P b) :
    Spelled Q b := by
  induction h with
  | mk hsegments _ hrules ih =>
      exact .mk (fun c hc x hx => hPQ x (hsegments c hc x hx)) ih
        fun text ht x hx => hPQ x (hrules text ht x hx)

/--
What holds of no lines, of the lines of a rule text, of a nested block if it holds of what is
in it, and of one part after another, holds of the lines of every block.
-/
theorem Spelled.lines_induction {P : Char → Prop} {Q : Nat → List (List Char) → Prop}
    (hnil : ∀ level, Q level [])
    (happend : ∀ level ls ls', Q level ls → Q level ls' → Q level (ls ++ ls'))
    (hrule : ∀ level text, Spells P text → Q level [ruleLine level text])
    (hchild : ∀ level segment ls, Spells P segment → Q (level + 1) ls →
      Q level (openingLine level segment :: (ls ++ [closingLine level])))
    {b : Block} (h : Spelled P b) : ∀ level, Q level (b.lines level) := by
  have hflatten : ∀ level (parts : List (List (List Char))), (∀ ls ∈ parts, Q level ls) →
      Q level parts.flatten := by
    intro level parts
    induction parts with
    | nil => exact fun _ => hnil level
    | cons ls parts ih =>
        intro hparts
        rw [List.forall_mem_cons] at hparts
        exact happend level _ _ hparts.1 (ih hparts.2)
  have htexts : ∀ level (texts : List String), (∀ text ∈ texts, Spells P text) →
      Q level (texts.map (ruleLine level)) := by
    intro level texts
    induction texts with
    | nil => exact fun _ => hnil level
    | cons text texts ih =>
        intro hspelled
        rw [List.forall_mem_cons] at hspelled
        exact happend level [_] _ (hrule level text hspelled.1) (ih hspelled.2)
  induction h with
  | @mk cs rs i hsegments _ hrules ih =>
      intro level
      rw [lines]
      apply hflatten
      intro ls hls
      rcases mem_of_mem_insertAt hls with rfl | hls
      · exact htexts level rs hrules
      · rw [childLines_eq_map] at hls
        obtain ⟨c, hc, rfl⟩ := List.mem_map.mp hls
        exact hchild level c.1 _ (hsegments c hc) (ih c hc (level + 1))

/-- Segments and texts without newlines make lines without newlines. -/
theorem Spelled.notMem_lines {b : Block} (h : Spelled (· ≠ '\n') b) (level : Nat) :
    ∀ l ∈ b.lines level, '\n' ∉ l := by
  have hspelled : ∀ s : String, Spells (· ≠ '\n') s → '\n' ∉ s.toList := fun s hs hmem =>
    hs _ hmem rfl
  refine h.lines_induction (Q := fun _ ls => ∀ l ∈ ls, '\n' ∉ l) ?_ ?_ ?_ ?_ level
  · simp
  · intro level ls ls' hls hls'
    exact List.forall_mem_append.mpr ⟨hls, hls'⟩
  · intro level text ht
    simp [ruleLine, hspelled text ht]
  · intro level segment ls hs hls
    simp only [List.forall_mem_cons, List.forall_mem_append, List.mem_singleton, forall_eq]
    refine ⟨?_, hls, ?_⟩
    · simp [openingLine, hspelled segment hs]
    · simp [closingLine]

end Block

end CssNest
