import CssNest.Proofs.Scans

/-!
# The path of an ordinary selector

Four scans take a selector apart, each with a state of its own: one of them knows a flag
for brackets, one a quote and a depth, one a quote only. None of them knows what a
selector is. Here is a grammar of ordinary selectors, with attributes, pseudo-classes and
all four combinators, and the path that one expects for each: a segment for each compound
selector, then one for each of its pseudo-classes.

The scans are followed one by one on the printed selector. All but the last return to
their first state behind each part of it, so it is enough to know what they do to a part
wherever it stands; that is what `Turns` says. After the third scan the text is the list
of segments with spaces in between, and the fourth one splits it there.
-/

namespace CssNest.Selector

open Text

/-! ## The grammar -/

/-- What may stand in an attribute before its value, and between the brackets of a pseudo-class. -/
def isPlain (c : Char) : Bool := !isBlank c && !isQuote c && !isBracket c && c != '>'

/-- What may stand in a name. -/
def isNameChar (c : Char) : Bool := isPlain c && c != ':' && c != '+' && c != '~'

/-- The name of an element, a class, an identifier or a pseudo-class. -/
structure Name where
  chars : List Char
  nonempty : chars ≠ []
  valid : ∀ c ∈ chars, isNameChar c = true

/-- A test of an attribute, such as `[class~="a b"]`; the operator counts as part of `name`. -/
structure Attribute where
  name : List Char
  quote : Char
  value : List Char
  name_valid : ∀ c ∈ name, isPlain c = true
  quote_valid : isQuote quote = true
  value_valid : ∀ c ∈ value, c ≠ quote ∧ c ≠ '>' ∧ isBracket c = false

/-- A pseudo-class or, with two colons, a pseudo-element, such as `:nth-child(2n+1)`. -/
structure Pseudo where
  double : Bool
  name : Name
  argument : Option (List Char)
  argument_valid : ∀ a ∈ argument, ∀ c ∈ a, isPlain c = true

/-- A selector without combinators. -/
structure Compound where
  name : Name
  attributes : List Attribute
  pseudos : List Pseudo

/-- How two compound selectors are combined. -/
inductive Combinator where
  | descendant
  | child
  | adjacent
  | sibling
deriving DecidableEq, Repr

/-- A selector: compound selectors with combinators between them. -/
structure Complex where
  first : Compound
  rest : List (Combinator × Compound)

namespace Attribute

/-- The attribute as written. -/
def text (a : Attribute) : List Char :=
  '[' :: (a.name ++ a.quote :: (a.value ++ [a.quote, ']']))

end Attribute

namespace Pseudo

/-- The colons of a pseudo-class. -/
def colons (p : Pseudo) : List Char := if p.double then [':', ':'] else [':']

/-- The argument with its brackets, if there is one. -/
def argumentText (p : Pseudo) : List Char :=
  match p.argument with
  | none => []
  | some a => '(' :: (a ++ [')'])

/-- The pseudo-class as written. -/
def text (p : Pseudo) : List Char := p.colons ++ (p.name.chars ++ p.argumentText)

end Pseudo

namespace Compound

/-- The name with the attributes, all that comes before the pseudo-classes. -/
def head (c : Compound) : List Char := c.name.chars ++ c.attributes.flatMap Attribute.text

/-- The compound selector with `mark` before each of its pseudo-classes. -/
def spell (mark : List Char) (c : Compound) : List Char :=
  c.head ++ c.pseudos.flatMap fun p => mark ++ p.text

/-- The segments of a compound selector, the first of them with `lead` before it. -/
def segments (lead : List Char) (c : Compound) : List (List Char) :=
  (lead ++ c.head) :: c.pseudos.map fun p => '&' :: p.text

end Compound

namespace Combinator

/-- The combinator as written. -/
def text : Combinator → List Char
  | descendant => [' ']
  | child => [' ', '>', ' ']
  | adjacent => [' ', '+', ' ']
  | sibling => [' ', '~', ' ']

/-- What a segment gets from the combinator before it. -/
def lead : Combinator → List Char
  | descendant => []
  | child => ['>']
  | adjacent => ['&', '+']
  | sibling => ['&', '~']

end Combinator

namespace Complex

/-- The selector with given spellings of the combinators and marks of pseudo-classes. -/
def spell (mark : List Char) (gap : Combinator → List Char) (s : Complex) : List Char :=
  s.first.spell mark ++ s.rest.flatMap fun e => gap e.1 ++ e.2.spell mark

/-- The selector as written. -/
def text (s : Complex) : List Char := s.spell [] Combinator.text

/-- The path that the selector is nested along. -/
def path (s : Complex) : List (List Char) :=
  s.first.segments [] ++ s.rest.flatMap fun e => e.2.segments e.1.lead

end Complex

/-! ## Scans that return to their first state -/

/-- Whatever follows, `f` turns `xs` into `ys` and then starts anew. -/
def Turns (f : List Char → List Char) (xs ys : List Char) : Prop :=
  ∀ rest, f (xs ++ rest) = ys ++ f rest

namespace Turns

variable {f : List Char → List Char}

theorem nil : Turns f [] [] := fun _ => rfl

theorem append {xs xs' ys ys' : List Char} (h : Turns f xs ys) (h' : Turns f xs' ys') :
    Turns f (xs ++ xs') (ys ++ ys') := by
  intro rest
  rw [List.append_assoc, h, h', List.append_assoc]

/-- On a whole text the scan ends where it starts. -/
theorem result {xs ys : List Char} (h : Turns f xs ys) (hf : f [] = []) : f xs = ys := by
  have hend := h []
  rw [List.append_nil, hf, List.append_nil] at hend
  exact hend

theorem flatMap {α : Type} {l : List α} {g g' : α → List Char}
    (h : ∀ x ∈ l, Turns f (g x) (g' x)) : Turns f (l.flatMap g) (l.flatMap g') := by
  induction l with
  | nil => exact nil
  | cons x l ih =>
      rw [List.flatMap_cons, List.flatMap_cons]
      exact (h x (by simp)).append (ih fun y hy => h y (List.mem_cons_of_mem _ hy))

/-- A text is kept if each of its characters is. -/
theorem of_chars {xs : List Char} (h : ∀ c ∈ xs, Turns f [c] [c]) : Turns f xs xs := by
  have hflat : Turns f (xs.flatMap fun c => [c]) (xs.flatMap fun c => [c]) := flatMap h
  simpa using hflat

/-- It is enough to look at the parts of a selector. -/
theorem spell {mark mark' : List Char} {gap gap' : Combinator → List Char}
    (hhead : ∀ c : Compound, Turns f c.head c.head)
    (hpseudo : ∀ p : Pseudo, Turns f (mark ++ p.text) (mark' ++ p.text))
    (hgap : ∀ (k : Combinator) (c : Compound), Turns f (gap k ++ c.head) (gap' k ++ c.head))
    (s : Complex) : Turns f (s.spell mark gap) (s.spell mark' gap') := by
  unfold Complex.spell Compound.spell
  refine ((hhead _).append (flatMap fun p _ => hpseudo p)).append (flatMap ?_)
  intro e _
  rw [← List.append_assoc, ← List.append_assoc]
  exact (hgap e.1 e.2).append (flatMap fun p _ => hpseudo p)

end Turns

/-! ## Characters -/

theorem isPlain_iff {c : Char} :
    isPlain c = true ↔ isBlank c = false ∧ isQuote c = false ∧ isBracket c = false ∧ c ≠ '>' := by
  simp [isPlain, and_assoc]

theorem isNameChar_iff {c : Char} :
    isNameChar c = true ↔ isPlain c = true ∧ c ≠ ':' ∧ c ≠ '+' ∧ c ≠ '~' := by
  simp [isNameChar, and_assoc]

theorem Name.isPlain {n : Name} {c : Char} (h : c ∈ n.chars) : isPlain c = true :=
  (isNameChar_iff.mp (n.valid c h)).1

/-- A quote is neither blank nor a bracket. -/
theorem not_blank_of_isQuote {q : Char} (h : isQuote q = true) :
    isBlank q = false ∧ isBracket q = false := by
  have hq : q = '\x22' ∨ q = '\x27' := by simpa [isQuote] using h
  rcases hq with rfl | rfl <;> decide

/-! ## First scan: child combinators -/

theorem turns_normalizeChild {c : Char} (h : c ≠ '>') : Turns normalizeChild [c] [c] :=
  normalizeChild_char h

theorem turns_normalizeChild_of_notMem {xs : List Char} (h : '>' ∉ xs) :
    Turns normalizeChild xs xs := by
  apply Turns.of_chars
  intro c hc
  apply turns_normalizeChild
  rintro rfl
  exact h hc

theorem notMem_head (c : Compound) : '>' ∉ c.head := by
  unfold Compound.head
  rw [List.mem_append, List.mem_flatMap]
  rintro (h | ⟨a, _, h⟩)
  · exact (isPlain_iff.mp (Name.isPlain h)).2.2.2 rfl
  · unfold Attribute.text at h
    simp only [List.mem_cons, List.mem_append, List.not_mem_nil, or_false] at h
    rcases h with h | h | h | h | h | h
    · exact absurd h (by decide)
    · exact (isPlain_iff.mp (a.name_valid _ h)).2.2.2 rfl
    · exact absurd a.quote_valid (by rw [← h]; decide)
    · exact (a.value_valid _ h).2.1 rfl
    · exact absurd a.quote_valid (by rw [← h]; decide)
    · exact absurd h (by decide)

theorem notMem_pseudo (p : Pseudo) : '>' ∉ p.text := by
  unfold Pseudo.text Pseudo.colons Pseudo.argumentText
  rw [List.mem_append, List.mem_append]
  rintro (h | h | h)
  · split at h <;> simp at h
  · exact (isPlain_iff.mp (Name.isPlain h)).2.2.2 rfl
  · cases ha : p.argument with
    | none => simp [ha] at h
    | some a =>
        rw [ha] at h
        simp only [List.mem_cons, List.mem_append, List.not_mem_nil, or_false] at h
        rcases h with h | h | h
        · exact absurd h (by decide)
        · exact (isPlain_iff.mp (p.argument_valid a (by simp [ha]) _ h)).2.2.2 rfl
        · exact absurd h (by decide)

/-- The combinators after the first scan. -/
def Combinator.gapChild : Combinator → List Char
  | .child => [' ', ' ', '>']
  | k => k.text

/-- The first scan gives the child combinator its spelling. -/
theorem normalizeChild_text (s : Complex) :
    normalizeChild s.text = s.spell [] Combinator.gapChild := by
  have hturns : Turns normalizeChild (s.spell [] Combinator.text)
      (s.spell [] Combinator.gapChild) := by
    refine Turns.spell (fun c => turns_normalizeChild_of_notMem (notMem_head c))
      (fun p => turns_normalizeChild_of_notMem (notMem_pseudo p)) ?_ s
    intro k c
    refine Turns.append ?_ (turns_normalizeChild_of_notMem (notMem_head c))
    cases k with
    | child => intro rest; rfl
    | _ => exact turns_normalizeChild_of_notMem (by decide)
  exact hturns.result rfl

/-! ## Second scan: pseudo-classes -/

/-- Inside brackets everything is kept, up to the next bracket. -/
theorem markPseudoFrom_inside {xs : List Char} (h : ∀ c ∈ xs, isBracket c = false)
    (rest : List Char) :
    markPseudoFrom true false (xs ++ rest) = xs ++ markPseudoFrom true false rest := by
  induction xs with
  | nil => rfl
  | cons c xs ih =>
      rw [List.forall_mem_cons] at h
      rw [List.cons_append, markPseudoFrom, nestedAfter_plain h.1, ih h.2]
      rfl

theorem turns_markPseudo {c : Char} (hb : isBracket c = false) (hc : c ≠ ':') :
    Turns markPseudo [c] [c] := fun rest => markPseudoFrom_outside hb hc false rest

theorem turns_markPseudo_name (n : Name) : Turns markPseudo n.chars n.chars := by
  apply Turns.of_chars
  intro c hc
  exact turns_markPseudo (isPlain_iff.mp (Name.isPlain hc)).2.2.1
    (isNameChar_iff.mp (n.valid c hc)).2.1

/-- What stands in brackets is kept, colons included. -/
theorem turns_markPseudo_bracketed {opening closing : Char} {xs : List Char}
    (hopen : ∀ rest, markPseudo (opening :: rest) = opening :: markPseudoFrom true false rest)
    (hxs : ∀ c ∈ xs, isBracket c = false)
    (hclose : ∀ rest, markPseudoFrom true false (closing :: rest) = closing :: markPseudo rest) :
    Turns markPseudo (opening :: (xs ++ [closing])) (opening :: (xs ++ [closing])) := by
  intro rest
  rw [List.cons_append, List.append_assoc, hopen, markPseudoFrom_inside hxs,
    List.singleton_append, hclose, List.cons_append, List.append_assoc, List.singleton_append]

theorem turns_markPseudo_attribute (a : Attribute) : Turns markPseudo a.text a.text := by
  have hinner : ∀ c ∈ a.name ++ a.quote :: (a.value ++ [a.quote]), isBracket c = false := by
    intro c hc
    simp only [List.mem_cons, List.mem_append, List.not_mem_nil, or_false] at hc
    rcases hc with hc | hc | hc | hc
    · exact (isPlain_iff.mp (a.name_valid c hc)).2.2.1
    · rw [hc]
      exact (not_blank_of_isQuote a.quote_valid).2
    · exact (a.value_valid c hc).2.2
    · rw [hc]
      exact (not_blank_of_isQuote a.quote_valid).2
  have hshape : a.text = '[' :: (a.name ++ a.quote :: (a.value ++ [a.quote]) ++ [']']) := by
    simp [Attribute.text]
  rw [hshape]
  exact turns_markPseudo_bracketed (fun _ => rfl) hinner (fun _ => rfl)

theorem turns_markPseudo_head (c : Compound) : Turns markPseudo c.head c.head :=
  (turns_markPseudo_name c.name).append (Turns.flatMap fun a _ => turns_markPseudo_attribute a)

theorem turns_markPseudo_argument (p : Pseudo) :
    Turns markPseudo p.argumentText p.argumentText := by
  unfold Pseudo.argumentText
  cases ha : p.argument with
  | none => exact Turns.nil
  | some a =>
      have hinner : ∀ c ∈ a, isBracket c = false := fun c hc =>
        (isPlain_iff.mp (p.argument_valid a (by simp [ha]) c hc)).2.2.1
      exact turns_markPseudo_bracketed (fun _ => rfl) hinner (fun _ => rfl)

/-- Behind a marked colon, the name brings the scan back to its first state. -/
theorem markPseudoFrom_marked_name (n : Name) (rest : List Char) :
    markPseudoFrom false true (n.chars ++ rest) = n.chars ++ markPseudo rest := by
  have hname := turns_markPseudo_name n rest
  have hvalid := n.valid
  cases hc : n.chars with
  | nil => exact absurd hc n.nonempty
  | cons c cs =>
      rw [hc] at hname hvalid
      have hchar := isNameChar_iff.mp (hvalid c (by simp))
      have hb := (isPlain_iff.mp hchar.1).2.2.1
      rw [List.cons_append] at hname ⊢
      rw [markPseudoFrom_outside hb hchar.2.1, ← markPseudoFrom_outside hb hchar.2.1 false]
      exact hname

/-- One marker for each pseudo-class, also if it has two colons. -/
theorem turns_markPseudo_pseudo (p : Pseudo) :
    Turns markPseudo ([] ++ p.text) ([' ', '&'] ++ p.text) := by
  intro rest
  have hone : ∀ xs, markPseudo (':' :: xs) = ' ' :: '&' :: ':' :: markPseudoFrom false true xs :=
    fun _ => rfl
  have htwo : ∀ xs, markPseudoFrom false true (':' :: xs) = ':' :: markPseudo xs := fun _ => rfl
  have harg := turns_markPseudo_argument p rest
  unfold Pseudo.text Pseudo.colons
  cases p.double with
  | true =>
      have hname := turns_markPseudo_name p.name (p.argumentText ++ rest)
      simp only [List.nil_append, if_true, List.cons_append, List.append_assoc]
      rw [hone, htwo, hname, harg]
  | false =>
      simp only [List.nil_append, Bool.false_eq_true, if_false, List.cons_append,
        List.append_assoc]
      rw [hone, markPseudoFrom_marked_name, harg]

/-- The second scan marks the pseudo-classes. -/
theorem markPseudo_spell (s : Complex) :
    markPseudo (s.spell [] Combinator.gapChild) = s.spell [' ', '&'] Combinator.gapChild := by
  have hturns : Turns markPseudo (s.spell [] Combinator.gapChild)
      (s.spell [' ', '&'] Combinator.gapChild) := by
    refine Turns.spell turns_markPseudo_head turns_markPseudo_pseudo ?_ s
    intro k c
    refine Turns.append ?_ (turns_markPseudo_head c)
    cases k <;> exact fun rest => rfl
  exact hturns.result rfl

/-! ## Third scan: sibling combinators -/

theorem markCombinatorsFrom_plains {xs : List Char} {depth : Nat}
    (h : ∀ c ∈ xs, isQuote c = false ∧ isBracket c = false ∧ (depth = 0 → c ∉ attaching))
    (rest : List Char) :
    markCombinatorsFrom attaching none depth false (xs ++ rest)
      = xs ++ markCombinatorsFrom attaching none depth false rest := by
  induction xs with
  | nil => rfl
  | cons c xs ih =>
      obtain ⟨hq, hb, hc⟩ := h c (by simp)
      rw [List.cons_append, markCombinatorsFrom_plain hq hb hc (by simp),
        ih fun d hd => h d (List.mem_cons_of_mem _ hd), List.cons_append]

/-- Inside quotes everything is kept, up to the same quote. -/
theorem markCombinatorsFrom_quoted {q : Char} {xs : List Char} (h : ∀ c ∈ xs, c ≠ q)
    (depth : Nat) (rest : List Char) :
    markCombinatorsFrom attaching (some q) depth false (xs ++ q :: rest)
      = xs ++ q :: markCombinatorsFrom attaching none depth false rest := by
  induction xs with
  | nil => simp [markCombinatorsFrom, Quote.after]
  | cons c xs ih =>
      have hc : Quote.after (some q) c = some q := by simp [Quote.after, h c (by simp)]
      rw [List.cons_append, markCombinatorsFrom]
      simp only [Bool.and_false, Bool.false_eq_true, if_false, hc]
      rw [ih fun d hd => h d (List.mem_cons_of_mem _ hd), List.cons_append]

theorem Name.notMem_attaching {n : Name} {c : Char} (h : c ∈ n.chars) : c ∉ attaching := by
  obtain ⟨_, _, hplus, htilde⟩ := isNameChar_iff.mp (n.valid c h)
  simp [attaching, hplus, htilde]

theorem turns_markCombinators_name (n : Name) :
    Turns (markCombinators attaching) n.chars n.chars := by
  apply markCombinatorsFrom_plains
  intro c hc
  obtain ⟨_, hq, hb, _⟩ := isPlain_iff.mp (Name.isPlain hc)
  exact ⟨hq, hb, fun _ => Name.notMem_attaching hc⟩

/-- In brackets the scan stands at depth one, where `2n+1` and `~=` are kept. -/
theorem markCombinatorsFrom_nested {xs : List Char} (h : ∀ c ∈ xs, isPlain c = true)
    (rest : List Char) :
    markCombinatorsFrom attaching none 1 false (xs ++ rest)
      = xs ++ markCombinatorsFrom attaching none 1 false rest := by
  apply markCombinatorsFrom_plains
  intro c hc
  obtain ⟨_, hq, hb, _⟩ := isPlain_iff.mp (h c hc)
  exact ⟨hq, hb, fun h => absurd h (by decide)⟩

theorem turns_markCombinators_attribute (a : Attribute) :
    Turns (markCombinators attaching) a.text a.text := by
  intro rest
  have hshape : a.text ++ rest
      = '[' :: (a.name ++ a.quote :: (a.value ++ a.quote :: ']' :: rest)) := by
    simp [Attribute.text]
  have hopen : ∀ xs, markCombinators attaching ('[' :: xs)
      = '[' :: markCombinatorsFrom attaching none 1 false xs := fun _ => rfl
  have hquote : ∀ xs, markCombinatorsFrom attaching none 1 false (a.quote :: xs)
      = a.quote :: markCombinatorsFrom attaching (some a.quote) 1 false xs := by
    intro xs
    rw [markCombinatorsFrom]
    simp [a.quote_valid]
  have hclose : markCombinatorsFrom attaching none 1 false (']' :: rest)
      = ']' :: markCombinators attaching rest := rfl
  rw [hshape, hopen, markCombinatorsFrom_nested a.name_valid, hquote,
    markCombinatorsFrom_quoted (fun c hc => (a.value_valid c hc).1), hclose]
  simp [Attribute.text]

theorem turns_markCombinators_attributes (c : Compound) :
    Turns (markCombinators attaching) (c.attributes.flatMap Attribute.text)
      (c.attributes.flatMap Attribute.text) :=
  Turns.flatMap fun a _ => turns_markCombinators_attribute a

theorem turns_markCombinators_argument (p : Pseudo) :
    Turns (markCombinators attaching) p.argumentText p.argumentText := by
  unfold Pseudo.argumentText
  cases ha : p.argument with
  | none => exact Turns.nil
  | some a =>
      intro rest
      have hinner : ∀ c ∈ a, isPlain c = true := p.argument_valid a (by simp [ha])
      have hopen : ∀ xs, markCombinators attaching ('(' :: xs)
          = '(' :: markCombinatorsFrom attaching none 1 false xs := fun _ => rfl
      have hclose : markCombinatorsFrom attaching none 1 false (')' :: rest)
          = ')' :: markCombinators attaching rest := rfl
      dsimp only
      rw [List.cons_append, List.append_assoc, hopen, markCombinatorsFrom_nested hinner,
        List.singleton_append, hclose]
      simp

theorem turns_markCombinators_pseudo (p : Pseudo) :
    Turns (markCombinators attaching) ([' ', '&'] ++ p.text) ([' ', '&'] ++ p.text) := by
  have hcolons : Turns (markCombinators attaching) p.colons p.colons := by
    unfold Pseudo.colons
    cases p.double <;> exact fun rest => rfl
  have hmark : Turns (markCombinators attaching) [' ', '&'] [' ', '&'] := fun rest => rfl
  exact hmark.append (hcolons.append
    ((turns_markCombinators_name p.name).append (turns_markCombinators_argument p)))

/-- The combinators after the third scan: blanks, then what the next segment gets. -/
def Combinator.gapMarked : Combinator → List Char
  | .child => ' ' :: ' ' :: Combinator.child.lead
  | k => ' ' :: k.lead

/-- Behind a sibling combinator spaces are dropped; the name there has none to lose. -/
theorem markCombinatorsFrom_skip_name (n : Name) (rest : List Char) :
    markCombinatorsFrom attaching none 0 true (n.chars ++ rest)
      = n.chars ++ markCombinators attaching rest := by
  have hname := turns_markCombinators_name n rest
  cases hn : n.chars with
  | nil => exact absurd hn n.nonempty
  | cons c cs =>
      have hc : c ∈ n.chars := by simp [hn]
      obtain ⟨hblank, hq, hb, _⟩ := isPlain_iff.mp (Name.isPlain hc)
      have hspace : c ≠ ' ' := by
        rintro rfl
        exact absurd hblank (by decide)
      have hcomb : 0 = 0 → c ∉ attaching := fun _ => Name.notMem_attaching hc
      have hfalse : false = true → c ≠ ' ' := by simp
      rw [hn] at hname
      rw [List.cons_append] at hname ⊢
      rw [markCombinatorsFrom_plain hq hb hcomb (fun _ => hspace),
        ← markCombinatorsFrom_plain hq hb hcomb hfalse]
      exact hname

theorem turns_markCombinators_gap (k : Combinator) (n : Name) :
    Turns (markCombinators attaching) (k.gapChild ++ n.chars) (k.gapMarked ++ n.chars) := by
  intro rest
  have hname := turns_markCombinators_name n rest
  have hskip := markCombinatorsFrom_skip_name n rest
  have hspace : ∀ xs, markCombinators attaching (' ' :: xs) = ' ' :: markCombinators attaching xs :=
    fun _ => rfl
  have hchild : ∀ xs, markCombinators attaching ('>' :: xs) = '>' :: markCombinators attaching xs :=
    fun _ => rfl
  have hplus : ∀ xs, markCombinators attaching ('+' :: ' ' :: xs)
      = '&' :: '+' :: markCombinatorsFrom attaching none 0 true xs := fun _ => rfl
  have htilde : ∀ xs, markCombinators attaching ('~' :: ' ' :: xs)
      = '&' :: '~' :: markCombinatorsFrom attaching none 0 true xs := fun _ => rfl
  cases k <;>
    simp only [Combinator.gapChild, Combinator.text, Combinator.gapMarked, Combinator.lead,
      List.cons_append, List.nil_append]
  · rw [hspace, hname]
  · rw [hspace, hspace, hchild, hname]
  · rw [hspace, hplus, hskip]
  · rw [hspace, htilde, hskip]

/-- The third scan marks the sibling combinators. -/
theorem markCombinators_spell (s : Complex) :
    markCombinators attaching (s.spell [' ', '&'] Combinator.gapChild)
      = s.spell [' ', '&'] Combinator.gapMarked := by
  have hturns : Turns (markCombinators attaching) (s.spell [' ', '&'] Combinator.gapChild)
      (s.spell [' ', '&'] Combinator.gapMarked) := by
    refine Turns.spell ?_ turns_markCombinators_pseudo ?_ s
    · intro c
      exact (turns_markCombinators_name c.name).append (turns_markCombinators_attributes c)
    · intro k c
      unfold Compound.head
      rw [← List.append_assoc, ← List.append_assoc]
      exact (turns_markCombinators_gap k c.name).append (turns_markCombinators_attributes c)
  exact hturns.result rfl

/-! ## Fourth scan: segments -/

/-- Text that the last scan takes into a segment as it is. -/
structure Word (w : List Char) : Prop where
  scan : ∀ current rest,
    segmentsFrom none current (w ++ rest) = segmentsFrom none (w.reverse ++ current) rest
  starts : ∀ c ∈ w.head?, isBlank c = false
  ends : ∀ c ∈ w.getLast?, isBlank c = false

namespace Word

theorem nil : Word [] := ⟨fun _ _ => rfl, by simp, by simp⟩

theorem append {w w' : List Char} (h : Word w) (h' : Word w') : Word (w ++ w') where
  scan current rest := by
    rw [List.append_assoc, h.scan, h'.scan, List.reverse_append, List.append_assoc]
  starts c hc := by
    cases w with
    | nil => exact h'.starts c hc
    | cons d ds => exact h.starts c hc
  ends c hc := by
    rw [Option.mem_def, List.getLast?_append] at hc
    cases hlast : w'.getLast? with
    | none => exact h.ends c (by simpa [hlast] using hc)
    | some d => exact h'.ends c (by simpa [hlast] using hc)

theorem flatMap {α : Type} {l : List α} {g : α → List Char} (h : ∀ x ∈ l, Word (g x)) :
    Word (l.flatMap g) := by
  induction l with
  | nil => exact nil
  | cons x l ih =>
      rw [List.flatMap_cons]
      exact (h x (by simp)).append (ih fun y hy => h y (List.mem_cons_of_mem _ hy))

theorem of_char {c : Char} (hblank : isBlank c = false) (hq : isQuote c = false) : Word [c] where
  scan current rest := by
    have hafter : Quote.after none c = none := Quote.after_of_not_isQuote (by simp) hq
    rw [List.singleton_append, segmentsFrom_char (by simp [hblank]), hafter]
    rfl
  starts d hd := by
    obtain rfl : c = d := by simpa using hd
    exact hblank
  ends d hd := by
    obtain rfl : c = d := by simpa using hd
    exact hblank

theorem of_chars {w : List Char} (h : ∀ c ∈ w, isBlank c = false ∧ isQuote c = false) :
    Word w := by
  have hflat : Word (w.flatMap fun c => [c]) := flatMap fun c hc => of_char (h c hc).1 (h c hc).2
  simpa using hflat

/-- Between two quotes blanks do not split. -/
theorem of_quoted {q : Char} (hq : isQuote q = true) {v : List Char} (hv : ∀ c ∈ v, c ≠ q) :
    Word (q :: (v ++ [q])) where
  scan current rest := by
    have hblank : isBlank q = false := (not_blank_of_isQuote hq).1
    have hvalue : ∀ current, segmentsFrom (some q) current (v ++ q :: rest)
        = segmentsFrom none (q :: (v.reverse ++ current)) rest := by
      induction v with
      | nil => intro current; simp [segmentsFrom, Quote.after]
      | cons c v ih =>
          intro current
          have hc : Quote.after (some q) c = some q := by simp [Quote.after, hv c (by simp)]
          rw [List.cons_append, segmentsFrom, hc]
          simp only [Option.isNone_some, Bool.and_false, Bool.false_eq_true, if_false]
          rw [ih fun d hd => hv d (List.mem_cons_of_mem _ hd)]
          simp
    have hopen : Quote.after none q = some q := by simp [Quote.after, hq]
    rw [List.cons_append, List.append_assoc, List.singleton_append, segmentsFrom, hopen]
    simp only [hblank, Bool.false_and, Bool.false_eq_true, if_false]
    rw [hvalue]
    simp
  starts c hc := by
    obtain rfl : q = c := by simpa using hc
    exact (not_blank_of_isQuote hq).1
  ends c hc := by
    rw [← List.cons_append, List.getLast?_append] at hc
    obtain rfl : q = c := by simpa using hc
    exact (not_blank_of_isQuote hq).1

theorem trim_eq {w : List Char} (h : Word w) : trim w = w := trim_eq_self h.starts h.ends

/-- A word that the text ends with, or that a space follows, is a segment. -/
theorem segments_append {w : List Char} (h : Word w) (hne : w ≠ []) {rest : List Char}
    (hrest : ∀ c ∈ rest.head?, c = ' ') : segments (w ++ rest) = w :: segments rest := by
  have hfinish : finish w.reverse = [w] := by
    simp [finish, h.trim_eq, hne]
  unfold segments
  rw [h.scan, List.append_nil]
  cases rest with
  | nil => exact hfinish
  | cons c rest =>
      obtain rfl : c = ' ' := hrest c rfl
      have hspace : ∀ current, segmentsFrom none current (' ' :: rest)
          = finish current ++ segmentsFrom none [] rest := fun _ => rfl
      rw [hspace, hspace, hfinish]
      rfl

end Word

theorem word_of_plain {w : List Char} (h : ∀ c ∈ w, isPlain c = true) : Word w := by
  apply Word.of_chars
  intro c hc
  obtain ⟨hblank, hq, _, _⟩ := isPlain_iff.mp (h c hc)
  exact ⟨hblank, hq⟩

theorem word_attribute (a : Attribute) : Word a.text := by
  have hshape : a.text = ['['] ++ (a.name ++ (a.quote :: (a.value ++ [a.quote]) ++ [']'])) := by
    simp [Attribute.text]
  have hopen : Word ['['] := Word.of_char (by decide) (by decide)
  have hclose : Word [']'] := Word.of_char (by decide) (by decide)
  have hvalue := Word.of_quoted a.quote_valid fun c hc => (a.value_valid c hc).1
  rw [hshape]
  exact hopen.append ((word_of_plain a.name_valid).append (hvalue.append hclose))

theorem word_head (c : Compound) : Word c.head :=
  (word_of_plain fun _ hc => Name.isPlain hc).append (Word.flatMap fun a _ => word_attribute a)

theorem word_pseudo (p : Pseudo) : Word p.text := by
  have hcolon : Word [':'] := Word.of_char (by decide) (by decide)
  have hcolons : Word p.colons := by
    unfold Pseudo.colons
    split
    · exact hcolon.append hcolon
    · exact hcolon
  have hargument : Word p.argumentText := by
    unfold Pseudo.argumentText
    cases ha : p.argument with
    | none => exact Word.nil
    | some a =>
        have hopen : Word ['('] := Word.of_char (by decide) (by decide)
        have hclose : Word [')'] := Word.of_char (by decide) (by decide)
        exact hopen.append ((word_of_plain (p.argument_valid a (by simp [ha]))).append hclose)
  exact hcolons.append ((word_of_plain fun _ hc => Name.isPlain hc).append hargument)

theorem word_lead (k : Combinator) : Word k.lead := by
  have hmark : Word ['&'] := Word.of_char (by decide) (by decide)
  cases k with
  | descendant => exact Word.nil
  | child => exact Word.of_char (by decide) (by decide)
  | adjacent => exact hmark.append (Word.of_char (by decide) (by decide))
  | sibling => exact hmark.append (Word.of_char (by decide) (by decide))

/-- A marked pseudo-class begins with a space. -/
theorem head_pseudos (ps : List Pseudo) {rest : List Char} (hrest : ∀ c ∈ rest.head?, c = ' ') :
    ∀ c ∈ ((ps.flatMap fun p => [' ', '&'] ++ p.text) ++ rest).head?, c = ' ' := by
  intro c hc
  cases ps with
  | nil => exact hrest c hc
  | cons p ps => simpa using hc.symm

/-- The pseudo-classes of a compound selector become segments of their own. -/
theorem segments_pseudos (ps : List Pseudo) {rest : List Char}
    (hrest : ∀ c ∈ rest.head?, c = ' ') :
    segments ((ps.flatMap fun p => [' ', '&'] ++ p.text) ++ rest)
      = (ps.map fun p => '&' :: p.text) ++ segments rest := by
  induction ps with
  | nil => rfl
  | cons p ps ih =>
      have hword : Word ('&' :: p.text) :=
        (Word.of_char (by decide) (by decide)).append (word_pseudo p)
      have hnext := head_pseudos ps hrest
      rw [List.flatMap_cons, List.append_assoc, List.append_assoc, List.cons_append,
        segments_space]
      rw [List.singleton_append, ← List.cons_append, hword.segments_append (by simp) hnext, ih]
      rfl

theorem segments_compound (c : Compound) {lead : List Char} (hlead : Word lead)
    {rest : List Char} (hrest : ∀ c ∈ rest.head?, c = ' ') :
    segments (lead ++ c.spell [' ', '&'] ++ rest) = c.segments lead ++ segments rest := by
  have hword : Word (lead ++ c.head) := hlead.append (word_head c)
  have hne : lead ++ c.head ≠ [] := by simp [Compound.head, c.name.nonempty]
  have hnext := head_pseudos c.pseudos hrest
  unfold Compound.spell Compound.segments
  rw [← List.append_assoc lead, List.append_assoc, hword.segments_append hne hnext,
    segments_pseudos c.pseudos hrest, List.cons_append]

/-- A combinator begins with a space, whichever it is. -/
theorem head_rest (es : List (Combinator × Compound)) :
    ∀ c ∈ (es.flatMap fun e => e.1.gapMarked ++ e.2.spell [' ', '&']).head?, c = ' ' := by
  intro c hc
  cases es with
  | nil => exact absurd hc (by simp)
  | cons e es =>
      rw [List.flatMap_cons, List.append_assoc] at hc
      cases hk : e.1 <;> rw [hk] at hc <;> simpa [Combinator.gapMarked] using hc.symm

theorem segments_rest (es : List (Combinator × Compound)) :
    segments (es.flatMap fun e => e.1.gapMarked ++ e.2.spell [' ', '&'])
      = es.flatMap fun e => e.2.segments e.1.lead := by
  induction es with
  | nil => rfl
  | cons e es ih =>
      have hgap : ∀ xs, segments (e.1.gapMarked ++ xs) = segments (e.1.lead ++ xs) := by
        intro xs
        cases e.1 <;> rfl
      have hnext := head_rest es
      rw [List.flatMap_cons, List.flatMap_cons, List.append_assoc, hgap, ← List.append_assoc,
        segments_compound e.2 (word_lead e.1) hnext, ih]

/--
**The path of an ordinary selector.** Each compound selector gives one segment, its name
and attributes behind what the combinator before it leaves (nothing, `>`, `&+` or `&~`),
and then one segment for each of its pseudo-classes, behind an `&`.
-/
theorem path_ofList_text (s : Complex) :
    path (String.ofList s.text) = s.path.map String.ofList := by
  have hscans : pathChars s.text = segments (s.spell [' ', '&'] Combinator.gapMarked) := by
    rw [pathChars, normalizeChild_text, markPseudo_spell, markCombinators_spell]
  have hfirst := segments_compound s.first Word.nil (head_rest s.rest)
  rw [path, String.toList_ofList, hscans, Complex.spell, Complex.path]
  rw [List.nil_append] at hfirst
  rw [hfirst, segments_rest]

/-- The name with a given spelling. -/
def Name.ofString (s : String) (hne : s.toList ≠ []) (h : s.toList.all isNameChar = true) : Name :=
  ⟨s.toList, hne, List.all_eq_true.mp h⟩

/-- `a[title='b: c']:not(.d)::before + p > q` in the grammar. -/
def Complex.titled : Complex where
  first := {
    name := .ofString "a" (by decide) (by decide)
    attributes := [{
      name := "title=".toList
      quote := '\x27'
      value := "b: c".toList
      name_valid := List.all_eq_true.mp (by decide)
      quote_valid := by decide
      value_valid := by simp [isBracket] }]
    pseudos := [
      { double := false
        name := .ofString "not" (by decide) (by decide)
        argument := some ".d".toList
        argument_valid := fun _ ha => Option.mem_some.mp ha ▸ List.all_eq_true.mp (by decide) },
      { double := true
        name := .ofString "before" (by decide) (by decide)
        argument := none
        argument_valid := by simp }] }
  rest := [(.adjacent, ⟨.ofString "p" (by decide) (by decide), [], []⟩),
    (.child, ⟨.ofString "q" (by decide) (by decide), [], []⟩)]

theorem path_ofList_text_titled :
    String.ofList Complex.titled.text = "a[title='b: c']:not(.d)::before + p > q"
      ∧ path "a[title='b: c']:not(.d)::before + p > q"
        = ["a[title='b: c']", "&:not(.d)", "&::before", "&+p", ">q"] := by
  have htext : String.ofList Complex.titled.text = "a[title='b: c']:not(.d)::before + p > q" := by
    decide +kernel
  refine ⟨htext, ?_⟩
  rw [← htext, path_ofList_text]
  decide +kernel

end CssNest.Selector
