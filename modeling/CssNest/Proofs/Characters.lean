import CssNest.Proofs.Extraction
import CssNest.Proofs.Inlining
import CssNest.Proofs.Lines
import CssNest.Proofs.Scans
import CssNest.Proofs.Sheet

/-!
# Where the characters of a stylesheet come from

What is laid out is spelled with the characters of the token stream, and with a few signs that
the layout adds: tabs, names of variables, markers, punctuation. None of these is a newline or
a brace, apart from the braces that end the text of a token and those around blocks. So a
property of characters that holds of every plain character is kept at each step, from the
tokens through variables and rules to the blocks of the sheet.

The property is `P` throughout. It is used for "no brace" and for "no brace and no newline".
-/

namespace CssNest

/-! ## Texts -/

section Texts

variable {P : Char → Prop}

@[simp] theorem spells_append {a b : String} : Spells P (a ++ b) ↔ Spells P a ∧ Spells P b := by
  unfold Spells
  rw [String.toList_append, List.forall_mem_append]

theorem spells_ofList {cs : List Char} : Spells P (String.ofList cs) ↔ ∀ x ∈ cs, P x := by
  unfold Spells
  rw [String.toList_ofList]

theorem Spells.intercalate {sep : String} {texts : List String} (hsep : Spells P sep)
    (h : ∀ text ∈ texts, Spells P text) : Spells P (sep.intercalate texts) := by
  unfold Spells at hsep h ⊢
  rw [String.toList_intercalate]
  -- the separator stands before every text but the first
  induction texts with
  | nil => simp
  | cons text texts ih =>
      rw [List.forall_mem_cons] at h
      cases texts with
      | nil =>
          rw [List.map_singleton, List.intercalate_singleton]
          exact h.1
      | cons next texts =>
          rw [List.map_cons, List.map_cons, List.intercalate_cons_cons, List.forall_mem_append,
            List.forall_mem_append]
          exact ⟨⟨h.1, hsep⟩, ih h.2⟩

end Texts

/-! ## Tokens -/

namespace Token

/-- The strings that a token carries. -/
def strings : Token → List String
  | rulesetStart selectors | keyframeStart selectors => selectors
  | mediaStart queries => queries
  | declaration body media => body.property :: body.value :: media
  | fontFaceDeclaration body | keyframeDeclaration body => [body.property, body.value]
  | charset value => [value]
  | keyframesStart keyword name => [keyword, name]
  | comment text | raw text => [text]
  | rulesetEnd | mediaEnd | fontFaceStart | fontFaceEnd | keyframeEnd | keyframesEnd => []

/-- Every string of the token has only characters with `P`. -/
def Spelled (P : Char → Prop) (t : Token) : Prop := ∀ s ∈ t.strings, Spells P s

/-- The brace at the end of the token's text. -/
def brace : Token → List Char
  | rulesetStart _ | mediaStart _ | fontFaceStart | keyframesStart _ _ | keyframeStart _ => ['\x7b']
  | rulesetEnd | mediaEnd | fontFaceEnd | keyframeEnd | keyframesEnd => ['\x7d']
  | _ => []

/-- The token's text without its brace. -/
def stem : Token → String
  | rulesetStart selectors | keyframeStart selectors => ",".intercalate selectors ++ " "
  | mediaStart queries => "@media " ++ ", ".intercalate queries ++ " "
  | declaration body _ | fontFaceDeclaration body | keyframeDeclaration body => body.text
  | charset value => "@charset " ++ value ++ ";"
  | fontFaceStart => "@font-face "
  | keyframesStart keyword name => "@" ++ keyword ++ " \"" ++ name ++ "\" "
  | comment text | raw text => text
  | rulesetEnd | mediaEnd | fontFaceEnd | keyframeEnd | keyframesEnd => ""

theorem toList_text (t : Token) : t.text.toList = t.stem.toList ++ t.brace := by
  cases t <;> simp [text, stem, brace]

/-- A line is the token's text behind some tabs. -/
theorem exists_line (t : Token) (level : Nat) : ∃ n, t.line level = indentation n ++ t.text := by
  cases t with
  | fontFaceStart => exact ⟨0, by simp [line, indentation]⟩
  | _ => exact ⟨_, rfl⟩

end Token

section Plain

variable {P : Char → Prop} (hP : ∀ x, Plain x → P x)
include hP

theorem spells_plain {s : String} (h : Spells Plain s) : Spells P s := fun x hx => hP x (h x hx)

theorem Declaration.spells_text {d : Declaration} (hproperty : Spells P d.property)
    (hvalue : Spells P d.value) : Spells P d.text := by
  unfold Declaration.text
  simp only [spells_append]
  refine ⟨⟨⟨⟨hproperty, ?_⟩, hvalue⟩, ?_⟩, ?_⟩
  · exact spells_plain hP (by simp [Spells, Plain])
  · split <;> exact spells_plain hP (by simp [Spells, Plain])
  · split <;> exact spells_plain hP (by simp [Spells, Plain])

namespace Token

theorem Spelled.spells_stem {t : Token} (h : t.Spelled P) : Spells P t.stem := by
  have hplain : ∀ {s : String}, Spells Plain s → Spells P s := spells_plain hP
  cases t with
  | rulesetStart selectors | keyframeStart selectors =>
      have hcomma : Spells P "," := hplain (by simp [Spells, Plain])
      exact spells_append.mpr ⟨hcomma.intercalate h, hplain (by simp [Spells, Plain])⟩
  | mediaStart queries =>
      have hcomma : Spells P ", " := hplain (by simp [Spells, Plain])
      simp only [stem, spells_append]
      exact ⟨⟨hplain (by simp [Spells, Plain]), hcomma.intercalate h⟩,
        hplain (by simp [Spells, Plain])⟩
  | declaration body media =>
      exact Declaration.spells_text hP (h _ (by simp [strings])) (h _ (by simp [strings]))
  | fontFaceDeclaration body | keyframeDeclaration body =>
      exact Declaration.spells_text hP (h _ (by simp [strings])) (h _ (by simp [strings]))
  | charset value =>
      simp only [stem, spells_append]
      exact ⟨⟨hplain (by simp [Spells, Plain]), h _ (by simp [strings])⟩,
        hplain (by simp [Spells, Plain])⟩
  | keyframesStart keyword name =>
      simp only [stem, spells_append]
      exact ⟨⟨⟨⟨hplain (by simp [Spells, Plain]), h _ (by simp [strings])⟩,
        hplain (by simp [Spells, Plain])⟩, h _ (by simp [strings])⟩,
        hplain (by simp [Spells, Plain])⟩
  | comment text | raw text => exact h text (by simp [strings])
  | _ => exact hplain (by simp [stem, Spells, Plain])

/-- Up to its brace, the line of a token is spelled with its strings and plain characters. -/
theorem Spelled.line {t : Token} (h : t.Spelled P) (level : Nat) :
    ∃ cs, (∀ x ∈ cs, P x) ∧ (t.line level).toList = cs ++ t.brace := by
  obtain ⟨n, hline⟩ := t.exists_line level
  refine ⟨List.replicate n '\t' ++ t.stem.toList, ?_, ?_⟩
  · rw [List.forall_mem_append]
    exact ⟨List.forall_mem_replicate.mpr (.inr (hP _ (by simp [Plain]))), h.spells_stem hP⟩
  · rw [hline, String.toList_append, toList_text, Block.toList_indentation, List.append_assoc]

/-- The line of a token without a brace. -/
theorem Spelled.spells_line {t : Token} (h : t.Spelled P) (hbrace : t.brace = []) (level : Nat) :
    Spells P (t.line level) := by
  obtain ⟨cs, hcs, hline⟩ := h.line hP level
  unfold Spells
  rw [hline, hbrace, List.append_nil]
  exact hcs

end Token

/-! ## Variables -/

theorem Dialect.spells_reference (d : Dialect) {name : String} (h : Spells P name) :
    Spells P (d.reference name) := by
  refine spells_append.mpr ⟨?_, h⟩
  cases d <;> exact spells_plain hP (by simp [sigil, Spells, Plain])

namespace Variables

theorem spells_category {property : String} (h : isCovered property = true) :
    Spells P (category property) := by
  have hall : (properties.all fun p => (category p).toList.all fun x =>
      x != '\n' && x != '\x7b' && x != '\x7d') = true := by
    decide +kernel
  have hchars := List.all_eq_true.mp hall property (List.contains_iff_mem.mp h)
  intro x hx
  have hx' := List.all_eq_true.mp hchars x hx
  simp only [Bool.and_eq_true, bne_iff_ne] at hx'
  exact hP x ⟨hx'.1.1, hx'.1.2, hx'.2⟩

/-- A number is written with digits. -/
theorem spells_numbered {c : String} (h : Spells P c) (n : Nat) : Spells P (numbered c n) := by
  unfold numbered
  rw [spells_append, spells_append]
  refine ⟨⟨h, spells_plain hP (by simp [Spells, Plain])⟩, ?_⟩
  intro x hx
  rw [Nat.toString_eq_repr, Nat.toList_repr] at hx
  have hdigit := Nat.isDigit_of_mem_toDigits (by omega) (by omega) hx
  refine hP x ⟨?_, ?_, ?_⟩
  · rintro rfl
    exact absurd hdigit (by decide)
  · rintro rfl
    exact absurd hdigit (by decide)
  · rintro rfl
    exact absurd hdigit (by decide)

/-- The values and the names of the table have only characters with `P`. -/
def Spelled (P : Char → Prop) (t : Variables) : Prop :=
  ∀ c, ∀ b ∈ (t.values c).toList, Spells P b.1 ∧ Spells P b.2

omit hP in
theorem spelled_empty : Spelled P empty := by
  intro c b hb
  rw [toList_values_empty] at hb
  exact absurd hb (by simp)

/-- A call adds at most its value, with a name that is spelled out of plain characters. -/
theorem Spelled.define {t : Variables} (h : t.Spelled P) (property : String) {value : String}
    (hvalue : Spells P value) :
    (t.define property value).2.Spelled P
      ∧ ∀ name, (t.define property value).1 = some name → Spells P name := by
  rcases t.define_cases property value with
    ⟨_, hdef⟩ | ⟨name, _, hget, hdef⟩ | ⟨hcov, hnone, hdef⟩
  · rw [hdef]
    exact ⟨h, by simp⟩
  · rw [hdef]
    refine ⟨h, ?_⟩
    intro name' hname
    obtain rfl := Option.some.inj hname
    unfold get? at hget
    rw [OrderedMap.get?_eq_lookup] at hget
    exact (h _ _ (mem_of_lookup hget)).2
  · have hname : Spells P (t.nextName (category property)) :=
      spells_numbered hP (spells_category hP hcov) _
    rw [hdef]
    refine ⟨?_, ?_⟩
    · intro c b hb
      rw [values_add] at hb
      split at hb
      · rw [toList_insert_of_get?_none hnone, List.mem_append, List.mem_singleton] at hb
        rcases hb with hb | rfl
        · exact h _ b hb
        · exact ⟨hvalue, hname⟩
      · exact h c b hb
    · intro name' hname'
      rw [← Option.some.inj hname']
      exact hname

theorem Spelled.replace {t : Variables} (h : t.Spelled P) (d : Dialect) {token : Token}
    (htoken : token.Spelled P) :
    (replace d t token).1.Spelled P ∧ (replace d t token).2.Spelled P := by
  rcases replace_cases d t token with ⟨body, media, name, rfl, hname, hrep⟩ | hrep
  · have hvalue : Spells P body.value := htoken _ (by simp [Token.strings])
    obtain ⟨htable, hnames⟩ := h.define hP body.property hvalue
    rw [hrep]
    refine ⟨?_, htable⟩
    intro s hs
    -- of the strings of the token only the value is another one
    rw [Token.strings, List.mem_cons, List.mem_cons] at hs
    rcases hs with rfl | rfl | hs
    · exact htoken _ (by simp [Token.strings])
    · exact d.spells_reference hP (hnames name hname)
    · exact htoken s (by simp [Token.strings, hs])
  · rw [hrep]
    exact ⟨htoken, h⟩

theorem Spelled.replaceAll {t : Variables} (h : t.Spelled P) (d : Dialect) {tokens : List Token}
    (htokens : ∀ token ∈ tokens, token.Spelled P) :
    (∀ token ∈ (replaceAll d t tokens).1, token.Spelled P)
      ∧ (replaceAll d t tokens).2.Spelled P := by
  induction tokens generalizing t with
  | nil => exact ⟨by simp [Variables.replaceAll], h⟩
  | cons token rest ih =>
      rw [List.forall_mem_cons] at htokens
      obtain ⟨htoken, htable⟩ := h.replace hP d htokens.1
      obtain ⟨hrest, hlast⟩ := ih htable htokens.2
      exact ⟨List.forall_mem_cons.mpr ⟨htoken, hrest⟩, hlast⟩

/-- The declarations of the variables, where a newline is allowed too. -/
theorem Spelled.spells_render {t : Variables} (h : t.Spelled P) (hnewline : P '\n') (d : Dialect) :
    Spells P (t.render d) := by
  have hplain : ∀ {s : String}, Spells Plain s → Spells P s := spells_plain hP
  have hend : Spells P "\n" := by simp [Spells, hnewline]
  unfold render
  split
  · simp [Spells]
  · rw [spells_append]
    refine ⟨?_, hend⟩
    intro x hx
    rw [String.toList_join, List.mem_flatMap] at hx
    obtain ⟨line, hline, hx⟩ := hx
    obtain ⟨b, hb, rfl⟩ := List.mem_map.mp hline
    rw [bindings_eq, List.mem_flatMap] at hb
    obtain ⟨c, _, hb⟩ := hb
    obtain ⟨hvalue, hname⟩ := h c b hb
    revert x
    show Spells P _
    unfold Dialect.declaration
    simp only [spells_append]
    exact ⟨⟨⟨⟨d.spells_reference hP hname, hplain (by simp [Spells, Plain])⟩, hvalue⟩,
      hplain (by simp [Spells, Plain])⟩, hend⟩

end Variables

/-- What is laid out is spelled like the stream, with or without variables. -/
theorem Layout.spelled_prepare (d : Dialect) (extracts : Bool) {tokens : List Token}
    (h : ∀ t ∈ tokens, t.Spelled P) :
    (∀ t ∈ (prepare d extracts tokens).1, t.Spelled P)
      ∧ ∀ table, (prepare d extracts tokens).2 = some table → table.Spelled P := by
  cases extracts with
  | false => exact ⟨h, by simp [prepare]⟩
  | true =>
      obtain ⟨htokens, htable⟩ := Variables.spelled_empty.replaceAll hP d h
      refine ⟨htokens, ?_⟩
      intro table hsome
      rw [← Option.some.inj hsome]
      exact htable

end Plain

/-! ## Rules -/

/-- What holds of the tokens of a stream holds of what is extracted from it. -/
theorem Rule.extractFrom_forall {p : Token → Prop} {tokens : List Token} (h : ∀ t ∈ tokens, p t)
    {opened : Option Rule}
    (hopened : ∀ r, opened = some r → p (.rulesetStart r.selectors) ∧ ∀ t ∈ r.body, p t) :
    (∀ t ∈ (extractFrom opened tokens).topLevel, p t)
      ∧ ∀ r ∈ (extractFrom opened tokens).rules,
          p (.rulesetStart r.selectors) ∧ ∀ t ∈ r.body, p t := by
  induction tokens generalizing opened with
  | nil => exact ⟨by simp [extractFrom], by simp [extractFrom]⟩
  | cons t rest ih =>
      rw [List.forall_mem_cons] at h
      have hnone : ∀ r : Rule, (none : Option Rule) = some r →
          p (.rulesetStart r.selectors) ∧ ∀ t ∈ r.body, p t := by simp
      rcases t.fence_cases with ⟨selectors, rfl⟩ | rfl | ⟨hmedia, _, _⟩ | ⟨_, hinner, _⟩
      · rw [extractFrom_rulesetStart]
        apply ih h.2
        intro r hr
        rw [← Option.some.inj hr]
        exact ⟨h.1, by simp⟩
      · obtain ⟨htop, hrules⟩ := ih h.2 hnone
        cases opened with
        | none => exact ⟨htop, hrules⟩
        | some r => exact ⟨htop, List.forall_mem_cons.mpr ⟨hopened r rfl, hrules⟩⟩
      · rw [extractFrom_media hmedia]
        exact ih h.2 hopened
      · cases opened with
        | none =>
            obtain ⟨htop, hrules⟩ := ih h.2 hnone
            rw [extractFrom_none_inner hinner]
            exact ⟨List.forall_mem_cons.mpr ⟨h.1, htop⟩, hrules⟩
        | some r =>
            rw [extractFrom_some_inner hinner]
            apply ih h.2
            intro r' hr'
            rw [← Option.some.inj hr']
            refine ⟨(hopened r rfl).1, List.forall_mem_append.mpr ⟨(hopened r rfl).2, ?_⟩⟩
            simpa using h.1

/-! ## Sheets -/

section Sheets

variable {P : Char → Prop}

theorem Block.spelled_empty : Block.Spelled P .empty := .mk (by simp) (by simp) (by simp)

theorem Block.Spelled.addRule {b : Block} (h : b.Spelled P) {text : String}
    (htext : Spells P text) : (b.addRule text).Spelled P := by
  cases h with
  | mk hsegments hchildren hrules =>
      refine .mk hsegments hchildren (List.forall_mem_append.mpr ⟨hrules, ?_⟩)
      simpa using htext

theorem Block.Spelled.modifyAt {f : Block → Block} (hf : ∀ b : Block, b.Spelled P → (f b).Spelled P)
    {path : List String} (hpath : ∀ segment ∈ path, Spells P segment) {b : Block}
    (h : b.Spelled P) : (modifyAt f path b).Spelled P := by
  induction path generalizing b with
  | nil => exact hf b h
  | cons segment path ih =>
      rw [List.forall_mem_cons] at hpath
      cases h with
      | mk hsegments hchildren hrules =>
          exact .mk (forall_key_upsert hsegments hpath.1)
            (forall_mem_upsert hchildren spelled_empty fun _ hc => ih hpath.2 hc) hrules

/-- The media type, the segments of the path and the text have only characters with `P`. -/
structure Placement.Spelled (P : Char → Prop) (a : Placement) : Prop where
  media : Spells P a.media
  path : ∀ segment ∈ Selector.path a.selector, Spells P segment
  text : Spells P a.text

/-- The media types and the blocks of the sheet have only characters with `P`. -/
def Sheet.Spelled (P : Char → Prop) (s : Sheet) : Prop :=
  (∀ e ∈ s.media.toList, Spells P e.1) ∧ ∀ e ∈ s.media.toList, e.2.Spelled P

theorem Sheet.Spelled.place {s : Sheet} (h : s.Spelled P) {a : Placement} (ha : a.Spelled P) :
    (s.place a).Spelled P := by
  unfold Sheet.Spelled Sheet.place
  rw [OrderedMap.toList_update]
  refine ⟨forall_key_upsert h.1 ha.media, forall_mem_upsert h.2 Block.spelled_empty ?_⟩
  intro b hb
  exact hb.modifyAt (fun _ hc => hc.addRule ha.text) ha.path

theorem Sheet.Spelled.placeAll {s : Sheet} (h : s.Spelled P) {as : List Placement}
    (has : ∀ a ∈ as, a.Spelled P) : (s.placeAll as).Spelled P := by
  unfold Sheet.placeAll
  induction as generalizing s with
  | nil => exact h
  | cons a as ih =>
      rw [List.forall_mem_cons] at has
      exact ih (h.place has.1) has.2

variable (hP : ∀ x, Plain x → P x)
include hP

/-- What a rule places is spelled like the rule, if no token of the rule has a brace. -/
theorem Rule.spelled_placements {r : Rule} (hselectors : ∀ s ∈ r.selectors, Spells P s)
    (hbody : ∀ t ∈ r.body, t.Spelled P ∧ t.brace = []) : ∀ a ∈ r.placements, a.Spelled P := by
  intro a ha
  unfold placements at ha
  obtain ⟨t, ht, ha⟩ := List.mem_flatMap.mp ha
  obtain ⟨media, hmedia, ha⟩ := List.mem_flatMap.mp ha
  obtain ⟨selector, hselector, rfl⟩ := List.mem_map.mp ha
  obtain ⟨hspelled, hbrace⟩ := hbody t ht
  refine ⟨?_, ?_, hspelled.spells_line hP hbrace 0⟩
  · -- a media type is `all`, or one of the strings of the token
    have hall : Spells P Token.allMedia := spells_plain hP (by simp [Token.allMedia, Spells, Plain])
    show Spells P media
    cases t with
    | comment text => exact absurd hmedia (by simp [Token.scopes])
    | declaration body queries =>
        rw [Token.scopes] at hmedia
        split at hmedia
        · rw [List.mem_singleton.mp hmedia]
          exact hall
        · rw [mem_distinct] at hmedia
          exact hspelled media (by simp [Token.strings, hmedia])
    | _ =>
        rw [List.mem_singleton.mp hmedia]
        exact hall
  · intro segment hsegment
    obtain ⟨cs, hcs, rfl⟩ := List.mem_map.mp hsegment
    exact spells_ofList.mpr (Selector.forall_mem_pathChars (hP _ (by simp [Plain]))
      (hP _ (by simp [Plain])) (hselectors selector hselector) cs hcs)

theorem Sheet.spelled_ofRules {rules : List Rule}
    (hselectors : ∀ r ∈ rules, ∀ s ∈ r.selectors, Spells P s)
    (hbody : ∀ r ∈ rules, ∀ t ∈ r.body, t.Spelled P ∧ t.brace = []) :
    (Sheet.ofRules rules).Spelled P := by
  have hempty : Sheet.Spelled P .empty := ⟨by simp [Sheet.empty], by simp [Sheet.empty]⟩
  apply hempty.placeAll
  intro a ha
  obtain ⟨r, hr, ha⟩ := List.mem_flatMap.mp ha
  exact Rule.spelled_placements hP (hselectors r hr) (hbody r hr) a ha

end Sheets

end CssNest
