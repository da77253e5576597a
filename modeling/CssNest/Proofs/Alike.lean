import CssNest.Layout
import CssNest.Proofs.Block
import CssNest.Proofs.Rule
import Mathlib.Data.List.Forall2

/-!
# Streams that differ in declarations only

Two token streams are alike when they have the same tokens, except that a declaration of
one may stand where the other has a different declaration under the same media. No step
of the layout looks into a declaration, so all of them keep the likeness: the same tokens
stay outside rules, the same rules come out, the same blocks are made in the same order,
and each rule text stands where its counterpart stands.

How the declarations differ is left open; `P` says it.
-/

namespace CssNest

variable {P : Declaration → Declaration → Prop}

/-! ## Tokens and rules -/

/-- The same token, or two declarations related by `P` under the same media. -/
inductive Token.Alike (P : Declaration → Declaration → Prop) : Token → Token → Prop where
  | same (t : Token) : Token.Alike P t t
  | declaration {body body' : Declaration} (media : List String) : P body body' →
      Token.Alike P (.declaration body media) (.declaration body' media)

/-- The same text, or the texts of two declarations related by `P`. -/
def TextAlike (P : Declaration → Declaration → Prop) (text text' : String) : Prop :=
  text = text' ∨ ∃ body body', P body body' ∧ text = body.text ∧ text' = body'.text

/-- The same selectors, and bodies alike token by token. -/
structure Rule.Alike (P : Declaration → Declaration → Prop) (r r' : Rule) : Prop where
  selectors : r.selectors = r'.selectors
  body : List.Forall₂ (Token.Alike P) r.body r'.body

/-- The tokens outside rules alike one by one, and so the rules. -/
structure Extraction.Alike (P : Declaration → Declaration → Prop) (e e' : Extraction) :
    Prop where
  topLevel : List.Forall₂ (Token.Alike P) e.topLevel e'.topLevel
  rules : List.Forall₂ (Rule.Alike P) e.rules e'.rules

/-- The text of a declaration is its line at the margin. -/
theorem Token.line_declaration (body : Declaration) (media : List String) :
    (Token.declaration body media).line 0 = body.text := by
  show indentation 0 ++ body.text = body.text
  unfold indentation
  simp

theorem Token.Alike.line {t t' : Token} (h : Token.Alike P t t') :
    TextAlike P (t.line 0) (t'.line 0) := by
  cases h with
  | same t => exact .inl rfl
  | declaration media hP =>
      exact .inr ⟨_, _, hP, Token.line_declaration _ _, Token.line_declaration _ _⟩

theorem Token.Alike.scopes {t t' : Token} (h : Token.Alike P t t') : t.scopes = t'.scopes := by
  cases h with
  | same t => rfl
  | declaration media hP => rfl

theorem Extraction.Alike.append {a a' b b' : Extraction} (h : Extraction.Alike P a a')
    (h' : Extraction.Alike P b b') : Extraction.Alike P (a ++ b) (a' ++ b') :=
  ⟨List.rel_append h.topLevel h'.topLevel, List.rel_append h.rules h'.rules⟩

/-- An inner token is put where its counterpart is put. -/
theorem Rule.extractFrom_alike_inner {t t' : Token} {rest rest' : List Token}
    {opened opened' : Option Rule} (ht : Token.Alike P t t') (hb : t.isBoundary = false)
    (hb' : t'.isBoundary = false) (ho : Option.Rel (Rule.Alike P) opened opened')
    (ih : ∀ {o o' : Option Rule}, Option.Rel (Rule.Alike P) o o' →
      Extraction.Alike P (extractFrom o rest) (extractFrom o' rest')) :
    Extraction.Alike P (extractFrom opened (t :: rest)) (extractFrom opened' (t' :: rest')) := by
  cases ho with
  | none =>
      rw [extractFrom_none_inner hb, extractFrom_none_inner hb']
      exact Extraction.Alike.append ⟨.cons ht .nil, .nil⟩ (ih .none)
  | some hr =>
      rw [extractFrom_some_inner hb, extractFrom_some_inner hb']
      exact ih (.some ⟨hr.selectors, List.rel_append hr.body (.cons ht .nil)⟩)

/-- Extraction keeps the likeness, whatever rule is open. -/
theorem Rule.extractFrom_alike {ts ts' : List Token} (h : List.Forall₂ (Token.Alike P) ts ts') :
    ∀ {opened opened' : Option Rule}, Option.Rel (Rule.Alike P) opened opened' →
      Extraction.Alike P (extractFrom opened ts) (extractFrom opened' ts') := by
  induction h with
  | nil => intro opened opened' _; exact ⟨.nil, .nil⟩
  | @cons t t' rest rest' ht _ ih =>
      intro opened opened' ho
      cases ht with
      | declaration media hP => exact extractFrom_alike_inner (.declaration media hP) rfl rfl ho ih
      | same t =>
          cases hb : t.isBoundary with
          | false => exact extractFrom_alike_inner (.same t) hb hb ho ih
          | true =>
              cases t with
              | mediaStart queries =>
                  rw [extractFrom_mediaStart, extractFrom_mediaStart]
                  exact ih ho
              | mediaEnd =>
                  rw [extractFrom_mediaEnd, extractFrom_mediaEnd]
                  exact ih ho
              | rulesetStart selectors =>
                  rw [extractFrom_rulesetStart, extractFrom_rulesetStart]
                  exact Extraction.Alike.append ⟨.nil, .nil⟩ (ih (.some ⟨rfl, .nil⟩))
              | rulesetEnd =>
                  cases ho with
                  | none =>
                      rw [extractFrom_none_rulesetEnd, extractFrom_none_rulesetEnd]
                      exact Extraction.Alike.append ⟨.nil, .nil⟩ (ih .none)
                  | some hr =>
                      rw [extractFrom_some_rulesetEnd, extractFrom_some_rulesetEnd]
                      exact Extraction.Alike.append ⟨.nil, .cons hr .nil⟩ (ih .none)
              | _ => exact absurd hb (by simp [Token.isBoundary])

/-- The same place, and texts that are alike. -/
structure Placement.Alike (P : Declaration → Declaration → Prop) (a a' : Placement) : Prop where
  media : a.media = a'.media
  selector : a.selector = a'.selector
  text : TextAlike P a.text a'.text

/-- Rules that are alike name the same places. -/
theorem Rule.Alike.placements {r r' : Rule} (h : Rule.Alike P r r') :
    List.Forall₂ (Placement.Alike P) r.placements r'.placements := by
  unfold Rule.placements
  refine List.rel_flatMap h.body ?_
  intro t t' ht
  dsimp only
  rw [ht.scopes, h.selectors]
  refine List.rel_flatMap (R := Eq) (List.forall₂_refl _) ?_
  rintro media _ rfl
  dsimp only
  rw [List.forall₂_map_left_iff, List.forall₂_map_right_iff, List.forall₂_same]
  intro selector _
  exact ⟨rfl, rfl, ht.line⟩

/-! ## Blocks -/

namespace Block

variable {R : String → String → Prop}

mutual

/-- Blocks of one shape: nested blocks and rule texts correspond, and so do their places. -/
inductive Alike (R : String → String → Prop) : Block → Block → Prop where
  | mk {cs cs' : List (String × Block)} {rs rs' : List String} {i : Option Nat} :
      ListAlike R cs cs' → List.Forall₂ R rs rs' → Alike R (.mk cs rs i) (.mk cs' rs' i)

/-- Blocks under the same names in the same order, alike one by one. -/
inductive ListAlike (R : String → String → Prop) :
    List (String × Block) → List (String × Block) → Prop where
  | nil : ListAlike R [] []
  | cons {name : String} {b b' : Block} {l l' : List (String × Block)} :
      Alike R b b' → ListAlike R l l' → ListAlike R ((name, b) :: l) ((name, b') :: l')

end

theorem alike_empty : Alike R empty empty := .mk .nil .nil

theorem ListAlike.length_eq {l l' : List (String × Block)} (h : ListAlike R l l') :
    l.length = l'.length := by
  induction l generalizing l' with
  | nil => cases h; rfl
  | cons e l ih =>
      cases h with
      | cons _ hl => rw [List.length_cons, List.length_cons, ih hl]

theorem ListAlike.keys_eq {l l' : List (String × Block)} (h : ListAlike R l l') :
    l.map Prod.fst = l'.map Prod.fst := by
  induction l generalizing l' with
  | nil => cases h; rfl
  | cons e l ih =>
      cases h with
      | cons _ hl => rw [List.map_cons, List.map_cons, ih hl]

theorem ListAlike.lookup {l l' : List (String × Block)} (h : ListAlike R l l') (name : String) :
    Option.Rel (Alike R) (l.lookup name) (l'.lookup name) := by
  induction l generalizing l' with
  | nil => cases h; exact .none
  | cons e l ih =>
      cases h with
      | @cons key b b' _ _ hb hl =>
          rw [List.lookup_cons, List.lookup_cons]
          cases name == key with
          | true => exact .some hb
          | false => exact ih hl

/-- Changing counterparts alike keeps the lists alike. -/
theorem ListAlike.upsert {f f' : Block → Block} (hf : ∀ b b', Alike R b b' → Alike R (f b) (f' b'))
    (name : String) {l l' : List (String × Block)} (h : ListAlike R l l') :
    ListAlike R (upsert name empty f l) (upsert name empty f' l') := by
  induction l generalizing l' with
  | nil =>
      cases h
      exact .cons (hf _ _ alike_empty) .nil
  | cons e l ih =>
      cases h with
      | @cons key b b' _ l' hb hl =>
          rw [CssNest.upsert, CssNest.upsert]
          split
          · exact .cons (hf _ _ hb) hl
          · exact .cons hb (ih hl)

theorem Alike.addRule {b b' : Block} (h : Alike R b b') {text text' : String}
    (ht : R text text') : Alike R (b.addRule text) (b'.addRule text') := by
  cases h with
  | @mk cs cs' rs rs' i hcs hrs =>
      unfold Block.addRule
      dsimp only [children, rules, rulesAt]
      rw [hcs.length_eq]
      exact .mk hcs (List.rel_append hrs (.cons ht .nil))

theorem Alike.modifyAt {f f' : Block → Block} (hf : ∀ b b', Alike R b b' → Alike R (f b) (f' b'))
    (path : List String) {b b' : Block} (h : Alike R b b') :
    Alike R (modifyAt f path b) (modifyAt f' path b') := by
  induction path generalizing b b' with
  | nil => exact hf b b' h
  | cons segment path ih =>
      cases h with
      | mk hcs hrs => exact .mk (hcs.upsert (fun _ _ => ih) segment) hrs

/-- Counterparts are found at the same paths. -/
theorem Alike.descend? {b b' : Block} (h : Alike R b b') (path : List String) :
    Option.Rel (Alike R) (b.descend? path) (b'.descend? path) := by
  induction path generalizing b b' with
  | nil => exact .some h
  | cons segment path ih =>
      cases h with
      | @mk cs cs' _ _ _ hcs _ =>
          have hc := hcs.lookup segment
          rw [Block.descend?, Block.descend?, child?, child?, children, children]
          generalize cs.lookup segment = found at hc ⊢
          generalize cs'.lookup segment = found' at hc ⊢
          cases hc with
          | none => exact .none
          | some hcc => exact ih hcc

end Block

/-! ## Sheets -/

namespace Sheet

/-- The same media types in the same order, with blocks alike one by one. -/
def Alike (R : String → String → Prop) (s s' : Sheet) : Prop :=
  Block.ListAlike R s.media.toList s'.media.toList

/-- Texts that are related keep the sheets alike when they go to the same place. -/
theorem Alike.place_text {R : String → String → Prop} {s s' : Sheet} (h : Alike R s s')
    {a a' : Placement} (hmedia : a.media = a'.media) (hselector : a.selector = a'.selector)
    (htext : R a.text a'.text) : Alike R (s.place a) (s'.place a') := by
  unfold Alike Sheet.place
  rw [OrderedMap.toList_update, OrderedMap.toList_update, ← hmedia, ← hselector]
  exact Block.ListAlike.upsert
    (fun _ _ hb => hb.modifyAt (fun _ _ hc => hc.addRule htext) _) _ h

/-- A run of placements of related texts keeps the likeness. -/
theorem placeAll_alike_text {R : String → String → Prop} {as as' : List Placement}
    (h : List.Forall₂ (fun a a' => a.media = a'.media ∧ a.selector = a'.selector
      ∧ R a.text a'.text) as as') :
    ∀ {s s' : Sheet}, Alike R s s' → Alike R (s.placeAll as) (s'.placeAll as') := by
  induction h with
  | nil => intro s s' hs; exact hs
  | cons ha _ ih => intro s s' hs; exact ih (hs.place_text ha.1 ha.2.1 ha.2.2)

/-- A run of placements keeps the likeness. -/
theorem placeAll_alike {as as' : List Placement} (h : List.Forall₂ (Placement.Alike P) as as') :
    ∀ {s s' : Sheet}, Alike (TextAlike P) s s' →
      Alike (TextAlike P) (s.placeAll as) (s'.placeAll as') :=
  placeAll_alike_text (h.imp fun _ _ ha => ⟨ha.media, ha.selector, ha.text⟩)

/-- The sheets of rules that are alike are alike. -/
theorem ofRules_alike {rules rules' : List Rule} (h : List.Forall₂ (Rule.Alike P) rules rules') :
    Alike (TextAlike P) (ofRules rules) (ofRules rules') := by
  have hplace : List.Forall₂ (Placement.Alike P) (rules.flatMap Rule.placements)
      (rules'.flatMap Rule.placements) := List.rel_flatMap h fun _ _ hr => hr.placements
  exact placeAll_alike hplace Block.ListAlike.nil

/-- At each place there are blocks in both sheets, and they are alike, or there are none. -/
theorem Alike.descend? {R : String → String → Prop} {s s' : Sheet} (h : Alike R s s')
    (media : String) (path : List String) :
    Option.Rel (Block.Alike R) ((s.block? media).bind fun b => b.descend? path)
      ((s'.block? media).bind fun b => b.descend? path) := by
  have hblock := Block.ListAlike.lookup h media
  unfold Sheet.block?
  rw [OrderedMap.get?_eq_lookup, OrderedMap.get?_eq_lookup]
  generalize s.media.toList.lookup media = found at hblock ⊢
  generalize s'.media.toList.lookup media = found' at hblock ⊢
  cases hblock with
  | none => exact .none
  | some hb => exact Block.Alike.descend? hb path

end Sheet

/-! ## Output -/

/-- Texts made of the same pieces in the same order, where a piece may be replaced as `R` says. -/
inductive Piecewise (R : String → String → Prop) : String → String → Prop where
  | same (text : String) : Piecewise R text text
  | piece {text text' : String} : R text text' → Piecewise R text text'
  | append {a a' b b' : String} : Piecewise R a a' → Piecewise R b b' →
      Piecewise R (a ++ b) (a' ++ b')

namespace Piecewise

variable {R : String → String → Prop}

theorem join {xs xs' : List String} (h : List.Forall₂ (Piecewise R) xs xs') :
    Piecewise R (String.join xs) (String.join xs') := by
  induction h with
  | nil => exact .same _
  | cons hx _ ih =>
      rw [String.join_cons, String.join_cons]
      exact .append hx ih

end Piecewise

theorem forall₂_insertAt {α β : Type} {S : α → β → Prop} {x : α} {y : β} {xs : List α}
    {ys : List β} (hx : S x y) (h : List.Forall₂ S xs ys) (i : Option Nat) :
    List.Forall₂ S (insertAt i x xs) (insertAt i y ys) := by
  cases i with
  | none => exact h
  | some i =>
      unfold insertAt
      dsimp only
      rw [h.length_eq]
      split
      · exact List.rel_append (List.forall₂_take i h) (.cons hx (List.forall₂_drop i h))
      · exact h

namespace Block

variable {R : String → String → Prop}

theorem renderRules_piecewise {rs rs' : List String} (h : List.Forall₂ R rs rs') (level : Nat) :
    Piecewise R (renderRules level rs) (renderRules level rs') := by
  unfold renderRules
  apply Piecewise.join
  rw [List.forall₂_map_left_iff, List.forall₂_map_right_iff]
  exact h.imp fun _ _ ht => .append (.append (.same _) (.piece ht)) (.same _)

mutual

/-- Blocks that are alike are written alike. -/
theorem render_piecewise {b b' : Block} (h : Alike R b b') (level : Nat) :
    Piecewise R (b.render level) (b'.render level) := by
  cases h with
  | @mk cs cs' rs rs' i hcs hrs =>
      rw [render, render]
      exact Piecewise.join (forall₂_insertAt (renderRules_piecewise hrs level)
        (renderChildren_piecewise hcs level) i)

theorem renderChildren_piecewise {cs cs' : List (String × Block)} (h : ListAlike R cs cs')
    (level : Nat) :
    List.Forall₂ (Piecewise R) (renderChildren level cs) (renderChildren level cs') := by
  cases h with
  | nil => rw [renderChildren]; exact .nil
  | cons hb hl =>
      rw [renderChildren, renderChildren]
      exact .cons
        (.append (.append (.append (.same _) (render_piecewise hb (level + 1))) (.same _))
          (.same _))
        (renderChildren_piecewise hl level)

end

end Block

/-- Sheets that are alike are written alike. -/
theorem Sheet.Alike.render {R : String → String → Prop} {s s' : Sheet} (h : Sheet.Alike R s s') :
    Piecewise R s.render s'.render := by
  unfold Sheet.Alike at h
  unfold Sheet.render
  apply Piecewise.join
  generalize s.media.toList = l at h
  generalize s'.media.toList = l' at h
  induction l generalizing l' with
  | nil => cases h; exact .nil
  | cons e l ih =>
      cases h with
      | @cons media b b' _ _ hb hl =>
          refine .cons ?_ (ih _ hl)
          unfold renderMedia
          dsimp only
          split
          · exact Block.render_piecewise hb 0
          · exact .append (.append (.same _) (Block.render_piecewise hb 1)) (.same _)

/-- Tokens that are alike are written alike. -/
theorem Layout.renderTopLevel_piecewise {ts ts' : List Token}
    (h : List.Forall₂ (Token.Alike P) ts ts') :
    Piecewise (TextAlike P) (renderTopLevel ts) (renderTopLevel ts') := by
  unfold renderTopLevel
  apply Piecewise.join
  rw [List.forall₂_map_left_iff, List.forall₂_map_right_iff]
  exact h.imp fun _ _ ht => .append (.piece ht.line) (.same _)

end CssNest
