import CssNest.Proofs.Alike
import CssNest.Proofs.Sheet

/-!
# Text with holes

Indentation, segments and braces of a sheet are written in the same way whatever its rule texts
are. So the sheet is a template: fixed text with a hole for each rule text. Sheets of one shape
have one template and differ in how its holes are filled (`Sheet.Alike.render_eq_fill`).

Two ways to fill a template may agree but for one marked character in some of the holes. The
filled texts then have one length, and they differ at the marks and nowhere else
(`Fragment.agrees_fill`).
-/

namespace CssNest

open Token (indentation)

/-- A stretch of a template: text that never changes, or a hole to be filled. -/
inductive Fragment (α : Type) where
  | fixed (text : String)
  | hole (a : α)

/--
Texts of one length, with `x` in the first and `y` in the second at the positions that `M` picks
out, and the same characters everywhere else.
-/
structure Agrees (x y : Char) (M : Nat → Prop) (cs ds : List Char) : Prop where
  length : cs.length = ds.length
  marked : ∀ i, M i → cs[i]? = some x ∧ ds[i]? = some y
  plain : ∀ i, ¬ M i → cs[i]? = ds[i]?

namespace Agrees

variable {x y : Char} {M N : Nat → Prop} {cs ds cs' ds' : List Char}

theorem same (cs : List Char) : Agrees x y (fun _ => False) cs cs :=
  ⟨rfl, fun _ h => h.elim, fun _ _ => rfl⟩

theorem congr (h : Agrees x y M cs ds) (hMN : ∀ i, M i ↔ N i) : Agrees x y N cs ds :=
  ⟨h.length, fun i hi => h.marked i ((hMN i).mpr hi), fun i hi => h.plain i fun hM =>
    hi ((hMN i).mp hM)⟩

theorem symm (h : Agrees x y M cs ds) : Agrees y x M ds cs :=
  ⟨h.length.symm, fun i hi => (h.marked i hi).symm, fun i hi => (h.plain i hi).symm⟩

theorem one (front back : List Char) :
    Agrees x y (fun i => i = front.length) (front ++ x :: back) (front ++ y :: back) := by
  refine ⟨by simp, ?_, ?_⟩
  · rintro i rfl
    simp
  · intro i hi
    rcases Nat.lt_or_gt_of_ne hi with hlt | hgt
    · rw [List.getElem?_append_left hlt, List.getElem?_append_left hlt]
    · rw [List.getElem?_append_right (by omega), List.getElem?_append_right (by omega)]
      obtain ⟨j, hj⟩ : ∃ j, i - front.length = j + 1 := ⟨i - front.length - 1, by omega⟩
      rw [hj, List.getElem?_cons_succ, List.getElem?_cons_succ]

theorem append (h : Agrees x y M cs ds) (h' : Agrees x y N cs' ds') :
    Agrees x y (fun i => M i ∨ ∃ j, N j ∧ i = cs.length + j) (cs ++ cs') (ds ++ ds') := by
  have hlen := h.length
  refine ⟨by rw [List.length_append, List.length_append, hlen, h'.length], ?_, ?_⟩
  · rintro i (hi | ⟨j, hj, rfl⟩)
    · obtain ⟨hx, hy⟩ := h.marked i hi
      obtain ⟨hlt, _⟩ := List.getElem?_eq_some_iff.mp hx
      rw [List.getElem?_append_left hlt, List.getElem?_append_left (by omega)]
      exact ⟨hx, hy⟩
    · rw [List.getElem?_append_right (by omega), List.getElem?_append_right (by omega), ← hlen,
        Nat.add_sub_cancel_left]
      exact h'.marked j hj
  · intro i hi
    by_cases hlt : i < cs.length
    · rw [List.getElem?_append_left hlt, List.getElem?_append_left (by omega)]
      exact h.plain i fun hM => hi (.inl hM)
    · rw [List.getElem?_append_right (by omega), List.getElem?_append_right (by omega), ← hlen]
      refine h'.plain _ fun hN => hi (.inr ⟨_, hN, ?_⟩)
      omega

end Agrees

namespace Fragment

variable {α β : Type} {f g : α → String}

/-- The text of a stretch, with `f` for the hole. -/
def text (f : α → String) : Fragment α → String
  | fixed text => text
  | hole a => f a

def hole? : Fragment α → Option α
  | fixed _ => none
  | hole a => some a

def map (h : α → β) : Fragment α → Fragment β
  | fixed text => fixed text
  | hole a => hole (h a)

/-- The holes of a template in order. -/
def holes (ps : List (Fragment α)) : List α := ps.filterMap hole?

/-- The template with its holes filled by `f`. -/
def fill (f : α → String) (ps : List (Fragment α)) : String := String.join (ps.map (text f))

/-! ## Filling -/

@[simp] theorem fill_nil : fill f [] = "" := rfl

@[simp] theorem fill_cons (p : Fragment α) (ps : List (Fragment α)) :
    fill f (p :: ps) = p.text f ++ fill f ps := by
  unfold fill
  rw [List.map_cons, String.join_cons]

theorem fill_append (ps qs : List (Fragment α)) : fill f (ps ++ qs) = fill f ps ++ fill f qs := by
  induction ps with
  | nil => simp
  | cons p ps ih => rw [List.cons_append, fill_cons, fill_cons, ih, String.append_assoc]

theorem fill_flatten (pss : List (List (Fragment α))) :
    fill f pss.flatten = String.join (pss.map (fill f)) := by
  induction pss with
  | nil => rfl
  | cons ps pss ih => rw [List.flatten_cons, fill_append, ih, List.map_cons, String.join_cons]

theorem fill_map (h : β → α) (ps : List (Fragment β)) :
    fill f (ps.map (map h)) = fill (fun b => f (h b)) ps := by
  unfold fill
  rw [List.map_map]
  congr 1
  apply List.map_congr_left
  intro p _
  cases p <;> rfl

theorem holes_append (ps qs : List (Fragment α)) : holes (ps ++ qs) = holes ps ++ holes qs :=
  List.filterMap_append

theorem holes_map (h : α → β) (ps : List (Fragment α)) :
    holes (ps.map (map h)) = (holes ps).map h := by
  unfold holes
  rw [List.filterMap_map, List.map_filterMap]
  congr 1
  funext p
  cases p <;> rfl

theorem holes_flatten (pss : List (List (Fragment α))) :
    holes pss.flatten = (pss.map holes).flatten := by
  unfold holes
  rw [List.filterMap_flatten]

/-! ## Marks in holes -/

variable {mark : α → Option Nat} {x y : Char}

/--
The position of a mark in the filled template: `mark` says where in its hole a mark stands, if
there is one.
-/
def MarkedAt (f : α → String) (mark : α → Option Nat) (ps : List (Fragment α)) (i : Nat) : Prop :=
  ∃ before a after k, ps = before ++ .hole a :: after ∧ mark a = some k
    ∧ i = (fill f before).length + k

/-- Filled by `f` or by `g` the hole has the same text, but for the character at its mark. -/
def Twin (f g : α → String) (mark : α → Option Nat) (x y : Char) (a : α) : Prop :=
  Agrees x y (fun i => mark a = some i) (f a).toList (g a).toList

/-- A mark stands in the first stretch or behind it. -/
theorem markedAt_cons (p : Fragment α) (ps : List (Fragment α)) (i : Nat) :
    MarkedAt f mark (p :: ps) i
      ↔ (∃ a, p = .hole a ∧ mark a = some i)
        ∨ ∃ j, MarkedAt f mark ps j ∧ i = (p.text f).toList.length + j := by
  constructor
  · rintro ⟨before, a, after, k, hps, hk, rfl⟩
    cases before with
    | nil =>
        obtain ⟨rfl, rfl⟩ := List.cons.inj hps
        exact .inl ⟨a, rfl, by simpa using hk⟩
    | cons q before =>
        obtain ⟨rfl, rfl⟩ := List.cons.inj hps
        refine .inr ⟨_, ⟨before, a, after, k, rfl, hk, rfl⟩, ?_⟩
        rw [fill_cons, String.length_append, String.length_toList]
        omega
  · rintro (⟨a, rfl, hi⟩ | ⟨j, ⟨before, a, after, k, rfl, hk, rfl⟩, rfl⟩)
    · exact ⟨[], a, ps, i, rfl, hi, by simp⟩
    · refine ⟨p :: before, a, after, k, rfl, hk, ?_⟩
      rw [fill_cons, String.length_append, String.length_toList]
      omega

/-- Two fillings that agree hole by hole but for the marks agree as a whole but for the marks. -/
theorem agrees_fill {ps : List (Fragment α)} (h : ∀ a ∈ holes ps, Twin f g mark x y a) :
    Agrees x y (MarkedAt f mark ps) (fill f ps).toList (fill g ps).toList := by
  induction ps with
  | nil =>
      refine (Agrees.same []).congr fun i => ?_
      simp [MarkedAt]
  | cons p ps ih =>
      have hrest : ∀ a ∈ holes ps, Twin f g mark x y a := by
        intro a ha
        obtain ⟨q, hq, hqa⟩ := List.mem_filterMap.mp ha
        exact h a (List.mem_filterMap.mpr ⟨q, List.mem_cons_of_mem p hq, hqa⟩)
      have hhead : Agrees x y (fun i => ∃ a, p = .hole a ∧ mark a = some i) (p.text f).toList
          (p.text g).toList := by
        cases p with
        | fixed text => exact (Agrees.same _).congr fun i => by simp
        | hole a =>
            have ha : Twin f g mark x y a := h a (List.mem_filterMap.mpr ⟨_, List.mem_cons_self, rfl⟩)
            exact Agrees.congr ha fun i => by simp
      rw [fill_cons, fill_cons, String.toList_append, String.toList_append]
      exact (hhead.append (ih hrest)).congr fun i => (markedAt_cons p ps i).symm

end Fragment

open Fragment (fill holes fill_append fill_flatten holes_append holes_flatten)

/-! ## The templates of blocks and sheets -/

namespace Block

variable {f : String → String}

/-- A line for each rule text, with a hole for the text itself. -/
def ruleTemplate (level : Nat) (texts : List String) : List (Fragment String) :=
  texts.flatMap fun text => [.fixed (indentation level), .hole text, .fixed "\n"]

theorem ruleTemplate_cons (level : Nat) (text : String) (texts : List String) :
    ruleTemplate level (text :: texts)
      = .fixed (indentation level) :: .hole text :: .fixed "\n" :: ruleTemplate level texts := rfl

mutual

/-- The template of a block that is written at `level`. -/
def template (level : Nat) : Block → List (Fragment String)
  | mk children rules rulesAt =>
    (insertAt rulesAt (ruleTemplate level rules) (childTemplates level children)).flatten

/-- The templates of nested blocks, each with its braces. -/
def childTemplates (level : Nat) : List (String × Block) → List (List (Fragment String))
  | [] => []
  | (segment, block) :: rest =>
    (.fixed (indentation level ++ segment ++ " \x7b\n")
        :: (block.template (level + 1) ++ [.fixed (indentation level ++ "\x7d\n")]))
      :: childTemplates level rest

end

theorem renderRules_eq_fill {rs rs' : List String} (h : List.Forall₂ (fun l t => f l = t) rs rs')
    (level : Nat) : renderRules level rs' = fill f (ruleTemplate level rs) := by
  unfold renderRules
  induction h with
  | nil => rfl
  | cons ht _ ih =>
      subst ht
      rw [List.map_cons, String.join_cons, ih, ruleTemplate_cons]
      simp [Fragment.text, String.append_assoc]

mutual

/-- A block of the same shape is written by filling the template. -/
theorem render_eq_fill {b b' : Block} (h : Alike (fun l t => f l = t) b b') (level : Nat) :
    b'.render level = fill f (b.template level) := by
  cases h with
  | @mk cs cs' rs rs' i hcs hrs =>
      rw [render, template, fill_flatten, map_insertAt, renderRules_eq_fill hrs,
        renderChildren_eq_fill hcs]

theorem renderChildren_eq_fill {cs cs' : List (String × Block)}
    (h : ListAlike (fun l t => f l = t) cs cs') (level : Nat) :
    renderChildren level cs' = (childTemplates level cs).map (fill f) := by
  cases h with
  | nil => rw [renderChildren, childTemplates, List.map_nil]
  | cons hb hl =>
      rw [renderChildren, childTemplates, List.map_cons, renderChildren_eq_fill hl,
        render_eq_fill hb, Fragment.fill_cons, fill_append]
      simp [Fragment.text, String.append_assoc]

end

theorem holes_ruleTemplate (level : Nat) (texts : List String) :
    holes (ruleTemplate level texts) = texts := by
  induction texts with
  | nil => rfl
  | cons text texts ih =>
      rw [ruleTemplate_cons]
      exact congrArg (text :: ·) ih

mutual

/-- The holes of a template stand where the walk meets the rule texts. -/
theorem holes_template (b : Block) (level : Nat) :
    holes (b.template level) = b.walk.map Prod.snd := by
  obtain ⟨cs, rs, i⟩ := b
  rw [template, walk, holes_flatten, map_insertAt, holes_ruleTemplate, holes_childTemplates,
    List.map_flatten, map_insertAt, List.map_map]
  congr 2
  exact (List.map_id rs).symm

theorem holes_childTemplates (cs : List (String × Block)) (level : Nat) :
    (childTemplates level cs).map holes = (walkChildren cs).map (List.map Prod.snd) := by
  cases cs with
  | nil => rw [childTemplates, walkChildren, List.map_nil, List.map_nil]
  | cons c cs =>
      obtain ⟨segment, block⟩ := c
      have hblock := holes_template block (level + 1)
      rw [childTemplates, walkChildren, List.map_cons, List.map_cons, holes_childTemplates,
        List.map_map]
      congr 1
      -- braces have no holes
      show holes (block.template (level + 1) ++ [.fixed _]) = _
      rw [holes_append, hblock]
      exact List.append_nil _

end

end Block

namespace Sheet

variable {f : String → String}

/-- The template of one media type. -/
def mediaTemplate (media : String) (block : Block) : List (Fragment String) :=
  if media == Token.allMedia then block.template 0
  else .fixed ("@media " ++ media ++ " \x7b\n") :: (block.template 1 ++ [.fixed "\x7d\n"])

/-- The template of a sheet. -/
def template (s : Sheet) : List (Fragment String) :=
  s.media.toList.flatMap fun e => mediaTemplate e.1 e.2

theorem renderMedia_eq_fill {b b' : Block} (h : Block.Alike (fun l t => f l = t) b b')
    (media : String) : renderMedia media b' = fill f (mediaTemplate media b) := by
  unfold renderMedia mediaTemplate
  split
  · exact Block.render_eq_fill h 0
  · rw [Block.render_eq_fill h 1, Fragment.fill_cons, fill_append]
    simp [Fragment.text, String.append_assoc]

/-- A sheet of the same shape is written by filling the template. -/
theorem Alike.render_eq_fill {s s' : Sheet} (h : Alike (fun l t => f l = t) s s') :
    s'.render = fill f s.template := by
  unfold Alike at h
  unfold Sheet.render template
  generalize s.media.toList = l at h
  generalize s'.media.toList = l' at h
  induction l generalizing l' with
  | nil => cases h; rfl
  | cons e l ih =>
      cases h with
      | @cons media b b' _ l' hb hl =>
          rw [List.map_cons, String.join_cons, ih _ hl, List.flatMap_cons, fill_append,
            renderMedia_eq_fill hb]

theorem holes_template (s : Sheet) : holes s.template = s.walk.map Occurrence.text := by
  have hmedia : ∀ (media : String) (block : Block),
      holes (mediaTemplate media block) = block.walk.map Prod.snd := by
    intro media block
    unfold mediaTemplate
    split
    · exact block.holes_template 0
    · show holes (block.template 1 ++ [.fixed _]) = _
      rw [holes_append, block.holes_template 1]
      exact List.append_nil _
  unfold template walk
  rw [List.flatMap_def, holes_flatten, List.map_map, List.map_flatMap, List.flatMap_def]
  congr 1
  apply List.map_congr_left
  intro e _
  rw [Function.comp_apply, hmedia, List.map_map]
  rfl

end Sheet

end CssNest
