import CssNest.Proofs.Alike
import CssNest.Proofs.Variables

/-!
# Variables change nothing but how values are written

Pulling values out into variables rewrites the token stream before it is laid out, when
nobody knows yet which rules will be dropped and where the others will go. The stream is
then alike to the one without variables (`extract_alike`), so all that follows keeps step.
The references are made while the table still grows; that the table at the end explains
them all is because names are kept.

The two stylesheets then differ in rule texts only, and only so that a value and a
reference to it change places. No two variables have the same name, so writing the values
back for the references gives the stylesheet without variables.
-/

namespace CssNest

namespace Variables

/-! ## The rewritten stream -/

/-- The second declaration refers by name to the value that the first one states. -/
def Replaces (d : Dialect) (V : Variables) (body body' : Declaration) : Prop :=
  ∃ name, isCovered body.property = true ∧ V.get? body.property body.value = some name
    ∧ body' = { body with value := d.reference name }

/-- All that happens to one token: a declaration gets a reference, or nothing changes. -/
theorem replace_cases (d : Dialect) (t : Variables) (token : Token) :
    (∃ body media name, token = .declaration body media
        ∧ (t.define body.property body.value).1 = some name
        ∧ replace d t token = (.declaration { body with value := d.reference name } media,
            (t.define body.property body.value).2))
      ∨ replace d t token = (token, t) := by
  cases token with
  | declaration body media =>
      rw [replace]
      cases hdef : t.define body.property body.value with
      | mk found t' =>
          cases found with
          | some name => exact .inl ⟨body, media, name, rfl, by rw [hdef], by rw [hdef]⟩
          | none =>
              have hsame : (t.define body.property body.value).2 = t :=
                define_snd_of_none (by rw [hdef])
              rw [hdef] at hsame
              exact .inr (by rw [← hsame])
  | _ => exact .inr rfl

theorem Sound.replaceAll {t : Variables} (h : Sound t) (d : Dialect) (tokens : List Token) :
    Sound (replaceAll d t tokens).2 := by
  induction tokens generalizing t with
  | nil => exact h
  | cons token rest ih =>
      rw [Variables.replaceAll]
      apply ih
      rcases replace_cases d t token with ⟨body, media, name, _, _, hrep⟩ | hrep
      · rw [hrep]
        exact h.define _ _
      · rw [hrep]
        exact h

/-- Names are kept to the end of the stream. -/
theorem get?_replaceAll {t : Variables} {p v name : String} (h : t.get? p v = some name)
    (d : Dialect) (tokens : List Token) : (replaceAll d t tokens).2.get? p v = some name := by
  induction tokens generalizing t with
  | nil => exact h
  | cons token rest ih =>
      rw [replaceAll]
      apply ih
      rcases replace_cases d t token with ⟨body, media, n, _, _, hrep⟩ | hrep
      · rw [hrep]
        exact get?_define_of_some h _ _
      · rw [hrep]
        exact h

/-- The table at the end explains every reference made on the way. -/
theorem replaceAll_alike (d : Dialect) (t : Variables) (tokens : List Token) :
    List.Forall₂ (Token.Alike (Replaces d (replaceAll d t tokens).2)) tokens
      (replaceAll d t tokens).1 := by
  induction tokens generalizing t with
  | nil => exact .nil
  | cons token rest ih =>
      rw [replaceAll]
      refine .cons ?_ (ih _)
      rcases replace_cases d t token with ⟨body, media, name, htoken, hdef, hrep⟩ | hrep
      · rw [hrep, htoken]
        refine .declaration media ⟨name, isCovered_of_define hdef, ?_, rfl⟩
        exact get?_replaceAll (get?_define_self hdef) d rest
      · rw [hrep]
        exact .same token

theorem extract_alike (d : Dialect) (tokens : List Token) :
    List.Forall₂ (Token.Alike (Replaces d (extract d tokens).2)) tokens (extract d tokens).1 :=
  replaceAll_alike d empty tokens

theorem sound_extract (d : Dialect) (tokens : List Token) : Sound (extract d tokens).2 :=
  sound_empty.replaceAll d tokens

/-! ## Values and references -/

/-- What may follow the value of a declaration. -/
def endings : List String := ["", ";", " !important", " !important;"]

/--
The first text states a value of a covered property, and the second one has the name of
that value in its place. Among the variables that are declared, this value is the one with
that name, and no other has it.
-/
def Refers (d : Dialect) (V : Variables) (text text' : String) : Prop :=
  ∃ property value name ending, property ∈ properties ∧ ending ∈ endings
    ∧ text = property ++ ": " ++ value ++ ending
    ∧ text' = property ++ ": " ++ d.reference name ++ ending
    ∧ V.get? property value = some name
    ∧ V.bindings.filter (fun b => b.2 == name) = [(value, name)]

theorem Replaces.refers {d : Dialect} {V : Variables} (hV : Sound V) {body body' : Declaration}
    (h : Replaces d V body body') : Refers d V body.text body'.text := by
  obtain ⟨name, hcov, hget, rfl⟩ := h
  refine ⟨body.property, body.value, name,
    (if body.important then " !important" else "") ++ (if body.isLast then "" else ";"),
    List.contains_iff_mem.mp hcov, ?_, ?_, ?_, hget, hV.filter_bindings hget⟩
  · cases body.important <;> cases body.isLast <;> decide
  · unfold Declaration.text
    simp only [String.append_assoc]
  · unfold Declaration.text
    simp only [String.append_assoc]

theorem refers_of_textAlike {d : Dialect} {V : Variables} (hV : Sound V) {text text' : String}
    (h : TextAlike (Replaces d V) text text') : text = text' ∨ Refers d V text text' := by
  rcases h with h | ⟨body, body', hrep, rfl, rfl⟩
  · exact .inl h
  · exact .inr (hrep.refers hV)

end Variables

namespace Layout

open Variables (Refers)

/-- Same text or a reference: the second text has the first one's value, maybe by its name. -/
theorem piecewise_refers {d : Dialect} {V : Variables} (hV : V.Sound) {text text' : String}
    (h : Piecewise (TextAlike (Variables.Replaces d V)) text text') :
    Piecewise (Refers d V) text text' := by
  induction h with
  | same text => exact .same text
  | piece ht =>
      rcases Variables.refers_of_textAlike hV ht with heq | href
      · rw [heq]
        exact .same _
      · exact .piece href
  | append _ _ ih₁ ih₂ => exact .append ih₁ ih₂

end Layout

end CssNest
