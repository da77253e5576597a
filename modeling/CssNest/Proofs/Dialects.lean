import CssNest.Proofs.Template
import CssNest.Proofs.Usage

/-!
# What the dialect changes

The dialect is chosen before the values are replaced, and the replaced values go through
everything that follows: sorting into rules, merging into blocks, writing. None of these looks at
a value. So there is one template for both dialects, with a hole for each line of the variable
block and for each token that is written, and the dialects differ in how they fill it: by the
sigil in front of a name.

The sheet of a dialect holds texts, and from a text one cannot tell which token it was made of:
`color: @color_1` may be a declaration with a reference, and it may be source text that was kept
as it is. The template therefore comes from a sheet of labels, which has at each place the number
of the text that belongs there.
-/

namespace CssNest

open Token (indentation)
open Fragment (fill holes MarkedAt fill_append fill_map holes_append holes_map)

/-- What the dialect may have a part in: the line of a variable, or a token. -/
inductive Written where
  | binding (value name : String)
  | token (t : Token)

namespace Written

def text (d : Dialect) (V : Variables) : Written → String
  | binding value name => d.declaration name value
  | token t => (t.refer d V).line 0

/--
Where the sigil stands: first in the line of a variable, and first in the value of a declaration
whose property is covered.
-/
def sigil? : Written → Option Nat
  | token (.declaration body _) =>
    if Variables.isCovered body.property then some (body.property.length + 2) else none
  | token _ => none
  | binding _ _ => some 0

def binding? : Written → Option (String × String)
  | binding value name => some (value, name)
  | token _ => none

def token? : Written → Option Token
  | binding _ _ => none
  | token t => some t

end Written

theorem Dialect.toList_reference (d : Dialect) (name : String) :
    (d.reference name).toList = d.sigil :: name.toList := by
  unfold reference
  rw [String.toList_append, String.toList_ofList]
  rfl

/-- In both dialects a token of the stream is written alike, but for the sigil. -/
theorem Written.twin {tokens : List Token} {w : Written}
    (hw : ∀ body media, w = .token (.declaration body media) →
      .declaration body media ∈ tokens) :
    Fragment.Twin (text .less (.ofStream tokens)) (text .scss (.ofStream tokens)) sigil? '@' '$'
      w := by
  cases w with
  | binding value name =>
      have htext : ∀ d : Dialect, (text d (.ofStream tokens) (.binding value name)).toList
          = [] ++ d.sigil :: (name.toList ++ ": ".toList ++ value.toList ++ ";".toList) := by
        intro d
        simp [text, Dialect.declaration, Dialect.toList_reference]
      unfold Fragment.Twin
      rw [htext, htext]
      exact (Agrees.one _ _).congr fun i => by simp [sigil?, eq_comm]
  | token t =>
      cases t with
      | declaration body media =>
          cases hcov : Variables.isCovered body.property with
          | true =>
              obtain ⟨name, hname⟩ := Variables.exists_name (hw _ _ rfl) hcov
              have htext : ∀ d : Dialect,
                  (text d (.ofStream tokens) (.token (.declaration body media))).toList
                    = (body.property.toList ++ ": ".toList) ++ d.sigil :: (name.toList
                        ++ (if body.important then " !important" else "").toList
                        ++ (if body.isLast then "" else ";").toList) := by
                intro d
                rw [text, Token.refer, Token.line_declaration, Declaration.refer, hname]
                simp [Declaration.text, Dialect.toList_reference]
              unfold Fragment.Twin
              rw [htext, htext]
              refine (Agrees.one _ _).congr fun i => ?_
              simp [sigil?, hcov, eq_comm, String.length_toList]
          | false =>
              have hsame : ∀ d : Dialect, text d (.ofStream tokens) (.token (.declaration body media))
                  = body.text := by
                intro d
                rw [text, Token.refer, Token.line_declaration, Declaration.refer]
                simp [Declaration.name?, hcov]
              unfold Fragment.Twin
              rw [hsame, hsame]
              exact (Agrees.same _).congr fun i => by simp [sigil?, hcov]
      | _ => exact (Agrees.same _).congr fun i => by simp [sigil?]

/-! ## The rules of the rewritten stream -/

namespace Rule

/-- The rule with every token of its body changed by `g`. -/
def mapBody (g : Token → Token) (r : Rule) : Rule := ⟨r.selectors, r.body.map g⟩

/-- Changing inner tokens one by one can wait until the stream is sorted into rules. -/
theorem extractFrom_map {g : Token → Token} (hfixed : ∀ t, t.isBoundary = true → g t = t)
    (hinner : ∀ t, t.isBoundary = false → (g t).isBoundary = false) (tokens : List Token)
    (opened : Option Rule) :
    (extractFrom (opened.map (mapBody g)) (tokens.map g)).topLevel
        = (extractFrom opened tokens).topLevel.map g
      ∧ (extractFrom (opened.map (mapBody g)) (tokens.map g)).rules
        = (extractFrom opened tokens).rules.map (mapBody g) := by
  induction tokens generalizing opened with
  | nil => exact ⟨rfl, rfl⟩
  | cons t rest ih =>
      rw [List.map_cons]
      rcases t.fence_cases with ⟨selectors, rfl⟩ | rfl | ⟨hmedia, hb, _⟩ | ⟨_, hb, _⟩
      · rw [hfixed _ rfl, extractFrom_rulesetStart, extractFrom_rulesetStart]
        exact ih (some ⟨selectors, []⟩)
      · rw [hfixed _ rfl]
        cases opened with
        | none => exact ih none
        | some r =>
            obtain ⟨htop, hrules⟩ := ih none
            exact ⟨htop, congrArg (mapBody g r :: ·) hrules⟩
      · rw [hfixed t hb, extractFrom_media hmedia, extractFrom_media hmedia]
        exact ih opened
      · cases opened with
        | none =>
            obtain ⟨htop, hrules⟩ := ih none
            rw [Option.map_none, extractFrom_none_inner (hinner t hb), extractFrom_none_inner hb]
            exact ⟨congrArg (g t :: ·) htop, hrules⟩
        | some r =>
            have hgrown : mapBody g ⟨r.selectors, r.body ++ [t]⟩
                = ⟨(mapBody g r).selectors, (mapBody g r).body ++ [g t]⟩ := by
              simp [mapBody]
            rw [Option.map_some, extractFrom_some_inner (hinner t hb), extractFrom_some_inner hb,
              ← hgrown]
            exact ih (some _)

/-- References change the texts of a rule and none of its places. -/
theorem placements_refer (d : Dialect) (V : Variables) (r : Rule) :
    (r.mapBody (Token.refer d V)).placements
      = r.origins.map fun o =>
          ⟨o.place.media, o.place.selector, (o.token.refer d V).line 0⟩ := by
  have hscopes : ∀ t : Token, (t.refer d V).scopes = t.scopes := by
    intro t
    cases t <;> rfl
  obtain ⟨selectors, body⟩ := r
  unfold origins placements mapBody
  dsimp only
  induction body with
  | nil => rfl
  | cons token later ih =>
      rw [List.map_cons, List.flatMap_cons, ih, hscopes, originsFrom, List.map_append,
        List.map_flatMap]
      simp only [List.map_map]
      rfl

end Rule

/-! ## The sheet of labels -/

namespace Origin

/-- The places of some origins, with the number of the origin as the text. -/
def labels (os : List Origin) : List Placement :=
  os.zipIdx.map fun e => ⟨e.1.place.media, e.1.place.selector, indentation e.2⟩

/-- The token that a label stands for. -/
def tokenAt (os : List Origin) (label : String) : Token :=
  ((os[label.length]?).map token).getD (.raw "")

theorem tokenAt_of_mem {os : List Origin} {e : Origin × Nat} (h : e ∈ os.zipIdx) :
    tokenAt os (indentation e.2) = e.1.token := by
  have hlength : (indentation e.2).length = e.2 := by
    rw [← String.length_toList, indentation, String.toList_ofList, List.length_replicate]
  unfold tokenAt
  rw [hlength, List.mem_zipIdx_iff_getElem?.mp h]
  rfl

/-- The sheet of labels has the shape of the sheet in either dialect. -/
theorem alike_labels (d : Dialect) (V : Variables) (os : List Origin) :
    Sheet.Alike (fun label text => ((tokenAt os label).refer d V).line 0 = text)
      (Sheet.empty.placeAll (labels os))
      (Sheet.empty.placeAll (os.map fun o =>
        ⟨o.place.media, o.place.selector, (o.token.refer d V).line 0⟩)) := by
  refine Sheet.placeAll_alike_text ?_ Block.ListAlike.nil
  have hos : os = os.zipIdx.map Prod.fst := (List.zipIdx_map_fst 0 os).symm
  conv => arg 3; rw [hos]
  unfold labels
  rw [List.map_map, List.forall₂_map_left_iff, List.forall₂_map_right_iff, List.forall₂_same]
  intro e he
  refine ⟨rfl, rfl, ?_⟩
  dsimp only [Function.comp_apply]
  rw [tokenAt_of_mem he]

/-- Every label is found once in the sheet. -/
theorem tokens_labels_perm (os : List Origin) :
    ((holes (Sheet.empty.placeAll (labels os)).template).map (tokenAt os)).Perm
      (os.map token) := by
  have hplaced := ((Sheet.walk_placeAll_perm (labels os)).map Occurrence.text).map (tokenAt os)
  have htokens : (((labels os).map Placement.occurrence).map Occurrence.text).map (tokenAt os)
      = os.map token := by
    unfold labels
    rw [List.map_map, List.map_map, List.map_map]
    conv_rhs => rw [← List.zipIdx_map_fst 0 os, List.map_map]
    exact List.map_congr_left fun e he => tokenAt_of_mem he
  rw [Sheet.holes_template]
  rwa [htokens] at hplaced

end Origin

/-! ## The template of a layout -/

namespace Layout

/-- One line for each variable, and a blank line if there is any. -/
def bindingTemplate (V : Variables) : List (Fragment Written) :=
  if V.isEmpty then []
  else (V.bindings.flatMap fun b => [.hole (.binding b.1 b.2), .fixed "\n"]) ++ [.fixed "\n"]

def tokenTemplate (tokens : List Token) : List (Fragment Written) :=
  tokens.flatMap fun t => [.hole (.token t), .fixed "\n"]

def sheetTemplate (os : List Origin) : List (Fragment Written) :=
  (Sheet.empty.placeAll (Origin.labels os)).template.map
    (Fragment.map fun label => .token (Origin.tokenAt os label))

/-- The template of a stream that is laid out with variables. -/
def template (tokens : List Token) : List (Fragment Written) :=
  bindingTemplate (.ofStream tokens) ++ tokenTemplate (Rule.extract tokens).topLevel
    ++ sheetTemplate ((Rule.extract tokens).rules.flatMap Rule.origins)

/-- A line for each member of a list is a hole and a line end for each. -/
theorem fill_lines {α β : Type} (f : α → String) (h : β → α) (bs : List β) :
    fill f (bs.flatMap fun b => [.hole (h b), .fixed "\n"])
      = String.join (bs.map fun b => f (h b) ++ "\n") := by
  induction bs with
  | nil => rfl
  | cons b bs ih =>
      rw [List.flatMap_cons, fill_append, ih, List.map_cons, String.join_cons]
      simp [Fragment.text]

theorem holes_lines {α β : Type} (h : β → α) (bs : List β) :
    holes (bs.flatMap fun b => [.hole (h b), .fixed "\n"]) = bs.map h := by
  induction bs with
  | nil => rfl
  | cons b bs ih =>
      rw [List.flatMap_cons, holes_append, ih]
      rfl

theorem fill_bindingTemplate (d : Dialect) (V W : Variables) :
    fill (Written.text d W) (bindingTemplate V) = V.render d := by
  unfold bindingTemplate Variables.render
  split
  · rfl
  · rw [fill_append, fill_lines (Written.text d W) fun b : String × String => .binding b.1 b.2]
    rfl

theorem holes_bindingTemplate (V : Variables) :
    holes (bindingTemplate V) = V.bindings.map fun b => .binding b.1 b.2 := by
  unfold bindingTemplate
  split
  · rename_i hempty
    have hnone : V.bindings = [] := List.length_eq_zero_iff.mp (beq_iff_eq.mp hempty)
    rw [hnone]
    rfl
  · rw [holes_append, holes_lines fun b : String × String => Written.binding b.1 b.2]
    exact List.append_nil _

theorem holes_sheetTemplate (os : List Origin) :
    holes (sheetTemplate os)
      = ((holes (Sheet.empty.placeAll (Origin.labels os)).template).map
          (Origin.tokenAt os)).map Written.token := by
  rw [sheetTemplate, holes_map, List.map_map]
  rfl

/-- The rewritten stream is sorted like the stream itself, token by token. -/
theorem extract_prepare (d : Dialect) (tokens : List Token) :
    (Rule.extract (prepare d true tokens).1).topLevel
        = (Rule.extract tokens).topLevel.map (Token.refer d (.ofStream tokens))
      ∧ (Rule.extract (prepare d true tokens).1).rules
        = (Rule.extract tokens).rules.map (Rule.mapBody (Token.refer d (.ofStream tokens))) := by
  have hstream : (prepare d true tokens).1 = tokens.map (Token.refer d (.ofStream tokens)) :=
    Variables.extract_stream d tokens
  rw [hstream]
  refine Rule.extractFrom_map ?_ ?_ tokens none
  · intro t h
    cases t with
    | declaration body media => exact absurd h (by simp [Token.isBoundary])
    | _ => rfl
  · intro t h
    cases t with
    | declaration body media => rfl
    | _ => exact h

theorem topLevel_eq_fill (d : Dialect) (tokens : List Token) :
    renderTopLevel (ofTokens d true tokens).topLevel
      = fill (Written.text d (.ofStream tokens))
          (tokenTemplate (Rule.extract tokens).topLevel) := by
  have htop : (ofTokens d true tokens).topLevel
      = (Rule.extract tokens).topLevel.map (Token.refer d (.ofStream tokens)) :=
    (extract_prepare d tokens).1
  rw [htop, renderTopLevel, List.map_map, tokenTemplate,
    fill_lines (Written.text d (.ofStream tokens)) Written.token]
  rfl

theorem sheet_eq_fill (d : Dialect) (tokens : List Token) :
    (ofTokens d true tokens).sheet.render
      = fill (Written.text d (.ofStream tokens))
          (sheetTemplate ((Rule.extract tokens).rules.flatMap Rule.origins)) := by
  have hplaced : (ofTokens d true tokens).sheet
      = Sheet.empty.placeAll (((Rule.extract tokens).rules.flatMap Rule.origins).map fun o =>
          ⟨o.place.media, o.place.selector, (o.token.refer d (.ofStream tokens)).line 0⟩) := by
    show Sheet.empty.placeAll ((Rule.extract (prepare d true tokens).1).rules.flatMap
      Rule.placements) = _
    rw [(extract_prepare d tokens).2, List.flatMap_map, List.map_flatMap]
    simp only [Rule.placements_refer]
  rw [hplaced, (Origin.alike_labels d _ _).render_eq_fill, sheetTemplate, fill_map]
  rfl

/-- In either dialect, what is written is the one template, filled. -/
theorem render_eq_fill (d : Dialect) (tokens : List Token) :
    (ofTokens d true tokens).render
      = fill (Written.text d (.ofStream tokens)) (template tokens) := by
  have htable : (ofTokens d true tokens).table = some (.ofStream tokens) :=
    congrArg some (Variables.extract_table d tokens)
  unfold render
  rw [htable, topLevel_eq_fill, sheet_eq_fill, template, fill_append, fill_append,
    fill_bindingTemplate]
  rfl

/-- The lines of the template are the variables in their order. -/
theorem bindings_template (tokens : List Token) :
    (holes (template tokens)).filterMap Written.binding?
      = (Variables.ofStream tokens).bindings := by
  have hnone : ∀ ts : List Token, (ts.map Written.token).filterMap Written.binding? = [] := by
    intro ts
    rw [List.filterMap_map, List.filterMap_eq_nil_iff]
    intro t _
    rfl
  rw [template, holes_append, holes_append, List.filterMap_append, List.filterMap_append,
    holes_sheetTemplate, hnone, tokenTemplate, holes_lines, hnone, holes_bindingTemplate,
    List.filterMap_map, List.append_nil, List.append_nil]
  exact List.filterMap_some

/-- The tokens of the template are those outside rules and those that rules put somewhere. -/
theorem tokens_template (tokens : List Token) :
    ((holes (template tokens)).filterMap Written.token?).Perm
      ((Rule.extract tokens).topLevel
        ++ ((Rule.extract tokens).rules.flatMap Rule.origins).map Origin.token) := by
  have htoken : ∀ ts : List Token, (ts.map Written.token).filterMap Written.token? = ts := by
    intro ts
    rw [List.filterMap_map]
    exact List.filterMap_some
  have hbindings : ((Variables.ofStream tokens).bindings.map
      fun b => Written.binding b.1 b.2).filterMap Written.token? = [] := by
    rw [List.filterMap_map, List.filterMap_eq_nil_iff]
    intro b _
    rfl
  rw [template, holes_append, holes_append, List.filterMap_append, List.filterMap_append,
    holes_bindingTemplate, hbindings, List.nil_append, tokenTemplate, holes_lines, htoken,
    holes_sheetTemplate, htoken]
  exact (Origin.tokens_labels_perm _).append_left _

/-- Every declaration that the template has a hole for is in the stream. -/
theorem declaration_mem_of_template {tokens : List Token} {body : Declaration}
    {media : List String} (h : .token (.declaration body media) ∈ holes (template tokens)) :
    .declaration body media ∈ tokens := by
  have hmem := (tokens_template tokens).mem_iff.mp (List.mem_filterMap.mpr ⟨_, h, rfl⟩)
  rcases List.mem_append.mp hmem with htop | hplaced
  · exact Rule.declaration_mem_of_extract (.inl htop)
  · obtain ⟨o, ho, htoken⟩ := List.mem_map.mp hplaced
    exact Rule.declaration_mem_of_origin ho htoken

/-- Without variables the dialect is not looked at. -/
theorem render_without_variables (d : Dialect) (tokens : List Token) :
    (ofTokens d false tokens).render
      = "" ++ renderTopLevel (Rule.extract tokens).topLevel
        ++ (Sheet.ofRules (Rule.extract tokens).rules).render := rfl

/-- The outputs agree but for the sigils, whichever of them the positions are counted in. -/
theorem agrees_dialects (tokens : List Token) (d : Dialect) :
    Agrees '@' '$' (MarkedAt (Written.text d (.ofStream tokens)) Written.sigil? (template tokens))
      (ofTokens .less true tokens).render.toList (ofTokens .scss true tokens).render.toList := by
  have htwin : ∀ w ∈ holes (template tokens), Fragment.Twin (Written.text .less (.ofStream tokens))
      (Written.text .scss (.ofStream tokens)) Written.sigil? '@' '$' w := by
    intro w hw
    refine Written.twin fun body media hbody => declaration_mem_of_template ?_
    rw [← hbody]
    exact hw
  rw [render_eq_fill, render_eq_fill]
  cases d with
  | less => exact Fragment.agrees_fill htwin
  | scss => exact (Fragment.agrees_fill fun w hw => (htwin w hw).symm).symm

/--
**The dialect changes nothing but sigils.** Whatever the stream, both outputs are the one
template, filled: it has a hole for each line of the variable block, in their order, and for each
token that stands outside rules or that a rule puts somewhere. The outputs have one length, with
`@` against `$` where the line of a variable starts and where the value of a covered declaration
starts, and the same character everywhere else. Without variables they are equal.
-/
theorem dialects_differ_at_sigils (tokens : List Token) :
    (∀ d, (ofTokens d true tokens).table = some (.ofStream tokens)
        ∧ (ofTokens d true tokens).render
          = fill (Written.text d (.ofStream tokens)) (template tokens))
      ∧ (holes (template tokens)).filterMap Written.binding?
          = (Variables.ofStream tokens).bindings
      ∧ ((holes (template tokens)).filterMap Written.token?).Perm
          ((Rule.extract tokens).topLevel
            ++ ((Rule.extract tokens).rules.flatMap Rule.origins).map Origin.token)
      ∧ (ofTokens .less true tokens).render.length = (ofTokens .scss true tokens).render.length
      ∧ (∀ d i,
          (MarkedAt (Written.text d (.ofStream tokens)) Written.sigil? (template tokens) i →
            (ofTokens .less true tokens).render.toList[i]? = some '@'
              ∧ (ofTokens .scss true tokens).render.toList[i]? = some '$')
          ∧ (¬ MarkedAt (Written.text d (.ofStream tokens)) Written.sigil? (template tokens) i →
            (ofTokens .less true tokens).render.toList[i]?
              = (ofTokens .scss true tokens).render.toList[i]?))
      ∧ (ofTokens .less false tokens).render = (ofTokens .scss false tokens).render := by
  have hagrees := agrees_dialects tokens
  refine ⟨?_, bindings_template tokens, tokens_template tokens, ?_, ?_, ?_⟩
  · intro d
    exact ⟨congrArg some (Variables.extract_table d tokens), render_eq_fill d tokens⟩
  · rw [← String.length_toList, ← String.length_toList]
    exact (hagrees .less).length
  · intro d i
    exact ⟨(hagrees d).marked i, (hagrees d).plain i⟩
  · rw [render_without_variables, render_without_variables]

end Layout

end CssNest
