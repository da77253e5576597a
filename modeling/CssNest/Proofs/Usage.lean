import CssNest.Proofs.Characters
import CssNest.Proofs.Naming
import CssNest.Proofs.Separators

/-!
# Variables that are declared and variables that are used

The table of variables is filled from the stream as it comes, before anyone knows which of its
rulesets will be kept. A ruleset that is opened again or never closed is left out later on, and
one without selectors has no place to go; by then their values are in the table and will be
declared. Everything that is written refers to variables of the table, so no declaration is
missing. What may be too many is exactly what only such rulesets use.

The first part describes the rewritten stream from its end: each token by itself refers to the
finished table (`extract_stream`), because what has a name keeps it.
-/

namespace CssNest

/-- The property and the value that a token asks a name for. -/
def Token.request? : Token → Option (String × String)
  | .declaration body _ => some (body.property, body.value)
  | _ => none

/-- The name of a declaration's value, if its property is covered. -/
def Declaration.name? (V : Variables) (body : Declaration) : Option String :=
  if Variables.isCovered body.property then V.get? body.property body.value else none

/-- The declaration with a reference in place of its value, if that has a name. -/
def Declaration.refer (d : Dialect) (V : Variables) (body : Declaration) : Declaration :=
  match body.name? V with
  | some name => { body with value := d.reference name }
  | none => body

/-- The token with references in place of values. -/
def Token.refer (d : Dialect) (V : Variables) : Token → Token
  | .declaration body media => .declaration (body.refer d V) media
  | t => t

namespace Variables

/-! ## The rewritten stream -/

/-- The table of all that a stream asks names for. -/
def ofStream (tokens : List Token) : Variables :=
  (empty.defineAll (tokens.filterMap Token.request?)).2

theorem replaceAll_table (d : Dialect) (t : Variables) (tokens : List Token) :
    (replaceAll d t tokens).2 = (t.defineAll (tokens.filterMap Token.request?)).2 := by
  induction tokens generalizing t with
  | nil => rfl
  | cons token rest ih =>
      rw [replaceAll, ih]
      cases token with
      | declaration body media =>
          have hstep : (replace d t (.declaration body media)).2
              = (t.define body.property body.value).2 := by
            rw [replace]
            split <;> rename_i hdef <;> rw [hdef]
          rw [hstep]
          rfl
      | _ => rfl

/-- The dialect has no part in the table. -/
theorem extract_table (d : Dialect) (tokens : List Token) :
    (extract d tokens).2 = ofStream tokens := replaceAll_table d empty tokens

theorem names_ofStream (tokens : List Token) :
    Names (tokens.filterMap Token.request?) (ofStream tokens) := by
  have h := names_empty.defineAll (tokens.filterMap Token.request?)
  rwa [List.nil_append] at h

/-- A step writes what the finished table says, if that keeps the names of the step. -/
theorem replace_token (d : Dialect) (t V : Variables) (token : Token)
    (hkeeps : ∀ p v name, (replace d t token).2.get? p v = some name → V.get? p v = some name) :
    (replace d t token).1 = token.refer d V := by
  cases token with
  | declaration body media =>
      rw [replace] at hkeeps ⊢
      cases hdef : t.define body.property body.value with
      | mk found t' =>
          rw [hdef] at hkeeps
          cases found with
          | none =>
              have hcov : isCovered body.property = false := by
                rcases t.define_cases body.property body.value with
                  ⟨hcov, _⟩ | ⟨_, _, _, hdef'⟩ | ⟨_, _, hdef'⟩
                · exact hcov
                · rw [hdef'] at hdef
                  exact absurd (Prod.mk.inj hdef).1 (by simp)
                · rw [hdef'] at hdef
                  exact absurd (Prod.mk.inj hdef).1 (by simp)
              simp [Token.refer, Declaration.refer, Declaration.name?, hcov]
          | some name =>
              have hanswer : (t.define body.property body.value).1 = some name := by rw [hdef]
              have hname : V.get? body.property body.value = some name := by
                apply hkeeps
                have hself := get?_define_self hanswer
                rwa [hdef] at hself
              simp [Token.refer, Declaration.refer, Declaration.name?,
                isCovered_of_define hanswer, hname]
  | _ => rfl

theorem replaceAll_stream (d : Dialect) (t : Variables) (tokens : List Token) :
    (replaceAll d t tokens).1 = tokens.map (Token.refer d (replaceAll d t tokens).2) := by
  induction tokens generalizing t with
  | nil => rfl
  | cons token rest ih =>
      have hhead : (replace d t token).1
          = token.refer d (replaceAll d (replace d t token).2 rest).2 :=
        replace_token d t _ token fun p v name h => get?_replaceAll h d rest
      rw [replaceAll, List.map_cons]
      exact congrArg₂ List.cons hhead (ih _)

/-- Every token of the rewritten stream refers to the finished table. -/
theorem extract_stream (d : Dialect) (tokens : List Token) :
    (extract d tokens).1 = tokens.map (Token.refer d (ofStream tokens)) := by
  have h := replaceAll_stream d empty tokens
  rwa [replaceAll_table] at h

/-! ## Declared names -/

/-- What is declared is the name of a value of some covered property. -/
theorem Sound.exists_get?_of_mem {V : Variables} (hV : Sound V) {value name : String}
    (h : (value, name) ∈ V.bindings) :
    ∃ property, isCovered property = true ∧ V.get? property value = some name := by
  rw [bindings_eq, List.mem_flatMap] at h
  obtain ⟨c, hc, hmem⟩ := h
  rw [hV.keys_eq] at hc
  obtain ⟨property, hproperty, rfl⟩ := List.mem_map.mp hc
  refine ⟨property, List.contains_iff_mem.mpr hproperty, ?_⟩
  unfold get?
  rw [OrderedMap.get?_eq_lookup]
  exact lookup_of_mem (V.values (category property)).nodup_keys hmem

end Variables

theorem Dialect.reference_inj {d : Dialect} {name name' : String}
    (h : d.reference name = d.reference name') : name = name' := by
  have hchars := congrArg String.toList h
  unfold Dialect.reference at hchars
  rw [String.toList_append, String.toList_append] at hchars
  exact String.toList_injective (List.append_cancel_left hchars)

/-- The declaration has a reference to `name` as its value of a covered property. -/
def Declaration.Uses (d : Dialect) (name : String) (body : Declaration) : Prop :=
  Variables.isCovered body.property = true ∧ body.value = d.reference name

namespace Variables

/-- A covered declaration of the stream has a name, and its rewritten form uses that name. -/
theorem exists_name {tokens : List Token} {body : Declaration} {media : List String}
    (h : .declaration body media ∈ tokens) (hcov : isCovered body.property = true) :
    ∃ name, body.name? (ofStream tokens) = some name := by
  have hrequest : (body.property, body.value) ∈ tokens.filterMap Token.request? :=
    List.mem_filterMap.mpr ⟨_, h, rfl⟩
  have hsome := ((names_ofStream tokens).named_iff _ _ hcov).mpr hrequest
  obtain ⟨name, hname⟩ := Option.isSome_iff_exists.mp hsome
  exact ⟨name, by rw [Declaration.name?, if_pos hcov, hname]⟩

/-- A name is declared exactly if some declaration of the rewritten stream uses it. -/
theorem declared_iff_uses (d : Dialect) (tokens : List Token) (name : String) :
    (∃ value, (value, name) ∈ (ofStream tokens).bindings)
      ↔ ∃ body media, .declaration body media ∈ (extract d tokens).1 ∧ body.Uses d name := by
  have hnames := names_ofStream tokens
  rw [extract_stream]
  constructor
  · rintro ⟨value, hvalue⟩
    obtain ⟨property, hcov, hget⟩ := hnames.sound.exists_get?_of_mem hvalue
    -- what has a name was asked for, and what asked for it is a declaration
    have hrequest := (hnames.named_iff property value hcov).mp (by rw [hget]; rfl)
    obtain ⟨token, htoken, hasks⟩ := List.mem_filterMap.mp hrequest
    cases token with
    | declaration body media =>
        obtain ⟨rfl, rfl⟩ := Prod.mk.inj (Option.some.inj hasks)
        have hname : body.name? (ofStream tokens) = some name := by
          rw [Declaration.name?, if_pos hcov, hget]
        refine ⟨body.refer d (ofStream tokens), media, List.mem_map.mpr ⟨_, htoken, rfl⟩, ?_⟩
        rw [Declaration.refer, hname]
        exact ⟨hcov, rfl⟩
    | _ => exact absurd hasks (by simp [Token.request?])
  · rintro ⟨body', media, hmem, hcov, hvalue⟩
    obtain ⟨token, htoken, hrefer⟩ := List.mem_map.mp hmem
    cases token with
    | declaration body queries =>
        obtain ⟨rfl, rfl⟩ := Token.declaration.inj hrefer
        have hproperty : (body.refer d (ofStream tokens)).property = body.property := by
          unfold Declaration.refer
          split <;> rfl
        rw [hproperty] at hcov
        obtain ⟨n, hn⟩ := exists_name htoken hcov
        rw [Declaration.refer, hn] at hvalue
        obtain rfl := Dialect.reference_inj hvalue
        rw [Declaration.name?, if_pos hcov] at hn
        exact ⟨body.value, mem_bindings_of_get? hn⟩
    | _ => exact absurd hrefer (by simp [Token.refer])

end Variables

/-! ## What is left out -/

/--
The token stands in a ruleset of the stream that has no selectors, or that is not closed before
the next one is opened or the stream ends.
-/
def Token.LeftOut (tokens : List Token) (t : Token) : Prop :=
  ∃ before selectors body after,
    tokens = before ++ .rulesetStart selectors :: (body ++ after)
      ∧ (∀ u ∈ body, u.isFence = false) ∧ t ∈ body
      ∧ (selectors = [] ∨ after = [] ∨ ∃ next rest, after = .rulesetStart next :: rest)

theorem Token.mem_behind_boundary {t u : Token} {rest : List Token} (hb : t.isBoundary = false)
    (hu : u.isBoundary = true) (h : t ∈ u :: rest) : t ∈ rest := by
  rcases List.mem_cons.mp h with rfl | h
  · rw [hu] at hb
    exact absurd hb (by simp)
  · exact h

namespace Rule

/-- The rule is open at the end of what was read, and holds nothing from outside it. -/
def OpenAt (read : List Token) (r : Rule) : Prop :=
  ∃ before body, read = before ++ .rulesetStart r.selectors :: body
    ∧ (∀ u ∈ body, u.isFence = false) ∧ ∀ t ∈ r.body, t ∈ body

/-- The token is kept outside rules, or in a rule that has selectors. -/
def Keeps (e : Extraction) (t : Token) : Prop :=
  t ∈ e.topLevel ∨ ∃ r ∈ e.rules, r.selectors ≠ [] ∧ t ∈ r.body

theorem Keeps.append_right {e f : Extraction} {t : Token} (h : Keeps f t) : Keeps (e ++ f) t := by
  rcases h with htop | ⟨r, hr, hkept⟩
  · exact .inl (List.mem_append_right _ htop)
  · exact .inr ⟨r, List.mem_append_right _ hr, hkept⟩

theorem OpenAt.concat {read : List Token} {r : Rule} (h : OpenAt read r) {t : Token}
    (hf : t.isFence = false) {body : List Token} (hbody : ∀ u ∈ body, u ∈ r.body ∨ u = t) :
    OpenAt (read ++ [t]) ⟨r.selectors, body⟩ := by
  obtain ⟨before, inner, rfl, hinner, hholds⟩ := h
  refine ⟨before, inner ++ [t], by simp, ?_, ?_⟩
  · simpa using fun u hu => hu.elim (hinner u) fun hut => hut ▸ hf
  · intro u hu
    rcases hbody u hu with hu | rfl
    · exact List.mem_append_left _ (hholds u hu)
    · simp

/-- What an open rule holds is left out if its ruleset is not closed or has no selectors. -/
theorem OpenAt.leftOut {read after : List Token} {r : Rule} (h : OpenAt read r) {t : Token}
    (ht : t ∈ r.body)
    (hafter : r.selectors = [] ∨ after = [] ∨ ∃ next rest, after = .rulesetStart next :: rest) :
    Token.LeftOut (read ++ after) t := by
  obtain ⟨before, inner, rfl, hinner, hholds⟩ := h
  exact ⟨before, r.selectors, inner, after, by simp, hinner, hholds t ht, hafter⟩

/--
A token that is still to come, or that the open rule holds, is kept or left out. `read` is the
part of the stream before the ones to come.
-/
theorem keeps_or_leftOut {tokens read : List Token} {opened : Option Rule}
    (hopened : ∀ r, opened = some r → OpenAt read r) {t : Token} (hb : t.isBoundary = false)
    (ht : t ∈ tokens ∨ ∃ r, opened = some r ∧ t ∈ r.body) :
    Keeps (extractFrom opened tokens) t ∨ Token.LeftOut (read ++ tokens) t := by
  induction tokens generalizing read opened with
  | nil =>
      rcases ht with ht | ⟨r, hr, ht⟩
      · exact absurd ht (by simp)
      · exact .inr ((hopened r hr).leftOut ht (.inr (.inl rfl)))
  | cons u rest ih =>
      have hnone : ∀ r, (none : Option Rule) = some r → OpenAt (read ++ [u]) r := by simp
      have hsplit : read ++ u :: rest = read ++ [u] ++ rest := by simp
      rcases u.fence_cases with ⟨selectors, rfl⟩ | rfl | ⟨hm, hbu, hf⟩ | ⟨hm, hbu, hf⟩
      · rcases ht with ht | ⟨r, hr, ht⟩
        · have hfresh : ∀ r, some (⟨selectors, []⟩ : Rule) = some r →
              OpenAt (read ++ [.rulesetStart selectors]) r := by
            intro r hr
            obtain rfl := Option.some.inj hr
            exact ⟨read, [], by simp, by simp, by simp⟩
          have hrest : t ∈ rest := Token.mem_behind_boundary hb rfl ht
          rw [extractFrom_rulesetStart, hsplit]
          exact (ih hfresh (.inl hrest)).imp_left Keeps.append_right
        · -- the open rule is thrown away here
          exact .inr ((hopened r hr).leftOut ht (.inr (.inr ⟨selectors, rest, rfl⟩)))
      · rcases ht with ht | ⟨r, hr, ht⟩
        · have hrest : t ∈ rest := Token.mem_behind_boundary hb rfl ht
          rw [hsplit]
          refine (ih hnone (.inl hrest)).imp_left ?_
          cases opened with
          | none => exact Keeps.append_right
          | some r => exact Keeps.append_right
        · by_cases hselectors : r.selectors = []
          · exact .inr ((hopened r hr).leftOut ht (.inl hselectors))
          · subst hr
            exact .inl (.inr ⟨r, List.mem_cons_self, hselectors, ht⟩)
      · have hkept : ∀ r, opened = some r → OpenAt (read ++ [u]) r := fun r hr =>
          (hopened r hr).concat hf fun _ hv => .inl hv
        rw [extractFrom_media hm, hsplit]
        exact ih hkept (ht.imp_left (Token.mem_behind_boundary hb hbu))
      · rw [hsplit]
        cases opened with
        | none =>
            rw [extractFrom_none_inner hbu]
            rcases ht with ht | ⟨r, hr, -⟩
            · rcases List.mem_cons.mp ht with rfl | ht
              · exact .inl (.inl List.mem_cons_self)
              · exact (ih hnone (.inl ht)).imp_left Keeps.append_right
            · exact absurd hr (by simp)
        | some r =>
            rw [extractFrom_some_inner hbu]
            have hgrown : ∀ r', some (⟨r.selectors, r.body ++ [u]⟩ : Rule) = some r' →
                OpenAt (read ++ [u]) r' := by
              intro r' hr'
              obtain rfl := Option.some.inj hr'
              exact (hopened r rfl).concat hf fun v hv => by simpa using hv
            refine ih hgrown ?_
            rcases ht with ht | ⟨r', hr', ht⟩
            · rcases List.mem_cons.mp ht with rfl | ht
              · exact .inr ⟨_, rfl, by simp⟩
              · exact .inl ht
            · obtain rfl := Option.some.inj hr'
              exact .inr ⟨_, rfl, List.mem_append_left _ ht⟩

/-- Extraction makes up no declarations. -/
theorem declaration_mem_of_extract {tokens : List Token} {body : Declaration}
    {queries : List String}
    (h : .declaration body queries ∈ (extract tokens).topLevel
      ∨ ∃ r ∈ (extract tokens).rules, .declaration body queries ∈ r.body) :
    .declaration body queries ∈ tokens := by
  -- a rule stands for the start of its ruleset, so boundaries are let through here
  have hall : ∀ t ∈ tokens, t ∈ tokens ∨ t.isBoundary = true := fun t ht => .inl ht
  have hfrom := extractFrom_forall hall (fun r (hr : none = some r) => absurd hr (by simp))
  rcases h with htop | ⟨r, hr, hbody⟩
  · exact (hfrom.1 _ htop).resolve_right (by simp [Token.isBoundary])
  · exact ((hfrom.2 r hr).2 _ hbody).resolve_right (by simp [Token.isBoundary])

/-- An origin has a token of the body, and the line of that token as its text. -/
theorem of_mem_originsFrom {selectors : List String} {body : List Token} {o : Origin}
    (h : o ∈ originsFrom selectors body) :
    o.token ∈ body ∧ o.place.text = o.token.line 0 := by
  induction body with
  | nil => exact absurd h (by simp [originsFrom])
  | cons token later ih =>
      rw [originsFrom, List.mem_append, List.mem_flatMap] at h
      rcases h with ⟨m, _, h⟩ | h
      · obtain ⟨selector, _, rfl⟩ := List.mem_map.mp h
        exact ⟨List.mem_cons_self, rfl⟩
      · obtain ⟨hmem, htext⟩ := ih h
        exact ⟨List.mem_cons_of_mem _ hmem, htext⟩

theorem declaration_mem_of_origin {tokens : List Token} {o : Origin} {body : Declaration}
    {queries : List String} (h : o ∈ (extract tokens).rules.flatMap origins)
    (htoken : o.token = .declaration body queries) : .declaration body queries ∈ tokens := by
  obtain ⟨r, hr, hor⟩ := List.mem_flatMap.mp h
  have hbody : o.token ∈ r.body := (of_mem_originsFrom hor).1
  rw [htoken] at hbody
  exact declaration_mem_of_extract (.inr ⟨r, hr, hbody⟩)

/-- A token with a place to go is the origin of some text. -/
theorem exists_originFrom {selectors : List String} (hselectors : selectors ≠ [])
    {body : List Token} {t : Token} (ht : t ∈ body) (hscopes : t.scopes ≠ []) :
    ∃ o ∈ originsFrom selectors body, o.token = t := by
  induction body with
  | nil => exact absurd ht (by simp)
  | cons token later ih =>
      rw [originsFrom]
      rcases List.mem_cons.mp ht with rfl | ht
      · obtain ⟨media, hmedia⟩ := List.exists_mem_of_ne_nil _ hscopes
        obtain ⟨selector, hselector⟩ := List.exists_mem_of_ne_nil _ hselectors
        refine ⟨_, List.mem_append_left _ (List.mem_flatMap.mpr ⟨media, hmedia,
          List.mem_map.mpr ⟨selector, hselector, rfl⟩⟩), rfl⟩
      · obtain ⟨o, ho, htoken⟩ := ih ht
        exact ⟨o, List.mem_append_right _ ho, htoken⟩

end Rule

theorem Token.scopes_declaration_ne_nil (body : Declaration) (media : List String) :
    (Token.declaration body media).scopes ≠ [] := by
  rw [scopes]
  split
  · simp
  · rename_i hmedia
    obtain ⟨m, hm⟩ := List.exists_mem_of_ne_nil media (by simpa using hmedia)
    exact List.ne_nil_of_mem (mem_distinct.mpr hm)

namespace Layout

/-- The variable block has a line for `name`. -/
def Declares (l : Layout) (name : String) : Prop :=
  ∃ table value, l.table = some table ∧ (value, name) ∈ table.bindings

/-- The declaration is written: on its own, or as a text at some place of the sheet. -/
def Writes (d : Dialect) (extracts : Bool) (tokens : List Token) (body : Declaration) : Prop :=
  (∃ queries, .declaration body queries ∈ (ofTokens d extracts tokens).topLevel)
    ∨ ∃ media path, ∃ o ∈ originsAt d extracts tokens media path,
        ∃ queries, o.token = .declaration body queries

/-- What is kept is written. -/
theorem writes_of_keeps {d : Dialect} {extracts : Bool} {tokens : List Token} {body : Declaration}
    {queries : List String}
    (h : Rule.Keeps (Rule.extract (prepare d extracts tokens).1) (.declaration body queries)) :
    Writes d extracts tokens body := by
  rcases h with htop | ⟨r, hr, hselectors, hbody⟩
  · exact .inl ⟨queries, htop⟩
  · obtain ⟨o, ho, htoken⟩ := Rule.exists_originFrom hselectors hbody
      (Token.scopes_declaration_ne_nil body queries)
    refine .inr ⟨o.place.media, Selector.path o.place.selector, o, ?_, queries, htoken⟩
    refine List.mem_filter.mpr ⟨List.mem_flatMap.mpr ⟨r, hr, ho⟩, ?_⟩
    simp [Origin.isAt, Occurrence.isAt, Placement.occurrence]

theorem Writes.mem_prepare {d : Dialect} {extracts : Bool} {tokens : List Token}
    {body : Declaration} (h : Writes d extracts tokens body) :
    ∃ queries, .declaration body queries ∈ (prepare d extracts tokens).1 := by
  rcases h with ⟨queries, htop⟩ | ⟨media, path, o, ho, queries, htoken⟩
  · exact ⟨queries, Rule.declaration_mem_of_extract (.inl htop)⟩
  · exact ⟨queries, Rule.declaration_mem_of_origin (List.mem_filter.mp ho).1 htoken⟩

theorem declares_iff (d : Dialect) (tokens : List Token) (name : String) :
    (ofTokens d true tokens).Declares name
      ↔ ∃ body media, .declaration body media ∈ (Variables.extract d tokens).1
          ∧ body.Uses d name := by
  rw [← Variables.declared_iff_uses, ← Variables.extract_table d tokens]
  constructor
  · rintro ⟨table, value, htable, hvalue⟩
    obtain rfl : (Variables.extract d tokens).2 = table := Option.some.inj htable
    exact ⟨value, hvalue⟩
  · rintro ⟨value, hvalue⟩
    exact ⟨_, value, rfl, hvalue⟩

/-- `a { color: red` with nothing behind it. -/
def openSample : List Token :=
  [.rulesetStart ["a"], .declaration ⟨"color", "red", false, true⟩ []]

end Layout

end CssNest
