import CssNest.Proofs.Block

/-!
# Nothing is lost on the way into a sheet

The rules of a stylesheet name, one after the other, a list of places with a text for
each: `Rule.written`. The sheet puts the texts into nested blocks, where texts of one
place come together and different places move apart. So the sheet lists the same texts,
in another order. At any one place, though, the order is the one in which they were
written.

The proof follows one place at a time. Placing a text adds it at the end of its own place
and leaves the texts of all others alone (`textsAt_place`), and reading the sheet from top
to bottom meets the texts of a place in their order (`filter_walk`).
-/

namespace CssNest

/-- A text at a place of the stylesheet: under a media type, at a path of segments. -/
structure Occurrence where
  media : String
  path : List String
  text : String
deriving DecidableEq, Repr

namespace Occurrence

/-- Whether the text stands under `media` at `path`. -/
def isAt (media : String) (path : List String) (o : Occurrence) : Bool :=
  o.media == media && o.path == path

end Occurrence

/-! ## What rules say -/

/-- The media types of a token in a rule, each once, at its first occurrence. -/
def Token.mediaTypes : Token → List String
  | .declaration _ [] => ["all"]
  | .declaration _ media => media.eraseDups
  | _ => ["all"]

/-- Whether the token is a comment. -/
def Token.isComment : Token → Bool
  | .comment _ => true
  | _ => false

/-- What a rule writes where: by token, then by media type, then by selector. -/
def Rule.written (r : Rule) : List Occurrence :=
  (r.body.filter fun token => !token.isComment).flatMap fun token =>
    token.mediaTypes.flatMap fun media =>
      r.selectors.map fun selector => ⟨media, Selector.path selector, token.line 0⟩

/-- A placement as the place that it names. -/
def Placement.occurrence (a : Placement) : Occurrence := ⟨a.media, Selector.path a.selector, a.text⟩

theorem Token.scopes_eq_mediaTypes {t : Token} (h : t.isComment = false) :
    t.scopes = t.mediaTypes := by
  cases t with
  | comment text => exact absurd h (by simp [isComment])
  | declaration body media =>
      cases media with
      | nil => rfl
      | cons m media =>
          rw [scopes, if_neg (by simp), distinct_eq_eraseDups]
          rfl
  | _ => rfl

/-- The placements of a rule are what it writes. -/
theorem Rule.map_placements (r : Rule) : r.placements.map Placement.occurrence = r.written := by
  obtain ⟨selectors, body⟩ := r
  unfold placements written
  dsimp only
  induction body with
  | nil => rfl
  | cons token body ih =>
      rw [List.flatMap_cons, List.map_append, ih, List.filter_cons]
      cases hc : token.isComment with
      | true =>
          cases token with
          | comment text => rfl
          | _ => exact absurd hc (by simp [Token.isComment])
      | false =>
          rw [if_pos (by rfl), List.flatMap_cons, Token.scopes_eq_mediaTypes hc,
            List.map_flatMap]
          simp only [List.map_map]
          rfl

namespace Sheet

/-! ## The two readings of a sheet -/

/-- Every rule text with its place, in the order in which they are written out. -/
def walk (s : Sheet) : List Occurrence :=
  s.media.toList.flatMap fun e => e.2.walk.map fun q => ⟨e.1, q.1, q.2⟩

/-- The rule texts under a media type at a path. -/
def textsAt (s : Sheet) (media : String) (path : List String) : List String :=
  ((s.block? media).map fun b => b.textsAt path).getD []

/-- Every block of the sheet is well formed. -/
def WellFormed (s : Sheet) : Prop := ∀ e ∈ s.media.toList, e.2.WellFormed

theorem wellFormed_empty : WellFormed empty := by
  intro e he
  exact absurd he (by simp [empty])

/-- Placing a text keeps the blocks well formed. -/
theorem WellFormed.place {s : Sheet} (h : WellFormed s) (a : Placement) :
    WellFormed (s.place a) := by
  unfold WellFormed Sheet.place
  rw [OrderedMap.toList_update]
  exact forall_mem_upsert h Block.wellFormed_empty fun _ hb =>
    hb.modifyAt (fun _ hc => hc.addRule a.text) _

/-- Placing a text adds it at the end of its own place and nowhere else. -/
theorem textsAt_place (s : Sheet) (a : Placement) (media : String) (path : List String) :
    (s.place a).textsAt media path
      = if a.occurrence.isAt media path then s.textsAt media path ++ [a.text]
        else s.textsAt media path := by
  unfold textsAt block? place
  rw [OrderedMap.get?_eq_lookup, OrderedMap.toList_update, lookup_upsert,
    OrderedMap.get?_eq_lookup]
  unfold Occurrence.isAt Placement.occurrence
  by_cases hm : media = a.media
  · subst hm
    rw [if_pos (by simp), Option.map_some, Option.getD_some, Block.textsAt_modifyAt_addRule]
    by_cases hp : path = Selector.path a.selector
    · subst hp
      cases s.media.toList.lookup a.media <;> simp
    · have hp' : (Selector.path a.selector == path) = false := beq_false_of_ne fun h => hp h.symm
      cases s.media.toList.lookup a.media <;> simp [hp, hp']
  · have hm' : (a.media == media) = false := beq_false_of_ne fun h => hm h.symm
    rw [if_neg (by simpa using hm)]
    simp [hm']

/-- Picking a place out of the sheet gives the rule texts there. -/
theorem WellFormed.filter_walk {s : Sheet} (h : WellFormed s) (media : String)
    (path : List String) :
    s.walk.filter (Occurrence.isAt media path)
      = (s.textsAt media path).map fun text => ⟨media, path, text⟩ := by
  have hnd : (s.media.toList.map Prod.fst).Nodup := s.media.nodup_keys
  unfold walk textsAt block?
  rw [filter_flatMap_bindings hnd (fun m q => Occurrence.mk m q.1 q.2) Block.walk media
    (Q := fun q => q.1 == path) (fun _ _ => rfl), OrderedMap.get?_eq_lookup]
  cases hb : s.media.toList.lookup media with
  | none => rfl
  | some b =>
      rw [Option.map_some, Option.getD_some, (h _ (mem_of_lookup hb)).filter_walk path,
        List.map_map]
      rfl

/-! ## A whole run of placements -/

theorem wellFormed_placeAll {s : Sheet} (h : WellFormed s) (as : List Placement) :
    WellFormed (s.placeAll as) := by
  unfold placeAll
  induction as generalizing s with
  | nil => exact h
  | cons a as ih => exact ih (h.place a)

/-- After a run each place has the texts it had, then those placed there, in order. -/
theorem textsAt_placeAll (s : Sheet) (as : List Placement) (media : String)
    (path : List String) :
    (s.placeAll as).textsAt media path = s.textsAt media path
      ++ ((as.map Placement.occurrence).filter (Occurrence.isAt media path)).map
        Occurrence.text := by
  unfold placeAll
  induction as generalizing s with
  | nil => simp
  | cons a as ih =>
      rw [List.foldl_cons, ih, textsAt_place, List.map_cons, List.filter_cons]
      split
      · rw [List.map_cons, List.append_assoc]
        rfl
      · rfl

theorem textsAt_empty (media : String) (path : List String) : empty.textsAt media path = [] := by
  unfold textsAt block?
  rw [OrderedMap.get?_eq_lookup]
  rfl

/-- A run on the empty sheet has at each place what was placed there, in order. -/
theorem filter_walk_placeAll (as : List Placement) (media : String) (path : List String) :
    (empty.placeAll as).walk.filter (Occurrence.isAt media path)
      = (as.map Placement.occurrence).filter (Occurrence.isAt media path) := by
  rw [(wellFormed_placeAll wellFormed_empty _).filter_walk, textsAt_placeAll, textsAt_empty,
    List.nil_append, List.map_map]
  -- what is left is to put back the place that was asked for
  conv_rhs => rw [← List.map_id ((as.map Placement.occurrence).filter _)]
  apply List.map_congr_left
  intro o ho
  have hat := (List.mem_filter.mp ho).2
  unfold Occurrence.isAt at hat
  rw [Bool.and_eq_true, beq_iff_eq, beq_iff_eq] at hat
  obtain ⟨rfl, rfl⟩ := hat
  rfl

/-- A run on the empty sheet leaves what was placed, in another order. -/
theorem walk_placeAll_perm (as : List Placement) :
    (empty.placeAll as).walk.Perm (as.map Placement.occurrence) := by
  rw [List.perm_iff_count]
  intro o
  have hself : o.isAt o.media o.path = true := by simp [Occurrence.isAt]
  rw [← List.count_filter (l := (empty.placeAll as).walk) hself, filter_walk_placeAll,
    List.count_filter hself]

/-- The sheet of some rules has at each place what the rules write there, in their order. -/
theorem filter_walk_ofRules (rules : List Rule) (media : String) (path : List String) :
    (ofRules rules).walk.filter (Occurrence.isAt media path)
      = (rules.flatMap Rule.written).filter (Occurrence.isAt media path) := by
  have hwritten : (rules.flatMap Rule.placements).map Placement.occurrence
      = rules.flatMap Rule.written := by
    rw [List.map_flatMap]
    congr 1
    funext r
    exact r.map_placements
  unfold ofRules
  rw [filter_walk_placeAll, hwritten]

end Sheet

end CssNest
