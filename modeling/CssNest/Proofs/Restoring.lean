import CssNest.Proofs.Usage

/-!
# Undoing the extraction of variables

Extraction walks over a stream once and fills its table on the way, so what it writes for one
token hangs on all the tokens before it. Read from the end it is simple. The table is a list of
what the stream has to say on each covered property, every value once and where it first
occurs, and the numbers are the positions in that list. A reference has one name, a name has one
value, so the table gives back every value that was taken out, even one that looked like a
reference itself.

Nothing of what is written for a token depends on what comes later, because numbers once given
out are never changed.
-/

namespace CssNest

/-- The value that a token gives to a property. -/
def Token.valueFor? (property : String) : Token → Option String
  | .declaration body _ => if body.property == property then some body.value else none
  | _ => none

/-- Whether the token is a declaration whose value becomes a variable. -/
def Token.isExtracted : Token → Bool
  | .declaration body _ => Variables.isCovered body.property
  | _ => false

theorem Token.refer_of_not_extracted {token : Token} (h : token.isExtracted = false) (d : Dialect)
    (t : Variables) : token.refer d t = token := by
  cases token with
  | declaration body media =>
      have hname : body.name? t = none := if_neg (by simpa [isExtracted] using h)
      rw [refer, Declaration.refer, hname]
  | _ => rfl

namespace Variables

/-- The values that a stream gives to a property, each once, where it first occurs. -/
def valuesOf (property : String) (tokens : List Token) : List String :=
  (tokens.filterMap (Token.valueFor? property)).eraseDups

/-- What a reference stands for: the value whose name it has, or itself if there is none. -/
def resolve (d : Dialect) (t : Variables) (reference : String) : String :=
  match t.bindings.find? fun b => d.reference b.2 == reference with
  | some b => b.1
  | none => reference

/-- The token with the value that its reference stands for. -/
def restore (d : Dialect) (t : Variables) : Token → Token
  | .declaration body media =>
    if isCovered body.property then
      .declaration { body with value := t.resolve d body.value } media
    else .declaration body media
  | token => token

/-! ## The table as a list of values -/

/-- A call for a covered property adds its value to the category of that property only. -/
theorem keys_values_define (t : Variables) {p : String} (hp : isCovered p = true)
    (property value : String) :
    ((t.define property value).2.values (category p)).keys
      = if property == p then pushNew (t.values (category p)).keys value
        else (t.values (category p)).keys := by
  rcases t.define_cases property value with
    ⟨hcov, hdef⟩ | ⟨name, hcov, hget, hdef⟩ | ⟨hcov, hnone, hdef⟩
  · have hne : property ≠ p := by
      rintro rfl
      rw [hp] at hcov
      exact absurd hcov (by simp)
    rw [hdef, if_neg (by simpa using hne)]
  · rw [hdef]
    split
    · rename_i hsame
      rw [beq_iff_eq] at hsame
      subst hsame
      -- what has a name is already among the values
      obtain ⟨k, hk⟩ := exists_place_of_get? hget
      have hmem : value ∈ (t.values (category property)).keys :=
        List.mem_map.mpr ⟨_, List.mem_of_getElem? hk, rfl⟩
      rw [pushNew_of_mem hmem]
    · rfl
  · rw [hdef, values_add]
    by_cases hsame : property = p
    · subst hsame
      have hnew : value ∉ (t.values (category property)).keys := by
        intro hmem
        obtain ⟨e, he, rfl⟩ := List.mem_map.mp hmem
        unfold get? at hnone
        rw [OrderedMap.get?_eq_lookup, lookup_of_mem (OrderedMap.nodup_keys _) he] at hnone
        exact absurd hnone (by simp)
      rw [if_pos (by simp), if_pos (by simp), pushNew_of_notMem hnew, OrderedMap.keys,
        toList_insert_of_get?_none hnone, List.map_append]
      rfl
    · have hcat : category p ≠ category property := fun h => hsame (category_inj hcov hp h.symm)
      rw [if_neg (by simpa using hcat), if_neg (by simpa using hsame)]

theorem keys_values_defineAll (t : Variables) {p : String} (hp : isCovered p = true)
    (tokens : List Token) :
    ((t.defineAll (tokens.filterMap Token.request?)).2.values (category p)).keys
      = (tokens.filterMap (Token.valueFor? p)).foldl pushNew (t.values (category p)).keys := by
  induction tokens generalizing t with
  | nil => rfl
  | cons token rest ih =>
      cases token with
      | declaration body media =>
          have hstep := t.keys_values_define hp body.property body.value
          rw [List.filterMap_cons_some (show Token.request? (.declaration body media) = _ from rfl),
            defineAll, ih, hstep]
          by_cases hsame : body.property = p
          · have hvalue : Token.valueFor? p (.declaration body media) = some body.value := by
              rw [Token.valueFor?, if_pos (by simpa using hsame)]
            rw [List.filterMap_cons_some hvalue, if_pos (by simpa using hsame), List.foldl_cons]
          · have hvalue : Token.valueFor? p (.declaration body media) = none := by
              rw [Token.valueFor?, if_neg (by simpa using hsame)]
            rw [List.filterMap_cons_none hvalue, if_neg (by simpa using hsame)]
      | _ => exact ih t

theorem keys_values_ofStream (tokens : List Token) {p : String} (hp : isCovered p = true) :
    ((ofStream tokens).values (category p)).keys = valuesOf p tokens := by
  have hempty : (empty.values (category p)).keys = [] := by
    rw [OrderedMap.keys, toList_values_empty]
    rfl
  rw [ofStream, keys_values_defineAll empty hp, hempty, valuesOf, ← distinct_eq_eraseDups]
  rfl

/-- In a sound table the position of a value is its number. -/
theorem Sound.toList_values {t : Variables} (h : Sound t) (c : String) :
    (t.values c).toList
      = (t.values c).keys.mapIdx fun i value => (value, numbered c (i + 1)) := by
  apply List.ext_getElem?
  intro i
  rw [List.getElem?_mapIdx, OrderedMap.keys, List.getElem?_map]
  cases hi : (t.values c).toList[i]? with
  | none => rfl
  | some e =>
      obtain ⟨value, name⟩ := e
      rw [h.name_eq hi]
      rfl

/-- The table that a stream leaves, category by category. -/
theorem toList_ofStream (tokens : List Token) :
    (ofStream tokens).toList
      = properties.map fun p => (category p,
          (valuesOf p tokens).mapIdx fun i value => (value, numbered (category p) (i + 1))) := by
  have hsound := (names_ofStream tokens).sound
  have hkeys : (ofStream tokens).toList
      = (ofStream tokens).categories.keys.map fun c =>
          (c, ((ofStream tokens).values c).toList) := by
    rw [toList, OrderedMap.keys, List.map_map]
    apply List.map_congr_left
    intro e he
    rw [Function.comp_apply, values_of_mem he]
  rw [hkeys, hsound.keys_eq, List.map_map]
  apply List.map_congr_left
  intro p hp
  rw [Function.comp_apply, hsound.toList_values,
    keys_values_ofStream tokens (List.contains_iff_mem.mpr hp)]

/-! ## There and back -/

/-- A reference to the name of a value stands for that value. -/
theorem Sound.resolve_reference {t : Variables} (h : Sound t) (d : Dialect)
    {property value name : String} (hget : t.get? property value = some name) :
    t.resolve d (d.reference name) = value := by
  have hsame : (fun b : String × String => d.reference b.2 == d.reference name)
      = fun b => b.2 == name := by
    funext b
    rw [Bool.eq_iff_iff, beq_iff_eq, beq_iff_eq]
    exact ⟨Dialect.reference_inj, fun hb => by rw [hb]⟩
  have hfind : (t.bindings.find? fun b => b.2 == name) = some (value, name) := by
    rw [← List.head?_filter, h.filter_bindings hget]
    rfl
  rw [resolve, hsame, hfind]

theorem restore_refer (d : Dialect) {tokens : List Token} {token : Token} (h : token ∈ tokens) :
    restore d (ofStream tokens) (token.refer d (ofStream tokens)) = token := by
  cases token with
  | declaration body media =>
      rw [Token.refer, Declaration.refer]
      by_cases hcov : isCovered body.property = true
      · obtain ⟨name, hname⟩ := exists_name h hcov
        have hget := hname
        rw [Declaration.name?, if_pos hcov] at hget
        rw [hname, restore, if_pos hcov, (names_ofStream tokens).sound.resolve_reference d hget]
      · have hname : body.name? (ofStream tokens) = none := if_neg hcov
        rw [hname, restore, if_neg hcov]
  | _ => rfl

/-- The start of a stream is rewritten as it would be on its own. -/
theorem replaceAll_append (d : Dialect) (t : Variables) (xs ys : List Token) :
    (replaceAll d t (xs ++ ys)).1
      = (replaceAll d t xs).1 ++ (replaceAll d (replaceAll d t xs).2 ys).1 := by
  induction xs generalizing t with
  | nil => rfl
  | cons x xs ih =>
      rw [List.cons_append, replaceAll, replaceAll, List.cons_append]
      exact congrArg _ (ih _)

theorem length_extract (d : Dialect) (tokens : List Token) :
    (extract d tokens).1.length = tokens.length := by
  rw [extract_stream, List.length_map]

/--
**The extraction of variables can be undone.** For any stream:

* the rewritten stream has as many tokens;
* a token stays as it is unless it is a declaration of a covered property; then its value, and
  nothing else, becomes a reference to the name that the table has for it;
* the table lists for each category the values that the stream gives to its property, every one
  where it first occurs and with its position as its number;
* no name stands for two values, and with the values that the references stand for the rewritten
  stream is the one that was given;
* a part at the start of the stream is rewritten as if nothing came behind it.
-/
theorem extract_restores (d : Dialect) (tokens : List Token) :
    let rewritten : List Token := (extract d tokens).1
    let table : Variables := (extract d tokens).2
    rewritten.length = tokens.length
      ∧ (∀ (i : Nat) (token : Token), tokens[i]? = some token → token.isExtracted = false →
          rewritten[i]? = some token)
      ∧ (∀ (i : Nat) (body : Declaration) (media : List String),
          tokens[i]? = some (.declaration body media) → isCovered body.property = true →
          ∃ name, table.get? body.property body.value = some name
            ∧ rewritten[i]? = some
                (.declaration { body with value := String.ofList [d.sigil] ++ name } media))
      ∧ table.toList = properties.map (fun p => (category p,
          (valuesOf p tokens).mapIdx fun i value =>
            (value, category p ++ "_" ++ toString (i + 1))))
      ∧ (table.bindings.map Prod.snd).Nodup
      ∧ rewritten.map (restore d table) = tokens
      ∧ ∀ xs ys, tokens = xs ++ ys → rewritten.take xs.length = (extract d xs).1 := by
  intro rewritten table
  have hstream : rewritten = tokens.map (Token.refer d (ofStream tokens)) := extract_stream d tokens
  have htable : table = ofStream tokens := extract_table d tokens
  have hat : ∀ (i : Nat) (token : Token), tokens[i]? = some token →
      rewritten[i]? = some (token.refer d (ofStream tokens)) := by
    intro i token hi
    rw [hstream, List.getElem?_map, hi]
    rfl
  refine ⟨length_extract d tokens, ?_, ?_, ?_, ?_, ?_, ?_⟩
  · intro i token hi hplain
    rw [hat i token hi, Token.refer_of_not_extracted hplain]
  · intro i body media hi hcov
    obtain ⟨name, hname⟩ := exists_name (List.mem_of_getElem? hi) hcov
    refine ⟨name, ?_, ?_⟩
    · rw [htable]
      rwa [Declaration.name?, if_pos hcov] at hname
    · rw [hat i _ hi, Token.refer, Declaration.refer, hname]
      rfl
  · rw [htable]
    exact toList_ofStream tokens
  · rw [htable]
    exact (names_ofStream tokens).sound.nodup_names
  · rw [htable, hstream, List.map_map]
    refine (List.map_congr_left ?_).trans (List.map_id _)
    intro token htoken
    exact restore_refer d htoken
  · rintro xs ys rfl
    have happend : rewritten = (extract d xs).1 ++ (replaceAll d (extract d xs).2 ys).1 :=
      replaceAll_append d empty xs ys
    rw [happend, ← length_extract d xs, List.take_left]

end Variables

end CssNest
