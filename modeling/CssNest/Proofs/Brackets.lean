import CssNest.Proofs.Scans

/-!
# Brackets that are torn apart

The argument of a pseudo-class may be a selector of its own, with spaces, combinators and
pseudo-classes in it. It should stay in one segment. The scans do not agree on that: the one for
sibling combinators counts brackets, the one for pseudo-classes has a flag that the first closing
bracket clears, and those for child combinators and for segments know nothing of brackets. So
`a:not(.b .c)` is split inside its brackets, and the two segments have half of them each.

It takes a blank, a `>` or a colon behind a closing bracket, inside brackets, and nothing else does
it. The proof follows the blanks that stand inside brackets, `BlankFree`, through the scans: the
last one splits there, and the others leave them, or make them, in exactly these places.
-/

namespace CssNest.Selector

open Text

/-! ## Nested brackets -/

/--
The closing brackets that are owed behind `c`, the next one first; `none` if `c` closes what is
not open.
-/
def owedAfter (owed : List Char) (c : Char) : Option (List Char) :=
  if c == '(' then some (')' :: owed)
  else if c == '[' then some (']' :: owed)
  else if c == ')' || c == ']' then
    match owed with
    | [] => none
    | due :: rest => if due == c then some rest else none
  else some owed

/-- The closing brackets that are owed behind a text. -/
def owedBehind (owed : List Char) (cs : List Char) : Option (List Char) := cs.foldlM owedAfter owed

/-- Brackets are balanced and properly nested. -/
def WellBracketed (cs : List Char) : Prop := owedBehind [] cs = some []

instance (cs : List Char) : Decidable (WellBracketed cs) :=
  decEq (owedBehind [] cs) (some [])

/-- All that a character can do to what is owed. -/
theorem owedAfter_cases {owed owed' : List Char} {c : Char} (h : owedAfter owed c = some owed') :
    (isBracket c = false ∧ owed' = owed)
      ∨ ((c = '(' ∨ c = '[') ∧ ∃ due, owed' = due :: owed)
      ∨ ((c = ')' ∨ c = ']') ∧ owed = c :: owed') := by
  unfold owedAfter at h
  split_ifs at h with hround hsquare hclose
  · exact .inr (.inl ⟨.inl (by simpa using hround), _, (Option.some.inj h).symm⟩)
  · exact .inr (.inl ⟨.inr (by simpa using hsquare), _, (Option.some.inj h).symm⟩)
  · right; right
    refine ⟨by simpa using hclose, ?_⟩
    cases owed with
    | nil => exact absurd h (by simp)
    | cons due rest =>
        dsimp only at h
        split at h
        · rename_i hdue
          rw [beq_iff_eq] at hdue
          rw [hdue, Option.some.inj h]
        · exact absurd h (by simp)
  · left
    refine ⟨?_, (Option.some.inj h).symm⟩
    simp_all [isBracket]

theorem owedAfter_plain {c : Char} (h : isBracket c = false) (owed : List Char) :
    owedAfter owed c = some owed := by
  obtain ⟨h1, h2, h3, h4⟩ := isBracket_eq_false_iff.mp h
  simp [owedAfter, h1, h2, h3, h4]

theorem owedBehind_nil_ne (owed : List Char) : owedBehind owed [] ≠ some [] ↔ owed ≠ [] := by
  rw [ne_eq, ne_eq, not_iff_not]
  exact Option.some_inj

theorem owedBehind_cons {owed owed' : List Char} {c : Char} (h : owedAfter owed c = some owed')
    (cs : List Char) : owedBehind owed (c :: cs) = owedBehind owed' cs := by
  rw [owedBehind, List.foldlM_cons, h]
  rfl

theorem exists_owedAfter {owed final : List Char} {c : Char} {cs : List Char}
    (h : owedBehind owed (c :: cs) = some final) :
    ∃ owed', owedAfter owed c = some owed' ∧ owedBehind owed' cs = some final := by
  cases hc : owedAfter owed c with
  | none =>
      rw [owedBehind, List.foldlM_cons, hc] at h
      exact absurd h (by simp)
  | some owed' =>
      rw [owedBehind_cons hc] at h
      exact ⟨owed', rfl, h⟩

theorem owedBehind_append {owed owed' : List Char} {xs : List Char}
    (h : owedBehind owed xs = some owed') (ys : List Char) :
    owedBehind owed (xs ++ ys) = owedBehind owed' ys := by
  rw [owedBehind, List.foldlM_append]
  rw [owedBehind] at h
  rw [h]
  rfl

/-- Only brackets count. -/
theorem owedBehind_filter (owed cs : List Char) :
    owedBehind owed (cs.filter isBracket) = owedBehind owed cs := by
  induction cs generalizing owed with
  | nil => rfl
  | cons c cs ih =>
      cases hc : isBracket c with
      | false =>
          rw [List.filter_cons_of_neg (by simp [hc]), owedBehind_cons (owedAfter_plain hc owed), ih]
      | true =>
          rw [List.filter_cons_of_pos hc]
          cases howed : owedAfter owed c with
          | none =>
              rw [owedBehind, owedBehind, List.foldlM_cons, List.foldlM_cons, howed]
              rfl
          | some owed' => rw [owedBehind_cons howed, owedBehind_cons howed, ih]

/-! ## Blanks in brackets -/

/-- Where brackets are open there is no blank. -/
def BlankFree (owed cs : List Char) : Prop :=
  Everywhere (fun before c => owedBehind owed before ≠ some [] → isBlank c = false) cs

theorem blankFree_cons {owed owed' : List Char} {c : Char} (h : owedAfter owed c = some owed')
    (cs : List Char) :
    BlankFree owed (c :: cs) ↔ (owed ≠ [] → isBlank c = false) ∧ BlankFree owed' cs := by
  rw [BlankFree, everywhere_cons, owedBehind_nil_ne]
  simp only [owedBehind_cons h]
  rfl

/-- A segment that was begun has all its brackets exactly if none is owed behind it. -/
theorem forall_finish_iff {owed current : List Char} (h : Begun none current)
    (hread : owedBehind [] current.reverse = some owed) :
    (∀ segment ∈ finish current, WellBracketed segment) ↔ owed = [] := by
  rw [h.finish_eq]
  cases current with
  | nil =>
      have hnone : owed = [] := (Option.some.inj hread).symm
      simp [hnone]
  | cons c current =>
      rw [if_neg (by simp), List.forall_mem_singleton, WellBracketed, hread, Option.some_inj]

/-- The last scan tears brackets apart exactly if there is a blank in them. -/
theorem forall_segmentsFrom_iff {owed current cs : List Char} (hq : ∀ c ∈ cs, isQuote c = false)
    (h : Begun none current) (hread : owedBehind [] current.reverse = some owed)
    (hrest : owedBehind owed cs = some []) :
    (∀ segment ∈ segmentsFrom none current cs, WellBracketed segment) ↔ BlankFree owed cs := by
  induction cs generalizing owed current with
  | nil =>
      have hnone : owed = [] := Option.some.inj hrest
      exact iff_of_true ((forall_finish_iff h hread).mpr hnone) (everywhere_nil _)
  | cons c cs ih =>
      rw [List.forall_mem_cons] at hq
      obtain ⟨owed', howed, hrest'⟩ := exists_owedAfter hrest
      rw [blankFree_cons howed]
      cases hblank : isBlank c with
      | true =>
          have hplain : isBracket c = false := (plain_of_isBlank hblank).2.1
          obtain rfl : owed = owed' := by
            rw [owedAfter_plain hplain] at howed
            exact Option.some.inj howed
          rw [segmentsFrom_blank hblank, List.forall_mem_append, forall_finish_iff h hread]
          -- behind a blank outside brackets the next segment starts with nothing owed
          have hnext : owed = [] → ((∀ segment ∈ segmentsFrom none [] cs, WellBracketed segment)
              ↔ BlankFree owed cs) := by
            rintro rfl
            exact ih hq.2 begun_nil rfl hrest'
          constructor
          · rintro ⟨hnone, hlater⟩
            exact ⟨fun hopen => absurd hnone hopen, (hnext hnone).mp hlater⟩
          · rintro ⟨hclosed, hlater⟩
            have hnone : owed = [] := by
              by_contra hopen
              exact absurd (hclosed hopen) (by simp)
            exact ⟨hnone, (hnext hnone).mpr hlater⟩
      | false =>
          have hafter : Quote.after none c = none := Quote.after_of_not_isQuote (by simp) hq.1
          have hbegun : Begun none (c :: current) := by
            have hcons := h.cons (show (isBlank c && Option.isNone none) = false by simp [hblank])
            rwa [hafter] at hcons
          have hread' : owedBehind [] (c :: current).reverse = some owed' := by
            rw [List.reverse_cons, owedBehind_append hread, owedBehind_cons howed]
            rfl
          rw [segmentsFrom_char (by simp [hblank]), hafter, ih hq.2 hbegun hread' hrest']
          simp

/-- The third scan drops spaces outside brackets only. -/
theorem blankFree_markCombinatorsFrom {owed cs : List Char} (hq : ∀ c ∈ cs, isQuote c = false)
    (hrest : owedBehind owed cs = some []) {skip : Bool} (hskip : skip = true → owed = []) :
    BlankFree owed (markCombinatorsFrom attaching none owed.length skip cs)
      ↔ BlankFree owed cs := by
  induction cs generalizing owed skip with
  | nil => exact Iff.rfl
  | cons c cs ih =>
      rw [List.forall_mem_cons] at hq
      obtain ⟨owed', howed, hrest'⟩ := exists_owedAfter hrest
      rw [blankFree_cons howed]
      rcases owedAfter_cases howed with ⟨hplain, rfl⟩ | ⟨hopen, due, rfl⟩ | ⟨hclose, rfl⟩
      · by_cases hdrop : c = ' ' ∧ skip = true
        · obtain ⟨rfl, rfl⟩ := hdrop
          rw [markCombinatorsFrom_skip, ih hq.2 hrest' hskip]
          simp [hskip]
        · by_cases hmark : owed' = [] ∧ c ∈ attaching
          · obtain ⟨hnone, hmem⟩ := hmark
            have hmarked : markCombinatorsFrom attaching none owed'.length skip (c :: cs)
                = '&' :: c :: markCombinatorsFrom attaching none owed'.length true cs := by
              rw [hnone]
              exact markCombinatorsFrom_attaching hmem skip cs
            rw [hmarked, blankFree_cons (owedAfter_plain rfl _), blankFree_cons howed,
              ih hq.2 hrest' fun _ => hnone]
            simp [hnone]
          · rw [markCombinatorsFrom_plain hq.1 hplain
                (fun hzero hmem => hmark ⟨List.length_eq_zero_iff.mp hzero, hmem⟩)
                (fun hs he => hdrop ⟨he, hs⟩),
              blankFree_cons howed, ih hq.2 hrest' (by simp)]
      · have hkept : markCombinatorsFrom attaching none owed.length skip (c :: cs)
            = c :: markCombinatorsFrom attaching none (due :: owed).length false cs := by
          rcases hopen with rfl | rfl <;> rfl
        rw [hkept, blankFree_cons howed, ih hq.2 hrest' (by simp)]
      · have hkept : markCombinatorsFrom attaching none (c :: owed').length skip (c :: cs)
            = c :: markCombinatorsFrom attaching none owed'.length false cs := by
          rcases hclose with rfl | rfl <;> rfl
        rw [hkept, blankFree_cons howed, ih hq.2 hrest' (by simp)]

/-! ## Where the first two scans make blanks -/

/--
In brackets there is nothing that makes a blank: no blank, no `>`, and no colon where the flag of
the second scan, which starts as `nested`, is down.
-/
def Untorn (owed : List Char) (nested : Bool) (cs : List Char) : Prop :=
  Everywhere (fun before c => owedBehind owed before ≠ some [] →
    isBlank c = false ∧ c ≠ '>' ∧ (c = ':' → before.foldl nestedAfter nested = true)) cs

theorem untorn_cons {owed owed' : List Char} {c : Char} (h : owedAfter owed c = some owed')
    (nested : Bool) (cs : List Char) :
    Untorn owed nested (c :: cs)
      ↔ (owed ≠ [] → isBlank c = false ∧ c ≠ '>' ∧ (c = ':' → nested = true))
        ∧ Untorn owed' (nestedAfter nested c) cs := by
  rw [Untorn, everywhere_cons, owedBehind_nil_ne]
  simp only [owedBehind_cons h]
  rfl

theorem untorn_afterChild (nested : Bool) (rest : List Char) :
    Untorn [] nested (afterChild rest) ↔ Untorn [] nested rest := by
  unfold afterChild
  split
  · rw [untorn_cons (owedAfter_plain rfl []), nestedAfter_plain rfl]
    simp
  · rfl

theorem owedBehind_afterChild (owed rest : List Char) :
    owedBehind owed (afterChild rest) = owedBehind owed rest := by
  unfold afterChild
  split
  · exact (owedBehind_cons (owedAfter_plain rfl owed) _).symm
  · rfl

theorem blankFree_markPseudoFrom {owed cs : List Char} (hrest : owedBehind owed cs = some [])
    (nested : Bool) {marked : Bool} (hmarked : marked = true → owed = []) :
    BlankFree owed (markPseudoFrom nested marked (normalizeChild cs)) ↔ Untorn owed nested cs := by
  induction cs using child_induction generalizing owed nested marked with
  | nil => exact iff_of_true (everywhere_nil _) (everywhere_nil _)
  | child rest ih =>
      have hspace : owedAfter owed ' ' = some owed := owedAfter_plain rfl owed
      have hchild : owedAfter owed '>' = some owed := owedAfter_plain rfl owed
      rw [normalizeChild_child, markPseudoFrom_child, blankFree_cons hspace, blankFree_cons hchild,
        untorn_cons hchild]
      by_cases hopen : owed = []
      · subst hopen
        rw [owedBehind_cons hchild, ← owedBehind_afterChild] at hrest
        rw [ih hrest nested (by simp), untorn_afterChild, nestedAfter_plain rfl]
        simp
      · -- a `>` in brackets gets a space before it
        exact iff_of_false (fun h => absurd (h.1 hopen) (by decide))
          (fun h => absurd (h.1 hopen).2.1 (by simp))
  | char c rest hc ih =>
      obtain ⟨owed', howed, hrest'⟩ := exists_owedAfter hrest
      rw [normalizeChild_char hc, untorn_cons howed]
      by_cases hcolon : c = ':'
      · subst hcolon
        obtain rfl : owed = owed' := by
          rw [owedAfter_plain rfl] at howed
          exact Option.some.inj howed
        rw [markPseudoFrom_colon, nestedAfter_plain rfl]
        split
        · rename_i hkept
          have hfirst : owed ≠ [] → nested = true := by
            intro hopen
            have hunmarked : marked = false := by simpa using mt hmarked hopen
            simpa [hunmarked] using hkept
          rw [blankFree_cons howed, ih hrest' nested (by simp)]
          refine and_congr_left' (iff_of_true (fun _ => rfl) fun hopen => ?_)
          exact ⟨rfl, by decide, fun _ => hfirst hopen⟩
        · rename_i hnew
          obtain ⟨rfl, rfl⟩ : nested = false ∧ marked = false := by simpa using hnew
          rw [blankFree_cons (owedAfter_plain rfl owed), blankFree_cons (owedAfter_plain rfl owed),
            blankFree_cons howed]
          by_cases hopen : owed = []
          · rw [ih hrest' false fun _ => hopen]
            simp [hopen]
          · exact iff_of_false (fun h => absurd (h.1 hopen) (by decide))
              (fun h => absurd ((h.1 hopen).2.2 rfl) (by simp))
      · rw [markPseudoFrom_char hcolon, blankFree_cons howed, ih hrest' _ (by simp)]
        simp [hc, hcolon]

/-! ## Segments and brackets -/

/-- `:not(.b .c)` is split at the space in its brackets. -/
theorem brackets_torn_apart :
    ¬ ∀ s : String, (∀ c ∈ s.toList, isQuote c = false) → WellBracketed s.toList →
      ∀ segment ∈ path s, WellBracketed segment.toList := by
  intro h
  have hquotes : ("a:not(.b .c)".toList.all fun c => !isQuote c) = true := by decide +kernel
  have hsegment : "&:not(.b" ∈ path "a:not(.b .c)" := by decide +kernel
  exact absurd (h "a:not(.b .c)" (by simpa using hquotes) (by decide +kernel) _ hsegment)
    (by decide +kernel)

/--
**Where brackets stay whole.** Let the brackets of a selector without quotes be balanced and
properly nested. Then those of every segment of its path are so too exactly if inside brackets,
that is, behind a part of the selector in which brackets are left open, there is no blank, no `>`,
and no colon whose last bracket before it is a closing one.
-/
theorem path_wellBracketed_iff {s : String} (hquotes : ∀ c ∈ s.toList, isQuote c = false)
    (hs : WellBracketed s.toList) :
    (∀ segment ∈ path s, WellBracketed segment.toList)
      ↔ Everywhere (fun before c => ¬ WellBracketed before →
          isBlank c = false ∧ c ≠ '>' ∧ (c = ':' → endsOpening before = true)) s.toList := by
  have hspace : isQuote ' ' = false := rfl
  have hmark : isQuote '&' = false := rfl
  have hquotes₁ : ∀ c ∈ markPseudo (normalizeChild s.toList), isQuote c = false :=
    forall_mem_markPseudoFrom hspace hmark (forall_mem_normalizeChild hspace hquotes) false false
  have hquotes₂ : ∀ c ∈ markCombinators attaching (markPseudo (normalizeChild s.toList)),
      isQuote c = false :=
    forall_mem_markCombinatorsFrom hspace hmark hquotes₁ attaching none 0 false
  have hfilter : (markPseudo (normalizeChild s.toList)).filter isBracket
      = s.toList.filter isBracket := by
    rw [markPseudo, filter_markPseudoFrom rfl rfl, filter_normalizeChild rfl]
  have howed₁ : owedBehind [] (markPseudo (normalizeChild s.toList)) = some [] := by
    rw [← owedBehind_filter, hfilter, owedBehind_filter]
    exact hs
  have howed₂ : owedBehind [] (markCombinators attaching (markPseudo (normalizeChild s.toList)))
      = some [] := by
    rw [← owedBehind_filter, markCombinators, filter_markCombinatorsFrom rfl rfl,
      owedBehind_filter]
    exact howed₁
  calc (∀ segment ∈ path s, WellBracketed segment.toList)
      ↔ ∀ segment ∈ pathChars s.toList, WellBracketed segment := by simp [path]
    _ ↔ BlankFree [] (markCombinators attaching (markPseudo (normalizeChild s.toList))) :=
        forall_segmentsFrom_iff hquotes₂ begun_nil rfl howed₂
    _ ↔ BlankFree [] (markPseudo (normalizeChild s.toList)) :=
        blankFree_markCombinatorsFrom hquotes₁ howed₁ (by simp)
    _ ↔ Untorn [] false s.toList := blankFree_markPseudoFrom hs false (by simp)
    _ ↔ _ := by simp only [Untorn, foldl_nestedAfter, WellBracketed, ne_eq]

/-- Brackets in brackets, with a colon right behind an opening one. -/
theorem path_wellBracketed_sample :
    (∀ c ∈ "a:is(:not([b])):hover > d".toList, isQuote c = false)
      ∧ WellBracketed "a:is(:not([b])):hover > d".toList
      ∧ "&:is(:not([b]))" ∈ path "a:is(:not([b])):hover > d"
      ∧ ∀ segment ∈ path "a:is(:not([b])):hover > d", WellBracketed segment.toList := by
  have hquotes : ∀ c ∈ "a:is(:not([b])):hover > d".toList, isQuote c = false := by
    have hall : ("a:is(:not([b])):hover > d".toList.all fun c => !isQuote c) = true := by
      decide +kernel
    simpa using hall
  have hbrackets : WellBracketed "a:is(:not([b])):hover > d".toList := by decide +kernel
  refine ⟨hquotes, hbrackets, by decide +kernel, ?_⟩
  exact (path_wellBracketed_iff hquotes hbrackets).mpr (by decide +kernel)

end CssNest.Selector
