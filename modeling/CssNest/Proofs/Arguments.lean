import CssNest.CommandLine
import Mathlib.Logic.Basic
import Mathlib.Tactic.SplitIfs

/-!
# The grammar of the command line

An argument means something only by its place: behind `--config` everything is a path, also
`--scss`, and elsewhere the same text is an option. The parser reads from the left, one or two
arguments at a time, and may stop at any of them.

The arguments that it accepts are described without it: they are groups written one after the
other, and exactly one group is an input. What they ask for can be seen from the groups as well,
and apart from the config paths, of which the last one counts, it does not hang on their order.
-/

namespace CssNest.CommandLine

/-! ## Groups of arguments -/

/-- An option without a value. -/
inductive Flag where
  | scss
  | noVariables
  | reformat
  | verbose
deriving DecidableEq, Repr

/-- How a flag is written. -/
def Flag.arg : Flag → String
  | scss => "--scss"
  | noVariables => "--no-variables"
  | reformat => "--reformat"
  | verbose => "--verbose"

/-- Arguments that belong together. -/
inductive Group where
  | flag (f : Flag)
  /-- A config file; its path may be any text. -/
  | config (path : String)
  /-- The input, which does not have the form of an option. -/
  | input (path : { text : String // isOption text = false })
deriving DecidableEq

namespace Group

/-- How a group is written. -/
def args : Group → List String
  | flag f => [f.arg]
  | config path => ["--config", path]
  | input path => [path.val]

/-- The path of a config file. -/
def config? : Group → Option String
  | config path => some path
  | _ => none

/-- The path of an input. -/
def input? : Group → Option String
  | input path => some path.val
  | _ => none

end Group

/-! ## Choices and the groups they come from -/

namespace Choices

/-- Whether a flag is on. -/
def has (c : Choices) : Flag → Bool
  | .scss => c.scss
  | .noVariables => c.noVariables
  | .reformat => c.reformat
  | .verbose => c.verbose

/-- The choices with a flag turned on. -/
def turnOn (c : Choices) : Flag → Choices
  | .scss => { c with scss := true }
  | .noVariables => { c with noVariables := true }
  | .reformat => { c with reformat := true }
  | .verbose => { c with verbose := true }

/-- The choices with one more group. -/
def add (c : Choices) : Group → Choices
  | .flag f => c.turnOn f
  | .config path => { c with configPath := some path }
  | .input path => { c with input := some path.val }

theorem has_turnOn (c : Choices) (f g : Flag) : (c.turnOn f).has g = (f == g || c.has g) := by
  cases f <;> cases g <;> rfl

theorem input_turnOn (c : Choices) (f : Flag) : (c.turnOn f).input = c.input := by
  cases f <;> rfl

theorem configPath_turnOn (c : Choices) (f : Flag) : (c.turnOn f).configPath = c.configPath := by
  cases f <;> rfl

/--
The choices after some groups: the input is among them, a flag is on if it is, and the last config
path counts.
-/
structure Follows (c : Choices) (groups : List Group) : Prop where
  input : groups.filterMap Group.input? = c.input.toList
  configPath : c.configPath = (groups.filterMap Group.config?).getLast?
  flags : ∀ f, c.has f = true ↔ Group.flag f ∈ groups

theorem follows_nil : Follows {} [] := by
  refine ⟨rfl, rfl, ?_⟩
  intro f
  cases f <;> simp [has]

/-- One more group is followed too, unless it is a second input. -/
theorem Follows.add {c : Choices} {read : List Group} (h : c.Follows read) {g : Group}
    (hg : g.input? = none ∨ c.input = none) : (c.add g).Follows (read ++ [g]) := by
  cases g with
  | flag f =>
      refine ⟨?_, ?_, ?_⟩
      · have hsame : (c.add (.flag f)).input = c.input := input_turnOn c f
        rw [List.filterMap_append, h.input, hsame]
        exact List.append_nil _
      · have hsame : (c.add (.flag f)).configPath = c.configPath := configPath_turnOn c f
        rw [List.filterMap_append, hsame, h.configPath]
        exact congrArg List.getLast? (List.append_nil _).symm
      · intro g
        rw [Choices.add, has_turnOn, Bool.or_eq_true, beq_iff_eq, h.flags, List.mem_append,
          List.mem_singleton, Group.flag.injEq, or_comm, @eq_comm _ f g]
  | config path =>
      refine ⟨?_, ?_, ?_⟩
      · rw [List.filterMap_append, h.input]
        exact List.append_nil _
      · rw [List.filterMap_append]
        exact List.getLast?_concat.symm
      · intro f
        have hsame : (c.add (.config path)).has f = c.has f := by cases f <;> rfl
        simp [hsame, h.flags]
  | input path =>
      have hnone : c.input = none := by simpa [Group.input?] using hg
      refine ⟨?_, ?_, ?_⟩
      · rw [List.filterMap_append, h.input, hnone]
        rfl
      · rw [List.filterMap_append]
        exact h.configPath.trans (congrArg List.getLast? (List.append_nil _).symm)
      · intro f
        have hsame : (c.add (.input path)).has f = c.has f := by cases f <;> rfl
        simp [hsame, h.flags]

/-- Groups leave no choice open. -/
theorem Follows.unique {c c' : Choices} {groups : List Group} (h : c.Follows groups)
    (h' : c'.Follows groups) : c = c' := by
  have hinput : c.input = c'.input := by
    have htoList : c.input.toList = c'.input.toList := h.input.symm.trans h'.input
    simpa using congrArg List.head? htoList
  have hconfig : c.configPath = c'.configPath := h.configPath.trans h'.configPath.symm
  have hflags : ∀ f, c.has f = c'.has f := by
    intro f
    rw [Bool.eq_iff_iff, h.flags, h'.flags]
  cases c
  cases c'
  have hscss := hflags .scss
  have hvariables := hflags .noVariables
  have hreformat := hflags .reformat
  have hverbose := hflags .verbose
  simp only [has] at hscss hvariables hreformat hverbose
  simp_all

end Choices

/-- Options are choices with an input. -/
def Options.choices (o : Options) : Choices where
  input := some o.input
  configPath := o.configPath
  scss := o.scss
  noVariables := o.noVariables
  reformat := o.reformat
  verbose := o.verbose

theorem Choices.complete_eq_ok_iff {c : Choices} {o : Options} :
    c.complete = .ok o ↔ c = o.choices := by
  constructor
  · intro h
    unfold Choices.complete at h
    split at h
    · rename_i input hinput
      cases h
      cases c
      cases hinput
      rfl
    · exact absurd h (by simp)
  · rintro rfl
    rfl

theorem Choices.Follows.complete_iff {c : Choices} {read : List Group} (h : c.Follows read)
    (o : Options) : c.complete = .ok o ↔ o.choices.Follows read := by
  rw [Choices.complete_eq_ok_iff]
  constructor
  · rintro rfl
    exact h
  · intro ho
    exact h.unique ho

/-! ## One step of the parser -/

theorem isOption_flag (f : Flag) : isOption f.arg = true := by
  cases f <;> decide +kernel

/-- An argument is read as a flag exactly if it is written like one. -/
theorem Choices.withFlag?_eq_some_iff {c c' : Choices} {arg : String} :
    c.withFlag? arg = some c' ↔ ∃ f : Flag, arg = f.arg ∧ c' = c.turnOn f := by
  constructor
  · intro h
    unfold Choices.withFlag? at h
    split_ifs at h with hscss hvariables hreformat hverbose
    · exact ⟨.scss, beq_iff_eq.mp hscss, (Option.some.inj h).symm⟩
    · exact ⟨.noVariables, beq_iff_eq.mp hvariables, (Option.some.inj h).symm⟩
    · exact ⟨.reformat, beq_iff_eq.mp hreformat, (Option.some.inj h).symm⟩
    · exact ⟨.verbose, beq_iff_eq.mp hverbose, (Option.some.inj h).symm⟩
  · rintro ⟨f, rfl, rfl⟩
    cases f <;> rfl

theorem Choices.withFlag?_eq_none (c : Choices) {arg : String} (h : ∀ f : Flag, arg ≠ f.arg) :
    c.withFlag? arg = none := by
  rw [Option.eq_none_iff_forall_ne_some]
  intro c' hc'
  obtain ⟨f, hf, -⟩ := withFlag?_eq_some_iff.mp hc'
  exact h f hf

/-- The parser reads one group, or stops at a second input. -/
theorem parseFrom_group (c : Choices) (g : Group) (rest : List String) :
    parseFrom c (g.args ++ rest)
      = if g.input?.isSome && c.input.isSome then .error .wrongUse
        else parseFrom (c.add g) rest := by
  cases g with
  | flag f =>
      have hflag : c.withFlag? f.arg = some (c.turnOn f) :=
        Choices.withFlag?_eq_some_iff.mpr ⟨f, rfl, rfl⟩
      rw [Group.args, List.singleton_append, parseFrom.eq_def]
      simp [hflag, Group.input?, Choices.add]
  | config path =>
      have hnone : c.withFlag? "--config" = none :=
        c.withFlag?_eq_none (by intro f; cases f <;> decide +kernel)
      rw [Group.args, List.cons_append, parseFrom.eq_def]
      simp [hnone, Group.input?, Choices.add]
  | input path =>
      have hnone : c.withFlag? path.val = none := by
        refine c.withFlag?_eq_none fun f hf => ?_
        have hoption := path.property
        rw [hf, isOption_flag] at hoption
        exact absurd hoption (by simp)
      have hconfig : (path.val == "--config") = false := by
        rw [beq_eq_false_iff_ne]
        intro heq
        have hoption := path.property
        rw [heq] at hoption
        exact absurd hoption (by decide +kernel)
      rw [Group.args, List.singleton_append, parseFrom.eq_def]
      simp [hnone, hconfig, path.property, Group.input?, Choices.add]

/-! ## Runs of the parser -/

/-- Over groups, the parser gives what they ask for, and nothing if it is not complete. -/
theorem Choices.Follows.parseFrom_eq_ok_iff {c : Choices} {read : List Group} (h : c.Follows read)
    (groups : List Group) (o : Options) :
    parseFrom c (groups.flatMap Group.args) = .ok o ↔ o.choices.Follows (read ++ groups) := by
  induction groups generalizing c read with
  | nil =>
      rw [List.append_nil]
      exact h.complete_iff o
  | cons g groups ih =>
      rw [List.flatMap_cons, parseFrom_group]
      split
      · rename_i hsecond
        rw [Bool.and_eq_true, Option.isSome_iff_exists, Option.isSome_iff_exists] at hsecond
        obtain ⟨⟨second, hg⟩, ⟨first, hc⟩⟩ := hsecond
        -- two inputs were read, and there is room for one
        refine iff_of_false (by simp) ?_
        intro ho
        have hinputs := ho.input
        rw [List.filterMap_append, h.input, hc, List.filterMap_cons_some hg] at hinputs
        exact absurd hinputs (by simp [Options.choices])
      · rename_i hfirst
        have hroom : g.input? = none ∨ c.input = none := by
          simpa [Option.isSome_iff_ne_none, or_iff_not_imp_left] using hfirst
        rw [ih (h.add hroom), List.append_assoc]
        rfl

/-- Arguments that are accepted are groups. -/
theorem exists_groups_of_parseFrom {c : Choices} {args : List String} {o : Options}
    (h : parseFrom c args = .ok o) : ∃ groups : List Group, groups.flatMap Group.args = args := by
  fun_induction parseFrom c args with
  | case1 c => exact ⟨[], rfl⟩
  | case2 c arg rest c' hflag ih =>
      obtain ⟨f, rfl, -⟩ := Choices.withFlag?_eq_some_iff.mp hflag
      obtain ⟨groups, rfl⟩ := ih h
      exact ⟨.flag f :: groups, rfl⟩
  | case3 c arg _ hconfig path rest ih =>
      obtain rfl := beq_iff_eq.mp hconfig
      obtain ⟨groups, rfl⟩ := ih h
      exact ⟨.config path :: groups, rfl⟩
  | case7 c arg rest _ _ hoption _ ih =>
      obtain ⟨groups, rfl⟩ := ih h
      exact ⟨.input ⟨arg, by simpa using hoption⟩ :: groups, rfl⟩
  | case4 => exact absurd h (by simp)
  | case5 => exact absurd h (by simp)
  | case6 => exact absurd h (by simp)

theorem parse_groups_eq_ok_iff (groups : List Group) (o : Options) :
    parse (groups.flatMap Group.args) = .ok o ↔ o.choices.Follows groups :=
  Choices.follows_nil.parseFrom_eq_ok_iff groups o

theorem parse_eq_ok_iff {args : List String} {o : Options} :
    parse args = .ok o
      ↔ ∃ groups : List Group, groups.flatMap Group.args = args ∧ o.choices.Follows groups := by
  constructor
  · intro h
    obtain ⟨groups, rfl⟩ := exists_groups_of_parseFrom h
    exact ⟨groups, rfl, (parse_groups_eq_ok_iff groups o).mp h⟩
  · rintro ⟨groups, rfl, ho⟩
    exact (parse_groups_eq_ok_iff groups o).mpr ho

/-- Choices do not depend on the order of the groups, apart from the config paths. -/
theorem Choices.Follows.of_perm {c : Choices} {groups groups' : List Group}
    (hperm : groups.Perm groups')
    (hconfig : groups.filterMap Group.config? = groups'.filterMap Group.config?)
    (h : c.Follows groups) : c.Follows groups' := by
  refine ⟨?_, ?_, ?_⟩
  · have hinputs := hperm.filterMap Group.input?
    rw [h.input] at hinputs
    cases hc : c.input with
    | none =>
        rw [hc] at hinputs
        exact hinputs.nil_eq.symm
    | some path =>
        rw [hc] at hinputs
        exact List.singleton_perm.mp hinputs |>.symm
  · rw [h.configPath, hconfig]
  · intro f
    rw [h.flags, hperm.mem_iff]

theorem toOption_eq_some_iff {α ε : Type} {e : Except ε α} {a : α} :
    e.toOption = some a ↔ e = .ok a := by
  cases e <;> simp [Except.toOption]

/-- The same groups in another order are accepted too, and ask for the same. -/
theorem toOption_parse_perm {groups groups' : List Group} (hperm : groups.Perm groups')
    (hconfig : groups.filterMap Group.config? = groups'.filterMap Group.config?) :
    (parse (groups.flatMap Group.args)).toOption
      = (parse (groups'.flatMap Group.args)).toOption := by
  refine Option.ext fun o => ?_
  rw [toOption_eq_some_iff, toOption_eq_some_iff, parse_groups_eq_ok_iff, parse_groups_eq_ok_iff]
  constructor
  · intro h
    exact h.of_perm hperm hconfig
  · intro h
    exact h.of_perm hperm.symm hconfig.symm

/-! ## The grammar -/

/--
**The parser accepts exactly its grammar.** Arguments are accepted exactly if they are groups,
written one after the other, of which exactly one is an input. It is the input of the options, a
flag is on if it is one of the groups, and the config path is the last one given. So the settings
that come from the options, or the failure to load them, are the same for every order of the
groups in which the config paths keep theirs.
-/
theorem parse_accepts_groups :
    (∀ (args : List String) (o : Options),
      parse args = .ok o ↔ ∃ groups : List Group, groups.flatMap Group.args = args
        ∧ groups.filterMap Group.input? = [o.input]
        ∧ o.configPath = (groups.filterMap Group.config?).getLast?
        ∧ (o.scss = true ↔ .flag .scss ∈ groups)
        ∧ (o.noVariables = true ↔ .flag .noVariables ∈ groups)
        ∧ (o.reformat = true ↔ .flag .reformat ∈ groups)
        ∧ (o.verbose = true ↔ .flag .verbose ∈ groups))
      ∧ ∀ (groups groups' : List Group) (files : Files), groups.Perm groups' →
        groups.filterMap Group.config? = groups'.filterMap Group.config? →
        (parse (groups.flatMap Group.args)).toOption.map (·.settings files)
          = (parse (groups'.flatMap Group.args)).toOption.map (·.settings files) := by
  constructor
  · intro args o
    rw [parse_eq_ok_iff]
    constructor
    · rintro ⟨groups, hargs, h⟩
      exact ⟨groups, hargs, h.input, h.configPath, h.flags .scss, h.flags .noVariables,
        h.flags .reformat, h.flags .verbose⟩
    · rintro ⟨groups, hargs, hinput, hconfig, hscss, hvariables, hreformat, hverbose⟩
      refine ⟨groups, hargs, hinput, hconfig, ?_⟩
      intro f
      cases f with
      | scss => exact hscss
      | noVariables => exact hvariables
      | reformat => exact hreformat
      | verbose => exact hverbose
  · intro groups groups' files hperm hconfig
    rw [toOption_parse_perm hperm hconfig]

/-- Behind `--config` a flag is a path. -/
example : (parse ["--config", "--scss", "a.css", "--config", "b.json"]).toOption
    = some ⟨"a.css", some "b.json", false, false, false, false⟩ := by decide +kernel

end CssNest.CommandLine
