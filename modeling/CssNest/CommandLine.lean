import CssNest.Convert
import CssNest.File

/-!
# The command line

What the program does with its arguments, as a function from the files that it can read
to what it writes.
-/

namespace CssNest.CommandLine

/-- What the arguments ask for. -/
structure Options where
  input : String
  configPath : Option String
  scss : Bool
  noVariables : Bool
  reformat : Bool
  verbose : Bool
deriving DecidableEq, Repr

/-- Why arguments are refused. -/
inductive Refusal where
  | unknownOption (option : String)
  /-- There is no input, more than one, or no path after `--config`. -/
  | wrongUse
deriving DecidableEq, Repr

/-- What the arguments read so far ask for. -/
structure Choices where
  input : Option String := none
  configPath : Option String := none
  scss : Bool := false
  noVariables : Bool := false
  reformat : Bool := false
  verbose : Bool := false
deriving DecidableEq, Repr

/-- Choices are complete when there is an input. -/
def Choices.complete (c : Choices) : Except Refusal Options :=
  match c.input with
  | some input => .ok
    { input
      configPath := c.configPath
      scss := c.scss
      noVariables := c.noVariables
      reformat := c.reformat
      verbose := c.verbose }
  | none => .error .wrongUse

/-- Whether an argument has the form of an option. -/
def isOption (arg : String) : Bool := "--".toList.isPrefixOf arg.toList

/-- The choices after an option without a value; nothing for any other argument. -/
def Choices.withFlag? (c : Choices) (arg : String) : Option Choices :=
  if arg == "--scss" then some { c with scss := true }
  else if arg == "--no-variables" then some { c with noVariables := true }
  else if arg == "--reformat" then some { c with reformat := true }
  else if arg == "--verbose" then some { c with verbose := true }
  else none

/-- Reads arguments from the left. The last of several config paths counts. -/
def parseFrom (c : Choices) : List String → Except Refusal Options
  | [] => c.complete
  | arg :: rest =>
    match c.withFlag? arg with
    | some c => parseFrom c rest
    | none =>
      if arg == "--config" then
        match rest with
        | path :: rest => parseFrom { c with configPath := some path } rest
        | [] => .error .wrongUse
      else if isOption arg then .error (.unknownOption arg)
      else if c.input.isSome then .error .wrongUse
      else parseFrom { c with input := some arg } rest

/-- What some arguments ask for. -/
def parse (args : List String) : Except Refusal Options := parseFrom {} args

/-- How the program is called, as lines. -/
def usage (program : String) : List String :=
  [ "Usage: " ++ program ++ " [--scss] [--no-variables] [--reformat] [--config <file.json>] "
      ++ "[--verbose] <input.css>",
    "  --scss           Emit SCSS instead of LESS",
    "  --no-variables   Keep color and font values inline",
    "  --reformat       Pretty-print the result with malva",
    "  --config <file>  Load options from a JSON config file",
    "  --verbose        Log debug information to stderr",
    "Example: " ++ program ++ " styles.css > styles.less" ]

/-- Options on the command line win over those of the config file. -/
def Options.override (o : Options) (s : Settings) : Settings :=
  { dialect := if o.scss then .scss else s.dialect
    extractVariables := s.extractVariables && !o.noVariables
    reformat := s.reformat || o.reformat
    logLevel := if o.verbose then "debug" else s.logLevel }

/-- The settings that some options ask for. -/
def Options.settings (o : Options) (files : Files) : Except Failure Settings := do
  let base ← match o.configPath with
    | some path => Settings.load files path
    | none => pure {}
  return o.override base

/-- A line for the user beside the result. -/
inductive Notice where
  | plain (line : String)
  | record (r : Record)
deriving DecidableEq, Repr

/-- The line of a notice, without the time of a record. -/
def Notice.line : Notice → String
  | plain line => line
  | record r => "[" ++ r.level.name ++ "] " ++ r.message

/-- What a run of the program does. -/
structure Outcome where
  exitCode : Nat
  output : String
  notices : List Notice
deriving DecidableEq, Repr

/-- A run that ends before there is anything to convert. -/
def Outcome.refused (lines : List String) : Outcome := ⟨1, "", lines.map .plain⟩

/-- Reads the input and converts it. -/
def convertInput (files : Files) (o : Options) (s : Settings) : Logged (Except Failure String) :=
  match files.read "" o.input with
  | .ok css => convert s css
  | .error failure => pure (.error failure)

/-- The run for some options. Records below the threshold are left out. -/
def runWith (files : Files) (o : Options) (s : Settings) : Outcome :=
  let shown (rs : List Record) : List Notice := (rs.filter (·.passes s.threshold)).map .record
  let first : List Record :=
    [⟨.info, "Converting " ++ o.input ++ " to " ++ s.dialect.extension⟩,
      .debug ("Using config: " ++ s.shown)]
  let result := convertInput files o s
  match result.value with
  | .ok output => ⟨0, output, shown (first ++ result.records)⟩
  | .error failure =>
    let message := "Conversion failed: " ++ failure.message
    -- a failure is always told, also when no records are written
    let told := if s.threshold.rank < Level.error.rank then [.plain message] else []
    ⟨1, "", shown (first ++ result.records ++ [⟨.error, message⟩]) ++ told⟩

/-- What the program does with its arguments. -/
def run (program : String) (files : Files) (args : List String) : Outcome :=
  match parse args with
  | .error (.unknownOption option) =>
    .refused (("Unknown option: " ++ option) :: usage program)
  | .error .wrongUse => .refused (usage program)
  | .ok options =>
    match options.settings files with
    | .error failure => .refused ["Failed to load config: " ++ failure.message]
    | .ok settings => runWith files options settings

end CssNest.CommandLine
