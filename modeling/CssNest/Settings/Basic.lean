import CssNest.Dialect
import CssNest.Failure
import CssNest.Log
import CssNest.Settings.Json

/-!
# Settings

The choices for one conversion. They come from JSON: an object with named fields, or
an array that gives them by position. A field that is left out keeps its default, a
field given twice is refused, and unknown fields are ignored.
-/

namespace CssNest

/-- The choices for one conversion. -/
structure Settings where
  dialect : Dialect := .less
  /-- Whether colour and font values become variables. -/
  extractVariables : Bool := true
  /-- Whether the result is reformatted. -/
  reformat : Bool := false
  /-- The name of the threshold for log records. -/
  logLevel : String := "warn"
deriving DecidableEq, Repr

namespace Settings

/-- The threshold that the log level names; a name that is not known means `warn`. -/
def threshold (s : Settings) : Threshold := (Threshold.ofName? s.logLevel).getD (some .warn)

/-- The fields, in the order of the array form. -/
inductive Field where
  | dialect
  | extractVariables
  | reformat
  | logLevel
deriving DecidableEq, Repr

namespace Field

/-- The name of a field in the object form. -/
def name : Field → String
  | dialect => "dialect"
  | extractVariables => "extractVariables"
  | reformat => "reformat"
  | logLevel => "logLevel"

/-- The fields by position. -/
def all : List Field := [dialect, extractVariables, reformat, logLevel]

/-- The field with a given name. -/
def ofName? (name : String) : Option Field := all.find? fun f => f.name == name

end Field

/-- A dialect is its name, or an object with its name as the only key and null as value. -/
def dialect? : Json → Option Dialect
  | .string (some name) => Dialect.ofName? name
  | .object [(some name, .null)] => Dialect.ofName? name
  | _ => none

/-- A truth value. -/
def bool? : Json → Option Bool
  | .bool b => some b
  | _ => none

/-- A text. -/
def text? : Json → Option String
  | .string text => text
  | _ => none

/-- The settings with one field taken from a value of the right kind. -/
def set? (s : Settings) (f : Field) (v : Json) : Option Settings :=
  match f with
  | .dialect => (dialect? v).map fun d => { s with dialect := d }
  | .extractVariables => (bool? v).map fun b => { s with extractVariables := b }
  | .reformat => (bool? v).map fun b => { s with reformat := b }
  | .logLevel => (text? v).map fun t => { s with logLevel := t }

/-- Settings from the members of an object; `seen` are the fields given so far. -/
def ofMembers? (s : Settings) (seen : List Field) :
    List (Option String × Json) → Option Settings
  | [] => some s
  | (none, _) :: _ => none
  | (some key, v) :: rest =>
    match Field.ofName? key with
    | none => ofMembers? s seen rest
    | some f => if seen.contains f then none else do
      let s ← s.set? f v
      ofMembers? s (f :: seen) rest

/-- Settings from the items of an array, one for each field from the first on. -/
def ofItems? (s : Settings) : List Field → List Json → Option Settings
  | _, [] => some s
  | [], _ :: _ => none
  | f :: fields, v :: rest => do
    let s ← s.set? f v
    ofItems? s fields rest

/-- Settings from a JSON value. -/
def ofJson? : Json → Option Settings
  | .object members => ofMembers? {} [] members
  | .array items => ofItems? {} Field.all items
  | _ => none

/-- Settings from JSON text. -/
def ofText (text : String) : Except Failure Settings :=
  match (Json.ofString? text).bind ofJson? with
  | some s => .ok s
  | none => .error (.json "Failed to parse converter config")

/-- How the dialect is shown in a record about the settings. -/
def dialectWord : Dialect → String
  | .less => "Less"
  | .scss => "Scss"

/-- The settings as shown in a record. -/
def shown (s : Settings) : String :=
  "ConverterConfig \x7b dialect: " ++ dialectWord s.dialect ++ ", extract_variables: "
    ++ toString s.extractVariables ++ ", reformat: " ++ toString s.reformat ++ ", log_level: "
    ++ Text.quoted s.logLevel ++ " \x7d"

end Settings

end CssNest
