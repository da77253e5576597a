/-!
# Log records

What the library has to say about its input beside its result is a list of records,
returned as a value. Only the command line decides which of them are written.
-/

namespace CssNest

/-- How much a record matters. -/
inductive Level where
  | error
  | warn
  | info
  | debug
  | trace
deriving DecidableEq, Repr

namespace Level

/-- Smaller numbers matter more. -/
def rank : Level → Nat
  | error => 1
  | warn => 2
  | info => 3
  | debug => 4
  | trace => 5

/-- The name of a level in a written record. -/
def name : Level → String
  | error => "ERROR"
  | warn => "WARN"
  | info => "INFO"
  | debug => "DEBUG"
  | trace => "TRACE"

end Level

/-- The least important level that is still written; `none` writes nothing. -/
abbrev Threshold := Option Level

namespace Threshold

/-- The numbers of the levels, with zero for writing nothing. -/
def rank : Threshold → Nat
  | none => 0
  | some level => level.rank

/-- The name of a threshold. -/
def name : Threshold → String
  | none => "OFF"
  | some level => level.name

/-- Every threshold. -/
def all : List Threshold :=
  [none, some .error, some .warn, some .info, some .debug, some .trace]

/-- The threshold with the given name, in any mix of ASCII upper and lower case. -/
def ofName? (text : String) : Option Threshold :=
  all.find? fun t => t.name == text.map Char.toUpper

end Threshold

/-- One thing said about the input. -/
structure Record where
  level : Level
  message : String
deriving DecidableEq, Repr

namespace Record

/-- The record as `LEVEL message`. -/
def text (r : Record) : String := r.level.name ++ " " ++ r.message

/-- Whether a record is written at a threshold. -/
def passes (r : Record) (t : Threshold) : Bool := r.level.rank ≤ t.rank

/-- A record at level `warn`. -/
def warn (message : String) : Record := ⟨.warn, message⟩

/-- A record at level `debug`. -/
def debug (message : String) : Record := ⟨.debug, message⟩

end Record

/-- A result with the records made on the way, in order. -/
structure Logged (α : Type) where
  value : α
  records : List Record

namespace Logged

instance : Monad Logged where
  pure a := ⟨a, []⟩
  bind x f := ⟨(f x.value).value, x.records ++ (f x.value).records⟩

/-- No result but one record. -/
def note (r : Record) : Logged Unit := ⟨(), [r]⟩

end Logged

end CssNest
