import CssNest.OrderedMap

/-!
# Variables

The values of colour and font properties are pulled out into variables. Each such
property has a category, and the values of a category are numbered in the order in
which they are first met, so one value of a property always has the same name.
-/

namespace CssNest

/-- The variables of a stylesheet: for each category its values with their names. -/
structure Variables where
  categories : OrderedMap String (OrderedMap String String)

namespace Variables

/-- The properties whose values become variables, in the order of their categories. -/
def properties : List String :=
  ["color", "font-family", "background-color", "border-color", "border-top-color",
    "border-right-color", "border-bottom-color", "border-left-color", "outline-color"]

/-- Whether the values of a property become variables. -/
def isCovered (property : String) : Bool := properties.contains property

/-- The category of a property: dashes become underscores. -/
def category (property : String) : String :=
  property.map fun c => if c == '-' then '_' else c

/-- The table with every category and no variable. -/
def empty : Variables :=
  ⟨.ofList (properties.map fun property => (category property, .empty))⟩

instance : BEq Variables := ⟨fun a b => a.categories == b.categories⟩

/-- The values of a category with their names. -/
def values (t : Variables) (category : String) : OrderedMap String String :=
  (t.categories.get? category).getD .empty

/-- The name that a value of a property has. -/
def get? (t : Variables) (property value : String) : Option String :=
  (t.values (category property)).get? value

/-- The name of the `n`th variable of a category. -/
def numbered (category : String) (n : Nat) : String := category ++ "_" ++ toString n

/--
The name of a value of a property, with the table that has it: a value not met before
gets the next number of its category. Values of other properties have no names.
-/
def define (t : Variables) (property value : String) : Option String × Variables :=
  if isCovered property then
    let group := category property
    match (t.values group).get? value with
    | some name => (some name, t)
    | none =>
      let name := numbered group ((t.values group).size + 1)
      (some name, ⟨t.categories.update group .empty fun vs => (vs.insert value name).2⟩)
  else (none, t)

/-- The categories in order, each with its values and names in order. -/
def toList (t : Variables) : List (String × List (String × String)) :=
  t.categories.toList.map fun c => (c.1, c.2.toList)

/-- Every value with its name, in the order in which they are declared. -/
def bindings (t : Variables) : List (String × String) := t.toList.flatMap Prod.snd

/-- The number of variables. -/
def size (t : Variables) : Nat := t.bindings.length

/-- Whether there is no variable. -/
def isEmpty (t : Variables) : Bool := t.size == 0

end Variables

end CssNest
