import Std.Data.TreeMap
import ViewTemplates.Decimal.Layout
import ViewTemplates.Text.Quoted

/-!
# Values and fields

A view is rendered with fields: values by name. A template writes a value with its plain text; a
listing also shows of which kind it is.
-/

set_option autoImplicit false

namespace ViewTemplates

/-- The value of a field. -/
inductive Value
  | text (text : String)
  | int (n : Int64)
  | float (x : Float)
  | bool (b : Bool)
  deriving BEq, Inhabited

namespace Value

/-- The text of a value that is a text. -/
def text? : Value → Option String
  | text s => some s
  | _ => none

/-- The word for a truth value. -/
def boolText (b : Bool) : String := if b then "true" else "false"

/-- What a template writes for a value. -/
def display : Value → String
  | text s => s
  | int n => n.toInt.repr
  | float x => Decimal.Layout.plain.ofFloat x
  | bool b => boolText b

/-- A value in a listing. -/
def describe : Value → String
  | text s => "Text(" ++ Text.quote s ++ ")"
  | int n => "Int(" ++ n.toInt.repr ++ ")"
  | float x => "Float(" ++ Decimal.Layout.marked.ofFloat x ++ ")"
  | bool b => "Bool(" ++ boolText b ++ ")"

end Value

/-- The fields of a view, in the order of their names. -/
abbrev Fields := Std.TreeMap String Value

namespace Fields

/-- What a template writes for a field: nothing if it is not set. -/
def display (fields : Fields) (name : String) : String :=
  match fields[name]? with
  | some value => value.display
  | none => ""

/-- The fields in a listing. -/
def describe (fields : Fields) : String :=
  let item := fun (name, value) => Text.quote name ++ ": " ++ Value.describe value
  Text.bracket "\x7b" (fields.toList.map item) "\x7d"

end Fields

end ViewTemplates
