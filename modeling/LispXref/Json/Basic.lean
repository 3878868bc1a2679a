import LispXref.Numeral.Binary64
import LispXref.Text.CodePoint

/-! JSON values. Fields of an object keep the order in which they were given. -/
namespace LispXref

inductive Json where
  | null
  | bool (value : Bool)
  | integer (value : Int)
  /-- A number with a fraction or an exponent, or one of the names of no finite number. -/
  | real (spelling : String) (value : Binary64)
  | string (value : CodeText)
  | array (items : List Json)
  | object (fields : List (CodeText × Json))

namespace Json

instance : Inhabited Json := ⟨.null⟩

/-- Name of a value's type in messages. -/
def typeName : Json → String
  | .null => "NoneType"
  | .bool _ => "bool"
  | .integer _ => "int"
  | .real _ _ => "float"
  | .string _ => "str"
  | .array _ => "list"
  | .object _ => "dict"

/-- The value of a field; of two fields with one name the last counts. -/
def field? (fields : List (CodeText × Json)) (name : String) : Option Json :=
  fields.reverse.lookup (CodeText.ofString name)

def nat (n : Nat) : Json := .integer n

def text (value : String) : Json := .string (CodeText.ofString value)

/-- An object whose field names are strings. -/
def ofFields (fields : List (String × Json)) : Json :=
  .object (fields.map fun field => (CodeText.ofString field.1, field.2))

end Json
end LispXref
