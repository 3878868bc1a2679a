import LispXref.Json.Basic
import LispXref.Text.Quoted

/-! JSON as indented text. Only printable ASCII characters appear in it. -/
namespace LispXref.Json

def unit16 (n : Nat) : List Char := '\\' :: 'u' :: hexDigits 4 n

/-- One code point inside a string; those beyond the basic plane take two units. -/
def escapeCode (code : CodePoint) : List Char :=
  let n := code.val
  match Char.ofNat n with
  | '"' => ['\\', '"']
  | '\\' => ['\\', '\\']
  | '\n' => ['\\', 'n']
  | '\r' => ['\\', 'r']
  | '\t' => ['\\', 't']
  | '\x08' => ['\\', 'b']
  | '\x0c' => ['\\', 'f']
  | c =>
    if 0x20 ≤ n ∧ n < 0x7F then [c]
    else if n < 0x10000 then unit16 n
    else unit16 (0xD800 + (n - 0x10000) / 0x400) ++ unit16 (0xDC00 + (n - 0x10000) % 0x400)

def stringText (text : CodeText) : String :=
  "\"" ++ String.ofList (text.flatMap escapeCode) ++ "\""

def lineBreak (depth : Nat) : String := "\n" ++ String.ofList (List.replicate (2 * depth) ' ')

mutual

/-- A value as text, its inner lines indented by two blanks a level. -/
def pretty (depth : Nat) : Json → String
  | .null => "null"
  | .bool true => "true"
  | .bool false => "false"
  | .integer value => toString value
  | .real spelling _ => spelling
  | .string value => stringText value
  | .array [] => "[]"
  | .array (item :: items) =>
    "[" ++ lineBreak (depth + 1) ++ pretty (depth + 1) item ++ prettyItems (depth + 1) items
      ++ lineBreak depth ++ "]"
  | .object [] => "\x7b\x7d"
  | .object ((name, value) :: fields) =>
    "\x7b" ++ lineBreak (depth + 1) ++ stringText name ++ ": " ++ pretty (depth + 1) value
      ++ prettyFields (depth + 1) fields ++ lineBreak depth ++ "\x7d"

def prettyItems (depth : Nat) : List Json → String
  | [] => ""
  | item :: items => "," ++ lineBreak depth ++ pretty depth item ++ prettyItems depth items

def prettyFields (depth : Nat) : List (CodeText × Json) → String
  | [] => ""
  | (name, value) :: fields =>
    "," ++ lineBreak depth ++ stringText name ++ ": " ++ pretty depth value
      ++ prettyFields depth fields

end

def toText (value : Json) : String := pretty 0 value

end LispXref.Json
