import LispXref.Lexeme.Basic
import LispXref.Lexeme.Escape
import LispXref.Numeral.Integer
import LispXref.Text.CharClass

/-! Words: runs of constituent characters and escaped characters. A word without
a backslash that has the shape of a number is one; every other word is a symbol. -/
namespace LispXref.Word

/-- Characters that end a word or begin something else. -/
def delimiters : List Char := ['"', '\'', ';', '(', ')', '[', ']', '#', '\x60', ',', '\\']

def isConstituent (c : Char) : Bool := !isBlank c && !delimiters.contains c

/-- Number of characters of the word that a text opens with; zero if there is none. -/
def width : List Char → Nat
  | '\\' :: _ :: rest => width rest + 2
  | c :: rest => if isConstituent c then width rest + 1 else 0
  | [] => 0

/-- A decimal integer, which may end in a point. -/
def integer? (word : List Char) : Option Int :=
  let (negative, body) := Integer.splitSign word
  let digits := body.takeWhile Char.isDigit
  let rest := body.dropWhile Char.isDigit
  if digits ≠ [] ∧ (rest = [] ∨ rest = ['.']) then
    some (Integer.applySign negative (digitsValue 10 digits))
  else none

/-- The number after the letter e: an optional sign and digits up to the end. -/
def exponent? (text : List Char) : Option Int :=
  let (negative, digits) := Integer.splitSign text
  if digits ≠ [] ∧ digits.all Char.isDigit then
    some (Integer.applySign negative (digitsValue 10 digits))
  else none

/-- A decimal fraction: digits after the point, an exponent, or both. -/
def real? (word : List Char) : Option Binary64 :=
  let (negative, body) := Integer.splitSign word
  let whole := body.takeWhile Char.isDigit
  let make (fraction : List Char) (e : Int) : Binary64 :=
    Binary64.ofDecimal negative (whole ++ fraction) (e - fraction.length)
  match body.dropWhile Char.isDigit with
  | '.' :: rest =>
    let fraction := rest.takeWhile Char.isDigit
    match rest.dropWhile Char.isDigit with
    | [] => if fraction = [] then none else some (make fraction 0)
    | 'e' :: tail => if whole ++ fraction = [] then none else (exponent? tail).map (make fraction)
    | _ => none
  | 'e' :: tail => if whole = [] then none else (exponent? tail).map (make [])
  | _ => none

def atom (word : List Char) : Atom :=
  if '\\' ∈ word then .symbol (String.ofList (Escape.unescape word))
  else match integer? word with
    | some value => .number (.integer value)
    | none => match real? word with
      | some value => .number (.real value)
      | none => .symbol (String.ofList word)

end LispXref.Word
