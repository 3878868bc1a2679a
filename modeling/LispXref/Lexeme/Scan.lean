import LispXref.Lexeme.Character
import LispXref.Lexeme.Sharp

/-! Scanning a gap and the lexeme after it. Gaps are blank characters, comments from a semicolon
to the end of the line, and interpreter lines, which open with a sharp and an exclamation mark.
Where a lexeme ends depends on nothing before it and on no form that is still open. -/
namespace LispXref

namespace Gap

mutual

/-- How many characters of a text belong to the gap it opens with. -/
def width : List Char → Nat
  | [] => 0
  | '#' :: '!' :: rest => widthInComment rest + 2
  | c :: rest =>
    if isBlank c then width rest + 1 else if c = ';' then widthInComment rest + 1 else 0

/-- The same for a text that goes on inside a comment. -/
def widthInComment : List Char → Nat
  | [] => 0
  | c :: rest => if c = '\n' then width rest + 1 else widthInComment rest + 1

end

end Gap

variable [CharacterNames]

/-- Number of characters of a string after its opening quote, the closing one
included. -/
def stringWidth : List Char → Option Nat
  | [] => none
  | '\\' :: [] => none
  | '\\' :: _ :: rest => (stringWidth rest).map (· + 2)
  | c :: rest => if c = '"' then some 1 else (stringWidth rest).map (· + 1)

def scanString (rest : List Char) : Except Fault Lexeme :=
  match stringWidth rest with
  | some w => .ok ⟨.atom (.string (Escape.decode (rest.take (w - 1)))), w⟩
  | none => .error .unterminatedString

def scanCharacter (rest : List Char) : Except Fault Lexeme :=
  (CharacterLiteral.width rest).map fun w =>
    ⟨.atom (.number (CharacterLiteral.value (rest.take w))), w⟩

def scanWord (text : List Char) : Except Fault Lexeme :=
  let w := Word.width text
  if w = 0 then .error .endAfterBackslash
  else
    let word := text.take w
    .ok ⟨if word = ['.'] then .dot else .atom (Word.atom word), w - 1⟩

/-- The lexeme that begins with `c`, where `rest` follows. -/
def Lexeme.scan (c : Char) (rest : List Char) : Except Fault Lexeme :=
  match c with
  | '(' => .ok ⟨.opening .list, 0⟩
  | '[' => .ok ⟨.opening (.vector .square), 0⟩
  | ')' => .ok ⟨.closing .round, 0⟩
  | ']' => .ok ⟨.closing .square, 0⟩
  | '\'' => .ok ⟨.mark .quote, 0⟩
  | '\x60' => .ok ⟨.mark .backquote, 0⟩
  | ',' => .ok (if rest.head? = some '@' then ⟨.mark .splice, 1⟩ else ⟨.mark .unquote, 0⟩)
  | '"' => scanString rest
  | '?' => scanCharacter rest
  | '#' => Sharp.scan rest
  | _ => scanWord (c :: rest)

end LispXref
