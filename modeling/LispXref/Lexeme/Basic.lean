import LispXref.Form.Basic

/-! Tokens of Lisp text, lexemes (a token with the number of characters it takes),
and the causes for which a text cannot be read. -/
namespace LispXref

inductive Bracket where
  | round | square
  deriving DecidableEq, Repr

def Bracket.closing : Bracket → Char
  | .round => ')'
  | .square => ']'

/-- What an opening bracket begins. Vectors stand in either bracket: records and
strings with properties are literal data too. -/
inductive Opener where
  | list
  | vector (bracket : Bracket)
  deriving DecidableEq, Repr

/-- The bracket that ends what was opened. -/
def Opener.bracket : Opener → Bracket
  | .list => .round
  | .vector bracket => bracket

inductive Token where
  | opening (opener : Opener)
  | closing (bracket : Bracket)
  | mark (quotation : Quotation)
  | dot
  | atom (value : Atom)
  deriving DecidableEq, Repr

/-- A token and how many characters it takes after its first. -/
structure Lexeme where
  token : Token
  tail : Nat
  deriving DecidableEq, Repr

def Lexeme.width (lexeme : Lexeme) : Nat := lexeme.tail + 1

inductive Fault where
  | unexpectedClosing (bracket : Bracket)
  | mismatchedClosing (found wanted : Bracket)
  | missingTail
  | unexpectedDot
  | secondTail
  | unterminatedString
  | endInCharacter
  | unterminatedCharacterName
  | endAfterBackslash
  | endAfterSharp
  | unknownSharp (c : Char)
  | invalidRadix (digits : List Char)
  | missingDigits
  | invalidInteger (base : Nat)
  deriving DecidableEq, Repr

def Fault.message : Fault → String
  | .unexpectedClosing b => "unexpected '" ++ b.closing.toString ++ "'"
  | .mismatchedClosing found wanted =>
    "'" ++ found.closing.toString ++ "' does not match '" ++ wanted.closing.toString ++ "'"
  | .missingTail => "missing form after '.'"
  | .unexpectedDot => "unexpected '.'"
  | .secondTail => "more than one form after '.'"
  | .unterminatedString => "unterminated string"
  | .endInCharacter => "end of input in character literal"
  | .unterminatedCharacterName => "unterminated character name"
  | .endAfterBackslash => "end of input after backslash"
  | .endAfterSharp => "end of input after '#'"
  | .unknownSharp c => "invalid read syntax '#" ++ c.toString ++ "'"
  | .invalidRadix digits => "invalid radix " ++ String.ofList (digits.take 20)
  | .missingDigits => "missing digits in radix integer"
  | .invalidInteger base => "invalid base-" ++ toString base ++ " integer"

end LispXref
