import LispXref.Lexeme.Word

/-! Tokens that begin with a sharp: quoted functions, literal vectors, symbols that
are empty or not interned, and integers with a radix. -/
namespace LispXref.Sharp

/-- The radix of an integer literal and how many characters announce it. -/
structure Radix where
  base : Nat
  width : Nat
  deriving DecidableEq, Repr

/-- Radix written in digits before the letter r; leading zeros do not count. -/
def writtenRadix (text : List Char) : Except Fault Radix :=
  let digits := text.takeWhile Char.isDigit
  match text, text.dropWhile Char.isDigit with
  | [], _ => .error .endAfterSharp
  | c :: _, rest =>
    if digits ≠ [] ∧ (rest.head? = some 'r' ∨ rest.head? = some 'R') then
      let significant := digits.dropWhile (· = '0')
      let shown := if significant = [] then ['0'] else significant
      let base := if shown.length ≤ 2 then digitsValue 10 shown else 0
      if 2 ≤ base ∧ base ≤ 36 then .ok ⟨base, digits.length + 1⟩ else .error (.invalidRadix shown)
    else .error (.unknownSharp c)

def radix (text : List Char) : Except Fault Radix :=
  match text.head?.bind Integer.markedBase? with
  | some base => .ok ⟨base, 1⟩
  | none => writtenRadix text

/-- An integer with a radix, of which `text` is what follows the sharp. -/
def integer (text : List Char) : Except Fault Lexeme := do
  let r ← radix text
  let rest := text.drop r.width
  let w := Word.width rest
  if w = 0 then .error .missingDigits
  else match Integer.parse r.base (rest.take w) with
    | .ok value => .ok ⟨.atom (.number (.integer value)), r.width + w⟩
    | .error _ => .error (.invalidInteger r.base)

/-- A symbol spelled by the word, possibly empty, after the sharp and one character. -/
def bareSymbol (rest : List Char) : Lexeme :=
  let w := Word.width rest
  ⟨.atom (.symbol (String.ofList (Escape.unescape (rest.take w)))), w + 1⟩

/-- The lexeme that begins with a sharp followed by `text`. -/
def scan (text : List Char) : Except Fault Lexeme :=
  match text with
  | '\'' :: _ => .ok ⟨.mark .function, 1⟩
  | '(' :: _ => .ok ⟨.opening (.vector .round), 1⟩
  | '[' :: _ => .ok ⟨.opening (.vector .square), 1⟩
  | 's' :: '(' :: _ => .ok ⟨.opening (.vector .round), 2⟩
  | '#' :: _ => .ok ⟨.atom (.symbol ""), 1⟩
  | ':' :: rest => .ok (bareSymbol rest)
  | '_' :: rest => .ok (bareSymbol rest)
  | _ => integer text

end LispXref.Sharp
