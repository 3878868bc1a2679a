import LispXref.Text.CodePoint
import LispXref.Text.CharClass

/-! Text in quotes, as messages show it: single quotes unless the text holds a
single quote and no double one, with escapes for what cannot be seen. -/
namespace LispXref

def hexChar (n : Nat) : Char := (Nat.toDigits 16 (n % 16)).headD '0'

/-- The last `width` hexadecimal digits of `n`, in lower case. -/
def hexDigits : (width : Nat) → (n : Nat) → List Char
  | 0, _ => []
  | width + 1, n => hexDigits width (n / 16) ++ [hexChar n]

@[simp] theorem length_hexDigits (width n : Nat) : (hexDigits width n).length = width := by
  induction width generalizing n with
  | zero => rfl
  | succ width ih => simp [hexDigits, ih]

/-- A code point by its number, with as many digits as it needs. -/
def numberEscape (code : CodePoint) : List Char :=
  if code.val < 0x100 then '\\' :: 'x' :: hexDigits 2 code.val
  else if code.val < 0x10000 then '\\' :: 'u' :: hexDigits 4 code.val
  else '\\' :: 'U' :: hexDigits 8 code.val

def quoteMark (text : CodeText) : Char :=
  if CodePoint.ofChar '\'' ∈ text ∧ CodePoint.ofChar '"' ∉ text then '"' else '\''

def escapeInQuotes (mark : Char) (code : CodePoint) : List Char :=
  match code.toChar? with
  | none => numberEscape code
  | some c =>
    if c = mark ∨ c = '\\' then ['\\', c]
    else if c = '\n' then ['\\', 'n']
    else if c = '\r' then ['\\', 'r']
    else if c = '\t' then ['\\', 't']
    else if isPrintable c then [c]
    else numberEscape code

def quotedChars (text : CodeText) : List Char :=
  let mark := quoteMark text
  mark :: text.flatMap (escapeInQuotes mark) ++ [mark]

def quoted (text : CodeText) : String := String.ofList (quotedChars text)

end LispXref
