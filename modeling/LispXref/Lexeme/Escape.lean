import LispXref.Form.Basic
import LispXref.Text.Digit

/-! Escapes in string bodies. An escape that names no code point stays as it was
written, backslash included. -/
namespace LispXref

/-- The characters that are known by name. A name may stand for more than one code point. -/
class CharacterNames where
  codes? : List Char → Option CodeText

namespace CharacterNames

/-- Names listed in capitals; ASCII letters count alike in either case. -/
@[reducible] def ofTable (table : List (String × CodeText)) : CharacterNames where
  codes? name := table.lookup (String.ofList (name.map Char.toUpper))

/-- A line of the character database: a code point in hexadecimal, its name, and fields that do
not matter here. A name in angle brackets is none. -/
def ofDatabaseLine? (line : String) : Option (String × CodeText) :=
  match line.splitOn ";" with
  | code :: name :: _ =>
    if name.startsWith "<" then none
    else (CodePoint.ofNat? (digitsValue 16 code.toList)).map (name, [·])
  | _ => none

@[reducible] def ofDatabase (lines : List String) : CharacterNames :=
  ofTable (lines.filterMap ofDatabaseLine?)

/-- No character is known by name. -/
scoped instance noneKnown : CharacterNames := ofTable []

end CharacterNames

namespace Escape

/-- Letters that stand for a control character, a space or a deletion. -/
def letterCode? (c : Char) : Option CodePoint :=
  match c with
  | 'n' => some 0x0A
  | 't' => some 0x09
  | 'r' => some 0x0D
  | 'e' => some 0x1B
  | 'a' => some 0x07
  | 'b' => some 0x08
  | 'f' => some 0x0C
  | 'v' => some 0x0B
  | 's' => some 0x20
  | 'd' => some 0x7F
  | _ => none

/-- The meaning of an escape and how many characters it takes after its first. -/
structure Meaning where
  codes : List CodePoint
  tail : Nat

/-- An escape whose code point may be out of range, which keeps it as written. -/
def numeric (base : Nat) (letter : List Char) (digits : List Char) (tail : Nat) : Meaning :=
  match CodePoint.ofNat? (digitsValue base digits) with
  | some code => ⟨[code], tail⟩
  | none => ⟨('\\' :: letter ++ digits).map CodePoint.ofChar, tail⟩

/-- The single character of an escape that spells nothing else. -/
def plain (c : Char) : Meaning :=
  if c = '\n' ∨ c = ' ' then ⟨[], 0⟩ else ⟨[(letterCode? c).getD (CodePoint.ofChar c)], 0⟩

/-- Exactly `count` hexadecimal digits. -/
def fixedHex? (count : Nat) (rest : List Char) : Option (List Char) :=
  let digits := (rest.take count).takeWhile isHexDigit
  if digits.length = count then some digits else none

variable [CharacterNames]

/-- Meaning of the escape that begins with `c`, where `rest` follows. -/
def meaning (c : Char) (rest : List Char) : Meaning :=
  match c with
  | 'x' =>
    let digits := rest.takeWhile isHexDigit
    if digits = [] then plain c else numeric 16 [c] digits digits.length
  | 'u' =>
    match fixedHex? 4 rest with
    | some digits => numeric 16 [c] digits 4
    | none => plain c
  | 'U' =>
    match fixedHex? 8 rest with
    | some digits => numeric 16 [c] digits 8
    | none => plain c
  | 'N' =>
    match rest with
    | '\x7b' :: inner =>
      if '\x7d' ∈ inner then
        let name := inner.takeWhile (· ≠ '\x7d')
        let tail := name.length + 2
        match CharacterNames.codes? name with
        | some codes => ⟨codes, tail⟩
        | none => ⟨('\\' :: c :: rest.take tail).map CodePoint.ofChar, tail⟩
      else plain c
    | _ => plain c
  | _ =>
    if isOctalDigit c then
      let digits := (rest.take 2).takeWhile isOctalDigit
      numeric 8 [] (c :: digits) digits.length
    else plain c

/-- The code points of a string body. A backslash at the very end stays. -/
def decode : List Char → List CodePoint
  | [] => []
  | [c] => [CodePoint.ofChar c]
  | c :: d :: rest =>
    if c = '\\' then
      let m := meaning d rest
      m.codes ++ decode (rest.drop m.tail)
    else CodePoint.ofChar c :: decode (d :: rest)
termination_by text => text.length
decreasing_by
  · simp only [List.length_drop, List.length_cons]
    omega
  · simp only [List.length_cons]
    omega

/-- Drops the backslashes of a symbol's spelling, keeping what each one guards. -/
def unescape : List Char → List Char
  | '\\' :: c :: rest => c :: unescape rest
  | c :: rest => c :: unescape rest
  | [] => []

end Escape
end LispXref
