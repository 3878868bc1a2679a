import LispXref.Lexeme.Basic
import LispXref.Lexeme.Escape

/-! Character literals: what follows a question mark. Modifiers may be repeated
before the character, and a literal with a modifier keeps its spelling. -/
namespace LispXref.CharacterLiteral

/-- Letters that, with a hyphen after them, modify a character. -/
def isModifier (c : Char) : Bool := c ∈ ['C', 'M', 'S', 'H', 's', 'A']

/-- Number of characters of an escape that begins with `c`, the backslash not counted. -/
def escapeWidth (c : Char) (rest : List Char) : Except Fault Nat :=
  if c = 'N' ∧ rest.head? = some '\x7b' then
    match rest.findIdx? (· = '\x7d') with
    | some i => .ok (i + 2)
    | none => .error .unterminatedCharacterName
  else if c = 'x' ∨ c = 'u' ∨ c = 'U' then .ok ((rest.takeWhile isHexDigit).length + 1)
  else if isOctalDigit c then .ok (((rest.take 2).takeWhile isOctalDigit).length + 1)
  else .ok 1

/-- Number of characters of the literal after its question mark. -/
def width : List Char → Except Fault Nat
  | [] => .error .endInCharacter
  | '\\' :: [] => .error .endInCharacter
  | '\\' :: '^' :: rest => (width rest).map (· + 2)
  | '\\' :: c :: '-' :: rest =>
    if isModifier c then (width rest).map (· + 3)
    else (escapeWidth c ('-' :: rest)).map (· + 1)
  | '\\' :: c :: rest => (escapeWidth c rest).map (· + 1)
  | _ :: _ => .ok 1

def startsWithModifier : List Char → Bool
  | '\\' :: '^' :: _ => true
  | '\\' :: c :: '-' :: _ => isModifier c
  | _ => false

/-- Value of a literal spelled `body`: its code point, or the spelling itself if it
is modified or its escape does not give one code point. -/
def value [CharacterNames] (body : List Char) : Number :=
  let spelled := Number.spelled (String.ofList body)
  match body with
  | '\\' :: _ =>
    if startsWithModifier body then spelled
    else match Escape.decode body with
      | [code] => .integer code.val
      | _ => spelled
  | [c] => .integer c.toNat
  | _ => spelled

end LispXref.CharacterLiteral
