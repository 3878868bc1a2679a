import LispXref.Json.Basic
import LispXref.Numeral.Integer
import LispXref.Text.Digit

/-! JSON from text. Besides the standard's values it takes the names of no finite
number. A refusal tells what was wanted and at which character. -/
namespace LispXref.Json

inductive Complaint where
  | value | extraData | name | colon | comma | unterminated | control | escape | unit
  | byteOrderMark
  deriving DecidableEq, Repr

def Complaint.text : Complaint → String
  | .value => "Expecting value"
  | .extraData => "Extra data"
  | .name => "Expecting property name enclosed in double quotes"
  | .colon => "Expecting ':' delimiter"
  | .comma => "Expecting ',' delimiter"
  | .unterminated => "Unterminated string starting at"
  | .control => "Invalid control character at"
  | .escape => "Invalid \\escape"
  | .unit => "Invalid \\uXXXX escape"
  | .byteOrderMark => "Unexpected UTF-8 BOM (decode using utf-8-sig)"

/-- Why a text gives no value: it is no JSON, or it goes beyond what is read. -/
inductive Fault where
  | refused (complaint : Complaint) (offset : Nat)
  | longInteger (digits : Nat)
  | deepArray
  | deepObject
  deriving DecidableEq, Repr

namespace Fault

def isRefusal : Fault → Bool
  | .refused _ _ => true
  | _ => false

/-- Whether arrays and objects stand in one another too deeply. -/
def isDepth (fault : Fault) : Bool := fault = .deepArray || fault = .deepObject

/-- A fault in words; a refusal with line and column in the text that was refused. -/
def message (text : List Char) : Fault → String
  | .refused complaint offset =>
    let before := text.take offset
    let column := (before.reverse.takeWhile (· ≠ '\n')).length + 1
    complaint.text ++ ": line " ++ toString (before.count '\n' + 1) ++ " column "
      ++ toString column ++ " (char " ++ toString offset ++ ")"
  | .longInteger digits => Integer.limitMessage digits
  | .deepArray =>
    "maximum recursion depth exceeded while decoding a JSON array from a unicode string"
  | .deepObject =>
    "maximum recursion depth exceeded while decoding a JSON object from a unicode string"

end Fault

/-- How many arrays and objects may stand in one another. -/
def levelLimit : Nat := 990

/-- What remains of a text, and where it starts. -/
structure Rest where
  offset : Nat
  text : List Char

namespace Rest

def skip (rest : Rest) (n : Nat) : Rest := ⟨rest.offset + n, rest.text.drop n⟩

def isGap (c : Char) : Bool := c = ' ' || c = '\t' || c = '\n' || c = '\r'

def skipGap (rest : Rest) : Rest := rest.skip (rest.text.takeWhile isGap).length

def fail {α : Type} (rest : Rest) (complaint : Complaint) : Except Fault α :=
  .error (.refused complaint rest.offset)

end Rest

/-- The unit spelled by four hexadecimal digits. -/
def unit? (text : List Char) : Option Nat :=
  let digits := text.take 4
  if digits.length = 4 ∧ digits.all isHexDigit then some (digitsValue 16 digits) else none

def isHighUnit (n : Nat) : Bool := 0xD800 ≤ n && n ≤ 0xDBFF
def isLowUnit (n : Nat) : Bool := 0xDC00 ≤ n && n ≤ 0xDFFF

/-- The code point that a unit escape stands for, with the number of characters after
the letter u; `text` follows that letter, which stands at `offset`. Half of a pair that
has no other half stands for itself. -/
def unitEscape (offset : Nat) (text : List Char) : Except Fault (CodePoint × Nat) :=
  if text.length ≤ 4 then .error (.refused .unit offset)
  else match unit? text with
    | none => .error (.refused .unit offset)
    | some high =>
      let alone : CodePoint × Nat := (CodePoint.ofNat high, 4)
      match text.drop 4 with
      | '\\' :: 'u' :: more =>
        if isHighUnit high ∧ 4 < more.length then
          match unit? more with
          | none => .error (.refused .unit (offset + 6))
          | some low =>
            if isLowUnit low then
              .ok (CodePoint.ofNat (0x10000 + (high - 0xD800) * 0x400 + (low - 0xDC00)), 10)
            else .ok alone
        else .ok alone
      | _ => .ok alone

def letterEscape? (c : Char) : Option Char :=
  match c with
  | '"' => some '"'
  | '\\' => some '\\'
  | '/' => some '/'
  | 'b' => some '\x08'
  | 'f' => some '\x0c'
  | 'n' => some '\n'
  | 'r' => some '\r'
  | 't' => some '\t'
  | _ => none

/-- The rest of a string whose opening quote stands at `opening`; `done` is what has
been read of it, in reverse. -/
def parseString (opening : Nat) (done : CodeText) (offset : Nat) (text : List Char) :
    Except Fault (CodeText × Rest) :=
  match text with
  | [] => .error (.refused .unterminated opening)
  | c :: more =>
    if c = '"' then .ok (done.reverse, ⟨offset + 1, more⟩)
    else if c = '\\' then
      match more with
      | [] => .error (.refused .unterminated opening)
      | e :: after =>
        if e = 'u' then
          match unitEscape (offset + 1) after with
          | .ok (code, n) => parseString opening (code :: done) (offset + 2 + n) (after.drop n)
          | .error fault => .error fault
        else match letterEscape? e with
          | some char => parseString opening (.ofChar char :: done) (offset + 2) after
          | none => .error (.refused .escape offset)
    else if c.toNat < 0x20 then .error (.refused .control offset)
    else parseString opening (.ofChar c :: done) (offset + 1) more
termination_by text.length
decreasing_by
  all_goals
    simp only [List.length_drop, List.length_cons]
    omega

/-- The number that a text opens with, and its width. -/
def number? (text : List Char) : Option (Json × Nat) :=
  let (sign, body) := match text with
    | '-' :: body => (['-'], body)
    | _ => ([], text)
  let digits := match body with
    | '0' :: _ => ['0']
    | _ => body.takeWhile Char.isDigit
  if digits = [] then none
  else
    let rest := body.drop digits.length
    let places := match rest with
      | '.' :: more => more.takeWhile Char.isDigit
      | _ => []
    let fraction := if places = [] then [] else '.' :: places
    let rest := rest.drop fraction.length
    let (exponent, power) : List Char × Int := match rest with
      | e :: more =>
        if e = 'e' ∨ e = 'E' then
          let (mark, more) := match more with
            | '-' :: more => (['-'], more)
            | '+' :: more => (['+'], more)
            | _ => ([], more)
          let powerDigits := more.takeWhile Char.isDigit
          if powerDigits = [] then ([], 0)
          else (e :: (mark ++ powerDigits),
            Integer.applySign (mark = ['-']) (digitsValue 10 powerDigits))
        else ([], 0)
      | [] => ([], 0)
    let negative := sign ≠ []
    let spelling := sign ++ digits ++ fraction ++ exponent
    let value := if fraction = [] ∧ exponent = [] then
        Json.integer (Integer.applySign negative (digitsValue 10 digits))
      else .real (String.ofList spelling)
        (Binary64.ofDecimal negative (digits ++ places) (power - places.length))
    some (value, spelling.length)

/-- A number, unless it is an integer of too many digits. -/
def checkDigits (text : List Char) : Json × Nat → Except Fault (Json × Nat)
  | (.integer value, width) =>
    let count := if text.head? = some '-' then width - 1 else width
    if Integer.digitLimit < count then .error (.longInteger count) else .ok (.integer value, width)
  | found => .ok found

/-- Values with a name of their own. -/
def namedValues : List (String × Json) :=
  [("null", .null), ("true", .bool true), ("false", .bool false), ("NaN", .real "NaN" .nan),
    ("Infinity", .real "Infinity" (.infinity false)),
    ("-Infinity", .real "-Infinity" (.infinity true))]

def named? (text : List Char) : Option (Json × Nat) :=
  (namedValues.find? fun v => v.1.toList.isPrefixOf text).map fun v => (v.2, v.1.length)

mutual

/-- The value that the rest opens with. Every inner value takes one unit of fuel, and
`levels` is how many more arrays and objects may be opened inside one another. -/
def parseValue (fuel levels : Nat) (rest : Rest) : Except Fault (Json × Rest) :=
  match fuel with
  | 0 => rest.fail .value
  | fuel + 1 =>
    match rest.text with
    | '"' :: more =>
      (parseString rest.offset [] (rest.offset + 1) more).map fun (text, rest) =>
        (.string text, rest)
    | '\x7b' :: _ =>
      if levels = 0 then .error .deepObject
      else
        let inside := (rest.skip 1).skipGap
        match inside.text with
        | '\x7d' :: _ => .ok (.object [], inside.skip 1)
        | _ => (parseFields fuel (levels - 1) inside).map fun (fields, rest) =>
          (.object fields, rest)
    | '[' :: _ =>
      if levels = 0 then .error .deepArray
      else
        let inside := (rest.skip 1).skipGap
        match inside.text with
        | ']' :: _ => .ok (.array [], inside.skip 1)
        | _ => (parseItems fuel (levels - 1) inside).map fun (items, rest) => (.array items, rest)
    | text =>
      match (named? text).or (number? text) with
      | some found => (checkDigits text found).map fun (value, width) => (value, rest.skip width)
      | none => rest.fail .value

/-- The items of an array up to its closing bracket. -/
def parseItems (fuel levels : Nat) (rest : Rest) : Except Fault (List Json × Rest) :=
  match fuel with
  | 0 => rest.fail .value
  | fuel + 1 => do
    let (item, rest) ← parseValue fuel levels rest
    let rest := rest.skipGap
    match rest.text with
    | ']' :: _ => .ok ([item], rest.skip 1)
    | ',' :: _ =>
      let (items, rest) ← parseItems fuel levels (rest.skip 1).skipGap
      .ok (item :: items, rest)
    | _ => rest.fail .comma

/-- The fields of an object up to its closing bracket. -/
def parseFields (fuel levels : Nat) (rest : Rest) :
    Except Fault (List (CodeText × Json) × Rest) :=
  match fuel with
  | 0 => rest.fail .value
  | fuel + 1 =>
    match rest.text with
    | '"' :: more => do
      let (name, rest) ← parseString rest.offset [] (rest.offset + 1) more
      let rest := rest.skipGap
      match rest.text with
      | ':' :: _ =>
        let (value, rest) ← parseValue fuel levels (rest.skip 1).skipGap
        let rest := rest.skipGap
        match rest.text with
        | '\x7d' :: _ => .ok ([(name, value)], rest.skip 1)
        | ',' :: _ =>
          let (fields, rest) ← parseFields fuel levels (rest.skip 1).skipGap
          .ok ((name, value) :: fields, rest)
        | _ => rest.fail .comma
      | _ => rest.fail .colon
    | _ => rest.fail .name

end

/-- The one value of a text. -/
def parse (text : List Char) : Except Fault Json :=
  if text.head? = some '\ufeff' then .error (.refused .byteOrderMark 0)
  else do
    let (value, rest) ← parseValue (2 * text.length + 2) levelLimit (Rest.mk 0 text).skipGap
    let rest := rest.skipGap
    if rest.text = [] then .ok value else rest.fail .extraData

end LispXref.Json
