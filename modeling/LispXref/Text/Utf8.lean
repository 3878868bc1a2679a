import LispXref.Text.Quoted

/-! Text from bytes and bytes from text. In the contents of a file, bytes that are no
well-formed encoding are refused with the place of the first bad sequence and the part of it
that was right so far, and however the file ends its lines, they are read as ending in a newline.
In the name of a file, bytes that belong to no character are kept one by one. -/
namespace LispXref

/-- Every way of ending a line becomes a newline: a return, with or without a newline
after it. The state is the text so far in reverse and whether it just ended in a return. -/
def addUnified : List Char × Bool → Char → List Char × Bool
  | (done, afterReturn), c =>
    if c = '\r' then ('\n' :: done, true)
    else if c = '\n' ∧ afterReturn then (done, false)
    else (c :: done, false)

def unifyLineEnds (text : List Char) : List Char := (text.foldl addUnified ([], false)).1.reverse

namespace Utf8

inductive Reason where
  | badStart | badContinuation | unexpectedEnd
  deriving DecidableEq, Repr

def Reason.text : Reason → String
  | .badStart => "invalid start byte"
  | .badContinuation => "invalid continuation byte"
  | .unexpectedEnd => "unexpected end of data"

/-- The bad sequence starts at byte `offset` with `first` and has `width` bytes. -/
structure Fault where
  reason : Reason
  offset : Nat
  first : UInt8
  width : Nat
  deriving DecidableEq, Repr

def Fault.message (fault : Fault) : String :=
  let place :=
    if fault.width ≤ 1 then
      "byte 0x" ++ String.ofList (hexDigits 2 fault.first.toNat) ++ " in position "
        ++ toString fault.offset
    else
      "bytes in position " ++ toString fault.offset ++ "-"
        ++ toString (fault.offset + fault.width - 1)
  "'utf-8' codec can't decode " ++ place ++ ": " ++ fault.reason.text

/-- What must follow a first byte: the ranges of the bytes to come. None for a byte
that starts no sequence. The second byte is limited where the code point would be one
of a shorter sequence, a surrogate or too large. -/
def following? (first : Nat) : Option (List (Nat × Nat)) :=
  let any := (0x80, 0xBF)
  if first < 0x80 then some []
  else if 0xC2 ≤ first ∧ first ≤ 0xDF then some [any]
  else if first = 0xE0 then some [(0xA0, 0xBF), any]
  else if first = 0xED then some [(0x80, 0x9F), any]
  else if 0xE1 ≤ first ∧ first ≤ 0xEF then some [any, any]
  else if first = 0xF0 then some [(0x90, 0xBF), any, any]
  else if first = 0xF4 then some [(0x80, 0x8F), any, any]
  else if 0xF1 ≤ first ∧ first ≤ 0xF3 then some [any, any, any]
  else none

/-- The bits of the code point that the first byte of a sequence carries. -/
def leadBits (first tail : Nat) : Nat :=
  match tail with
  | 0 => first
  | 1 => first - 0xC0
  | 2 => first - 0xE0
  | _ => first - 0xF0

/-- Takes the bytes that must follow. Failing, tells why and how many were right. -/
def takeFollowing (code taken : Nat) : List (Nat × Nat) → List UInt8 → Except (Reason × Nat) Nat
  | [], _ => .ok code
  | _ :: _, [] => .error (.unexpectedEnd, taken)
  | (low, high) :: ranges, b :: bytes =>
    if low ≤ b.toNat ∧ b.toNat ≤ high then
      takeFollowing (code * 64 + (b.toNat - 0x80)) (taken + 1) ranges bytes
    else .error (.badContinuation, taken)

/-- Decodes `bytes`, which start at `offset`; `done` is the text so far in reverse. -/
def decodeFrom (offset : Nat) (done : List Char) (bytes : List UInt8) :
    Except Fault (List Char) :=
  match bytes with
  | [] => .ok done.reverse
  | b :: rest =>
    match following? b.toNat with
    | none => .error ⟨.badStart, offset, b, 1⟩
    | some ranges =>
      match takeFollowing (leadBits b.toNat ranges.length) 0 ranges rest with
      | .error (reason, taken) => .error ⟨reason, offset, b, taken + 1⟩
      | .ok code =>
        decodeFrom (offset + ranges.length + 1) (Char.ofNat code :: done)
          (rest.drop ranges.length)
termination_by bytes.length
decreasing_by
  simp only [List.length_drop, List.length_cons]
  omega

def decode (bytes : List UInt8) : Except Fault (List Char) := decodeFrom 0 [] bytes

/-- The character that bytes open with and how many bytes it takes after its first. -/
def leading? (first : UInt8) (rest : List UInt8) : Option (CodePoint × Nat) :=
  match following? first.toNat with
  | none => none
  | some ranges =>
    match takeFollowing (leadBits first.toNat ranges.length) 0 ranges rest with
    | .ok code => some (.ofNat code, ranges.length)
    | .error _ => none

/-- The name of a file from its bytes. -/
def decodeName (bytes : List UInt8) : CodeText :=
  match bytes with
  | [] => []
  | b :: rest =>
    match leading? b rest with
    | some (code, tail) => code :: decodeName (rest.drop tail)
    | none => .ofStrayByte b :: decodeName rest
termination_by bytes.length
decreasing_by
  · simp only [List.length_drop, List.length_cons]
    omega
  · simp

/-- The bytes of a code point. What stands for a stray byte is that byte again. -/
def encodeCode (code : CodePoint) : List UInt8 :=
  let n := code.val
  let continuation (bits : Nat) : UInt8 := (0x80 + bits % 64).toUInt8
  if code.isStrayByte then [(n - 0xDC00).toUInt8]
  else if n < 0x80 then [n.toUInt8]
  else if n < 0x800 then [(0xC0 + n / 64).toUInt8, continuation n]
  else if n < 0x10000 then [(0xE0 + n / 4096).toUInt8, continuation (n / 64), continuation n]
  else [(0xF0 + n / 262144).toUInt8, continuation (n / 4096), continuation (n / 64), continuation n]

def encodeName (name : CodeText) : List UInt8 := name.flatMap encodeCode

def encode (text : List Char) : List UInt8 := encodeName (text.map .ofChar)

/-- Code points in a row that have no encoding: the first of them, its place, and the place
after the last. -/
structure Unencodable where
  code : CodePoint
  start : Nat
  stop : Nat
  deriving DecidableEq, Repr

def Unencodable.message (run : Unencodable) : String :=
  let place :=
    if run.stop = run.start + 1 then
      "character '" ++ String.ofList (numberEscape run.code) ++ "' in position "
        ++ toString run.start
    else "characters in position " ++ toString run.start ++ "-" ++ toString (run.stop - 1)
  "'utf-8' codec can't encode " ++ place ++ ": surrogates not allowed"

/-- The first code point that has no encoding, with the surrogates right after it. -/
def unencodable? (hasNone : CodePoint → Bool) (text : CodeText) : Option Unencodable :=
  match text.dropWhile fun code => !hasNone code with
  | [] => none
  | code :: rest =>
    let start := text.length - (rest.length + 1)
    some ⟨code, start, start + 1 + (rest.takeWhile CodePoint.isSurrogate).length⟩

end Utf8
end LispXref
