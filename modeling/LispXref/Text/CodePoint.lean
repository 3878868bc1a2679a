/-! Code points and texts made of them. Unlike a string, such a text may hold half of a
surrogate pair. In the name of a file, 128 of these stand for bytes that belong to no
character. -/
namespace LispXref

/-- A code point; unlike a character it may be half of a surrogate pair. -/
abbrev CodePoint := Fin 0x110000

namespace CodePoint

def ofChar (c : Char) : CodePoint :=
  ⟨c.toNat, by
    have h := c.valid
    simp only [UInt32.isValidChar, Nat.isValidChar] at h
    simp only [Char.toNat]
    omega⟩

instance : Coe Char CodePoint := ⟨ofChar⟩

def isSurrogate (code : CodePoint) : Bool := 0xD800 ≤ code.val && code.val ≤ 0xDFFF

def toChar? (code : CodePoint) : Option Char :=
  if isSurrogate code then none else some (Char.ofNat code.val)

def ofNat? (n : Nat) : Option CodePoint := if h : n < 0x110000 then some ⟨n, h⟩ else none

/-- The code point of a number, which wraps around past the last one. -/
def ofNat (n : Nat) : CodePoint := ⟨n % 0x110000, Nat.mod_lt n (by decide)⟩

/-- Code points that stand for a byte of a file name that belongs to no character. -/
def isStrayByte (code : CodePoint) : Bool := 0xDC80 ≤ code.val && code.val ≤ 0xDCFF

/-- What stands for a byte that belongs to no character. -/
def ofStrayByte (b : UInt8) : CodePoint := ofNat (0xDC00 + b.toNat)

/-- Halves of surrogate pairs that no file name has. -/
def isUnnameable (code : CodePoint) : Bool := code.isSurrogate && !code.isStrayByte

end CodePoint

abbrev CodeText := List CodePoint

namespace CodeText

def ofString (text : String) : CodeText := text.toList.map CodePoint.ofChar

instance : Coe String CodeText := ⟨ofString⟩

/-- The string that a text spells, if it holds no half of a surrogate pair. -/
def toString? (text : CodeText) : Option String := (text.mapM CodePoint.toChar?).map String.ofList

/-- The order of two texts, by the first code points that differ. -/
def le : CodeText → CodeText → Bool
  | [], _ => true
  | _ :: _, [] => false
  | a :: as, b :: bs => if a = b then le as bs else decide (a.val < b.val)

/-- The pieces of a text between separators. -/
def splitOn (separator : CodePoint) (text : CodeText) : List CodeText :=
  text.foldr (fun code pieces =>
    if code = separator then [] :: pieces
    else (code :: pieces.headD []) :: pieces.tail) [[]]

end CodeText
end LispXref
