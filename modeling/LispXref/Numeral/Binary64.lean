import LispXref.Text.Digit
import LispXref.Text.Quoted

/-! Double-precision numbers by their bits, and the nearest one to a decimal
fraction. A fraction halfway between two doubles goes to the even one. -/
namespace LispXref

structure Binary64 where
  bits : UInt64
  deriving DecidableEq, Repr

/-- Quotient rounded to the nearest integer, a half to the even one. -/
def roundDiv (num den : Nat) : Nat :=
  let q := num / den
  let r := num % den
  if den < 2 * r ∨ (2 * r = den ∧ q % 2 = 1) then q + 1 else q

namespace Binary64

def infinityBits : Nat := 0x7FF <<< 52

/-- Largest `e` with `2 ^ e ≤ num / den`, for positive `num` and `den`. -/
def floorLog2 (num den : Nat) : Int :=
  let e : Int := num.log2 - den.log2
  let reached := if 0 ≤ e then den <<< e.toNat ≤ num else den ≤ num <<< (-e).toNat
  if reached then e else e - 1

/-- Bits of the double nearest to `num / den`. With unit `2 ^ u` the significand is
the rounded number of units; one that rounds up to the next power of two carries
into the exponent by itself. -/
def ratioBits (num den : Nat) : Nat :=
  let u := max (floorLog2 num den - 52) (-1074)
  let significand :=
    if 0 ≤ u then roundDiv num (den <<< u.toNat) else roundDiv (num <<< (-u).toNat) den
  min infinityBits (((u + 1074).toNat <<< 52) + significand)

/-- Bits of the double nearest to the decimal `digits` times `10 ^ exponent`. Numbers
of more than 310 places are infinite and those below `10 ^ (-330)` vanish. -/
def decimalBits (digits : List Char) (exponent : Int) : Nat :=
  let m := digitsValue 10 digits
  let top := exponent + (digits.dropWhile (· = '0')).length
  if m = 0 ∨ top < -330 then 0
  else if 310 < top then infinityBits
  else if 0 ≤ exponent then ratioBits (m * Nat.pow 10 exponent.toNat) 1
  else ratioBits m (Nat.pow 10 (-exponent).toNat)

def ofDecimal (negative : Bool) (digits : List Char) (exponent : Int) : Binary64 :=
  ⟨((if negative then 1 <<< 63 else 0) + decimalBits digits exponent).toUInt64⟩

def infinity (negative : Bool) : Binary64 :=
  ⟨((if negative then 1 <<< 63 else 0) + infinityBits).toUInt64⟩

def nan : Binary64 := ⟨0x7FF8000000000000⟩

def isNegative (x : Binary64) : Bool := x.bits.toNat >>> 63 = 1

def exponentField (x : Binary64) : Nat := (x.bits.toNat >>> 52) % 2048

/-- A finite number is its significand times two to the power of its unit. -/
def significand (x : Binary64) : Nat :=
  let fraction := x.bits.toNat % (1 <<< 52)
  if x.exponentField = 0 then fraction else fraction + (1 <<< 52)

def unit (x : Binary64) : Int := (max x.exponentField 1 : Nat) - 1075

def isFinite (x : Binary64) : Bool := x.exponentField ≠ 2047

/-- A finite number as a fraction. -/
def fraction (x : Binary64) : Int × Nat :=
  let magnitude : Int := (x.significand <<< x.unit.toNat : Nat)
  (if x.isNegative then -magnitude else magnitude, 1 <<< (-x.unit).toNat)

/-- The value of a number that is whole. -/
def integer? (x : Binary64) : Option Int :=
  let (num, den) := x.fraction
  if x.isFinite ∧ num % den = 0 then some (num / den) else none

/-- The sixteen hexadecimal digits of the bits, most significant first. -/
def hex (x : Binary64) : String := String.ofList (hexDigits 16 x.bits.toNat)

end Binary64
end LispXref
