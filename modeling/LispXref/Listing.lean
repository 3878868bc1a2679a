import LispXref.Json.Basic
import LispXref.NameSet

/-! Lists of names as JSON gives them. Besides names there may be texts that are no
strings, numbers and null; of what is equal, numbers of different spelling included, the
first is kept. -/
namespace LispXref

/-- A number by its value; one that is whole is always an integer. -/
inductive Quantity where
  | whole (value : Int)
  | real (value : Binary64)
  deriving DecidableEq, Repr

namespace Quantity

def ofReal (x : Binary64) : Quantity :=
  match x.integer? with
  | some value => .whole value
  | none => .real x

def fraction : Quantity → Int × Nat
  | .whole value => (value, 1)
  | .real x =>
    if x.isFinite then x.fraction else (if x.isNegative then -1 else 1, 0)

/-- The order of numbers. What is infinite has a denominator of zero. -/
def le (a b : Quantity) : Bool :=
  let (n, d) := a.fraction
  let (m, e) := b.fraction
  if d = 0 ∧ e = 0 then n ≤ m else n * e ≤ m * d

end Quantity

/-- A member of a list that is no name. A number is kept as it was given. -/
inductive Oddity where
  | text (value : CodeText)
  | number (value : Quantity) (given : Json)
  | null

namespace Oddity

def isSame : Oddity → Oddity → Bool
  | .text a, .text b => a = b
  | .number a _, .number b _ => a = b
  | .null, .null => true
  | _, _ => false

/-- Keeps the first of each. -/
def distinct : List Oddity → List Oddity
  | [] => []
  | first :: rest => first :: (distinct rest).filter fun other => !first.isSame other

end Oddity

structure Listing where
  names : NameSet
  oddities : List Oddity

/-- A list that cannot be sorted, because it holds values of two types. -/
structure MixedTypes where
  first : String
  second : String

def MixedTypes.message (mixed : MixedTypes) : String :=
  "'<' not supported between instances of '" ++ mixed.second ++ "' and '" ++ mixed.first ++ "'"

namespace Listing

def ofNames (names : NameSet) : Listing := ⟨names, []⟩

def name? : Json → Option String
  | .string value => value.toString?
  | _ => none

def oddity? : Json → Option Oddity
  | .string value => if value.toString?.isSome then none else some (.text value)
  | .null => some .null
  | .bool value => some (.number (.whole (if value then 1 else 0)) (.bool value))
  | .integer value => some (.number (.whole value) (.integer value))
  | .real spelling value => some (.number (.ofReal value) (.real spelling value))
  | _ => none

/-- The members of an array. Arrays and objects in it are not looked at. -/
def ofItems (items : List Json) : Listing :=
  ⟨.ofList (items.filterMap name?), Oddity.distinct (items.filterMap oddity?)⟩

def union (a b : Listing) : Listing :=
  ⟨a.names ∪ b.names, Oddity.distinct (a.oddities ++ b.oddities)⟩

def size (listing : Listing) : Nat := listing.names.size + listing.oddities.length

def texts (listing : Listing) : List CodeText :=
  let others := listing.oddities.filterMap fun oddity => match oddity with
    | .text value => some value
    | _ => none
  (listing.names.toList.map CodeText.ofString ++ others).mergeSort CodeText.le

def numbers (listing : Listing) : List Json :=
  let found := listing.oddities.filterMap fun oddity => match oddity with
    | .number value given => some (value, given)
    | _ => none
  (found.mergeSort fun a b => a.1.le b.1).map (·.2)

def nulls (listing : Listing) : List Json :=
  listing.oddities.filterMap fun oddity => match oddity with
    | .null => some .null
    | _ => none

/-- All members in order: texts by code points, numbers by value. -/
def inOrder (listing : Listing) : Except MixedTypes (List Json) :=
  match listing.texts.map Json.string, listing.numbers, listing.nulls with
  | texts, [], [] => .ok texts
  | [], numbers, [] => .ok numbers
  | [], [], nulls => .ok nulls
  | texts, numbers, nulls =>
    let kinds := (texts.take 1 ++ numbers.take 1 ++ nulls.take 1).map Json.typeName
    .error ⟨kinds.headD "", kinds.getLastD ""⟩

end Listing
end LispXref
