import LispXref.Text.Digit
import LispXref.Text.Quoted

/-! Integers of any length in any base. A digit string is taken in pieces of a
thousand characters; each piece may open with the mark of its base. -/
namespace LispXref.Integer

inductive Fault where
  | shape (base : Int) (text : List Char)
  | unknownBase
  | piece (base : Int) (text : List Char)
  deriving DecidableEq, Repr

def Fault.message : Fault → String
  | .shape base text =>
    "invalid base-" ++ toString base ++ " integer: " ++ quoted ((text.take 20).map .ofChar)
  | .unknownBase => "int() base must be >= 2 and <= 36, or 0"
  | .piece base text =>
    "invalid literal for int() with base " ++ toString base ++ ": "
      ++ String.ofList ((quotedChars (text.map .ofChar)).take 200)

/-- How many decimal digits an integer may have where it is read in one piece. -/
def digitLimit : Nat := 4300

def limitMessage (count : Nat) : String :=
  "Exceeds the limit (" ++ toString digitLimit
    ++ " digits) for integer string conversion: value has " ++ toString count
    ++ " digits; use sys.set_int_max_str_digits() to increase the limit"

/-- Base named by the letter after a leading zero. -/
def markedBase? (c : Char) : Option Nat :=
  if c = 'x' ∨ c = 'X' then some 16
  else if c = 'o' ∨ c = 'O' then some 8
  else if c = 'b' ∨ c = 'B' then some 2
  else none

/-- Positional value of one or more digits below `base`. -/
def positional? (base : Nat) (digits : List Char) : Option Nat :=
  if digits ≠ [] ∧ digits.all (isDigitBelow base) then some (digitsValue base digits) else none

/-- Value of a piece without a mark. Base 0 reads it as decimal, and then only
zero may open with a zero. -/
def unmarked? (base : Nat) (piece : List Char) : Option Nat :=
  if base = 0 then
    (positional? 10 piece).filter fun value => piece.head? ≠ some '0' || value = 0
  else positional? base piece

/-- Value of one piece. The mark of the base may stand before the digits; base 0
takes any mark. -/
def pieceValue? (base : Nat) (piece : List Char) : Option Nat :=
  match piece with
  | '0' :: mark :: digits =>
    match markedBase? mark with
    | some marked => if base = marked ∨ base = 0 then positional? marked digits
        else unmarked? base piece
    | none => unmarked? base piece
  | _ => unmarked? base piece

def pieceSize : Nat := 1000

def pieces : List Char → List (List Char)
  | [] => []
  | c :: rest => (c :: rest.take (pieceSize - 1)) :: pieces (rest.drop (pieceSize - 1))
termination_by text => text.length
decreasing_by
  simp only [List.length_drop, List.length_cons]
  omega

theorem flatten_pieces (text : List Char) : (pieces text).flatten = text := by
  fun_induction pieces text with
  | case1 => rfl
  | case2 c rest ih => simp [ih]

/-- Splits off a leading sign; true stands for minus. -/
def splitSign : List Char → Bool × List Char
  | '-' :: rest => (true, rest)
  | '+' :: rest => (false, rest)
  | text => (false, text)

def applySign (negative : Bool) (magnitude : Nat) : Int :=
  if negative then -(magnitude : Int) else magnitude

/-- Joins the values of the pieces, each piece moving what stands before it up by
its own length. -/
def joinPieces (base : Nat) : (value : Nat) → List (List Char) → Except (List Char) Nat
  | value, [] => .ok value
  | value, piece :: rest =>
    match pieceValue? base piece with
    | some v => joinPieces base (value * base ^ piece.length + v) rest
    | none => .error piece

def parse (base : Int) (text : List Char) : Except Fault Int :=
  let (negative, body) := splitSign text
  if body = [] ∨ !body.all (fun c => (radixDigit? c).isSome) then .error (.shape base text)
  else if base ≠ 0 ∧ ¬(2 ≤ base ∧ base ≤ 36) then .error .unknownBase
  else match joinPieces base.toNat 0 (pieces body) with
    | .ok magnitude => .ok (applySign negative magnitude)
    | .error piece => .error (.piece base piece)

end LispXref.Integer
