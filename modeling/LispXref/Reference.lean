import LispXref.Form.Walk

/-! References to a symbol. The trail of a form tells a use of a name from a place
that introduces it: an argument list, a let binding list or a binding inside one. -/
namespace LispXref

inductive ReferenceKind where
  | functionCall | macroCall | specialCall | variableUse | occurrence
  deriving DecidableEq, Repr

namespace ReferenceKind

def name : ReferenceKind → String
  | .functionCall => "function"
  | .macroCall => "macro"
  | .specialCall => "special"
  | .variableUse => "variable"
  | .occurrence => "symbol"

def all : List ReferenceKind := [.functionCall, .macroCall, .specialCall, .variableUse, .occurrence]

def ofName? (name : String) : Option ReferenceKind := all.find? (·.name = name)

def unknownMessage (name : String) : String := quoted name ++ " is not a valid ReferenceKind"

end ReferenceKind

namespace Reference

/-- Positions of the lists in which a let form names its variables. -/
def letLists : List Frame := [⟨some "let", 1⟩, ⟨some "let*", 1⟩]

/-- Positions of all lists that introduce names. -/
def binderLists : List Frame :=
  [⟨some "defun", 2⟩, ⟨some "defsubst", 2⟩, ⟨some "defmacro", 2⟩, ⟨some "cl-defun", 2⟩,
    ⟨some "lambda", 1⟩] ++ letLists

/-- Functions that call their first argument. -/
def indirectCallers : List String := ["funcall", "apply"]

/-- Whether the frame `n` levels out is one of `frames`. -/
def frameIn (frames : List Frame) (trail : Trail) (n : Nat) : Bool :=
  (trail.frameAt? n).any (frames.contains ·)

/-- A quoted symbol, by a mark or written out as a list. -/
def isQuotedSymbol (form : Form) (symbol : String) : Bool :=
  match form with
  | .list _ [first, second] =>
    (first.isSymbol "quote" || first.isSymbol "function") && second.isSymbol symbol
  | .quoted _ mark operand => (mark = .quote || mark = .function) && operand.isSymbol symbol
  | _ => false

/-- Whether a list in this place introduces names instead of calling something. -/
def bindsAsList (trail : Trail) : Bool :=
  frameIn binderLists trail 0 || frameIn letLists trail 1

/-- A call of `symbol`, direct or through a function that calls its argument. -/
def isCall (symbol : String) (form : Form) (trail : Trail) : Bool :=
  match form with
  | .list _ (first :: rest) =>
    !bindsAsList trail &&
      (first.isSymbol symbol ||
        (indirectCallers.any first.isSymbol && rest.head?.any (isQuotedSymbol · symbol)))
  | _ => false

/-- Whether a symbol in this place is a name being introduced. -/
def bindsAsName (trail : Trail) : Bool :=
  frameIn binderLists trail 0 || frameIn binderLists trail 1
    || ((trail.frameAt? 0).any (·.index = 0) && frameIn letLists trail 2)

/-- A use of `symbol` as a variable. -/
def isVariable (symbol : String) (form : Form) (trail : Trail) : Bool :=
  form.isSymbol symbol && !bindsAsName trail

end Reference
end LispXref
