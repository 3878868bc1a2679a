import LispXref.NameSet
import LispXref.Numeral.Binary64
import LispXref.Text.CodePoint

/-! Forms of Lisp text. Every form carries the span of characters it was read from, and
may carry a record of the names in it; an improper list keeps the form after its dot
apart from the items before it. -/
namespace LispXref

/-- Characters from `start` up to but not including `stop`. -/
structure Span where
  start : Nat
  stop : Nat
  deriving DecidableEq, Repr

/-- The characters of `text` in the span. -/
def Span.slice (span : Span) (text : List Char) : List Char :=
  (text.drop span.start).take (span.stop - span.start)

inductive Number where
  | integer (value : Int)
  | real (value : Binary64)
  /-- A character literal that stands for no single character, as it was written. -/
  | spelled (text : String)
  deriving DecidableEq, Repr

inductive Atom where
  | symbol (name : String)
  | number (value : Number)
  | string (value : List CodePoint)
  deriving DecidableEq, Repr

/-- The marks that may stand before a form. -/
inductive Quotation where
  | quote | backquote | unquote | splice | function
  deriving DecidableEq, Repr

/-- The symbol that heads the list a mark abbreviates. -/
def Quotation.head : Quotation → String
  | .quote => "quote"
  | .backquote => "`"
  | .unquote => ","
  | .splice => ",@"
  | .function => "function"

/-- What a form of any kind carries: where it stands, and the names of the symbols in it
if they are on record. -/
structure Label where
  span : Span
  names : Option NameSet
  deriving DecidableEq, Repr

inductive Form where
  | atom (label : Label) (value : Atom)
  | list (label : Label) (items : List Form)
  | dotted (label : Label) (items : List Form) (tail : Form)
  | vector (label : Label) (items : List Form)
  | quoted (label : Label) (mark : Quotation) (operand : Form)
  deriving Repr

inductive FormKind where
  | symbol | number | string | list | dotted | quoted | sharpQuoted | vector
  deriving DecidableEq, Repr

def FormKind.name : FormKind → String
  | .symbol => "symbol"
  | .number => "number"
  | .string => "string"
  | .list => "list"
  | .dotted => "improper-list"
  | .quoted => "quoted"
  | .sharpQuoted => "sharp-quoted"
  | .vector => "vector"

namespace Form

instance : Inhabited Form := ⟨.list ⟨⟨0, 0⟩, none⟩ []⟩

def label : Form → Label
  | .atom label _ | .list label _ | .dotted label _ _ | .vector label _ | .quoted label _ _ => label

/-- The form with another label. -/
def relabel (label : Label) : Form → Form
  | .atom _ value => .atom label value
  | .list _ items => .list label items
  | .dotted _ items tail => .dotted label items tail
  | .vector _ items => .vector label items
  | .quoted _ mark operand => .quoted label mark operand

@[simp] theorem label_relabel (label : Label) (form : Form) :
    (form.relabel label).label = label := by
  cases form <;> rfl

def span (form : Form) : Span := form.label.span
def start (form : Form) : Nat := form.span.start
def stop (form : Form) : Nat := form.span.stop

def kind : Form → FormKind
  | .atom _ (.symbol _) => .symbol
  | .atom _ (.number _) => .number
  | .atom _ (.string _) => .string
  | .list _ _ => .list
  | .dotted _ _ _ => .dotted
  | .vector _ _ => .vector
  | .quoted _ .function _ => .sharpQuoted
  | .quoted _ _ _ => .quoted

def isAtom : Form → Bool
  | .atom _ _ => true
  | _ => false

/-- The name of a form that is a symbol. -/
def symbol? : Form → Option String
  | .atom _ (.symbol name) => some name
  | _ => none

def isSymbol (form : Form) (name : String) : Bool := form.symbol? = some name

/-- The forms directly inside, in order of writing. -/
def parts : Form → List Form
  | .atom _ _ => []
  | .list _ items | .vector _ items => items
  | .dotted _ items tail => items ++ [tail]
  | .quoted _ _ operand => [operand]

@[simp] theorem parts_relabel (label : Label) (form : Form) :
    (form.relabel label).parts = form.parts := by
  cases form <;> rfl

/-- The symbol at the head of a list, written out or abbreviated by a mark. -/
def head? : Form → Option String
  | .list _ (first :: _) => first.symbol?
  | .quoted _ mark _ => some mark.head
  | _ => none

mutual

/-- A form and all forms inside it in order of writing, each with its depth, and then
`after`. -/
def preorderThen (depth : Nat) (after : List (Nat × Form)) : Form → List (Nat × Form)
  | .atom label value => (depth, .atom label value) :: after
  | .list label items => (depth, .list label items) :: preorderItemsThen (depth + 1) after items
  | .dotted label items tail =>
    (depth, .dotted label items tail)
      :: preorderItemsThen (depth + 1) (preorderThen (depth + 1) after tail) items
  | .vector label items => (depth, .vector label items) :: preorderItemsThen (depth + 1) after items
  | .quoted label mark operand =>
    (depth, .quoted label mark operand) :: preorderThen (depth + 1) after operand

def preorderItemsThen (depth : Nat) (after : List (Nat × Form)) : List Form → List (Nat × Form)
  | [] => after
  | item :: rest => preorderThen depth (preorderItemsThen depth after rest) item

end

def preorderFrom (depth : Nat) (form : Form) : List (Nat × Form) := preorderThen depth [] form

mutual

theorem preorderThen_eq (depth : Nat) (after : List (Nat × Form)) :
    (form : Form) → preorderThen depth after form = preorderThen depth [] form ++ after
  | .atom _ _ => rfl
  | .list _ items => congrArg _ (preorderItemsThen_eq (depth + 1) after items)
  | .dotted _ items tail => by
    simp only [preorderThen]
    rw [preorderItemsThen_eq (depth + 1) (preorderThen (depth + 1) after tail) items,
      preorderItemsThen_eq (depth + 1) (preorderThen (depth + 1) [] tail) items,
      preorderThen_eq (depth + 1) after tail, List.cons_append, List.append_assoc]
  | .vector _ items => congrArg _ (preorderItemsThen_eq (depth + 1) after items)
  | .quoted _ _ operand => congrArg _ (preorderThen_eq (depth + 1) after operand)

theorem preorderItemsThen_eq (depth : Nat) (after : List (Nat × Form)) :
    (items : List Form) →
      preorderItemsThen depth after items = preorderItemsThen depth [] items ++ after
  | [] => rfl
  | item :: rest => by
    simp only [preorderItemsThen]
    rw [preorderThen_eq depth (preorderItemsThen depth after rest) item,
      preorderThen_eq depth (preorderItemsThen depth [] rest) item,
      preorderItemsThen_eq depth after rest, List.append_assoc]

end

theorem preorderItemsThen_nil (depth : Nat) (items : List Form) :
    preorderItemsThen depth [] items = items.flatMap (preorderFrom depth) := by
  induction items with
  | nil => rfl
  | cons item rest ih =>
    rw [preorderItemsThen, preorderThen_eq, ih, List.flatMap_cons, preorderFrom]

/-- A form comes first, and then what its parts hold. -/
theorem preorderFrom_eq (depth : Nat) (form : Form) :
    preorderFrom depth form = (depth, form) :: form.parts.flatMap (preorderFrom (depth + 1)) := by
  cases form with
  | atom => rfl
  | list label items => exact congrArg _ (preorderItemsThen_nil (depth + 1) items)
  | vector label items => exact congrArg _ (preorderItemsThen_nil (depth + 1) items)
  | quoted label mark operand => simp [preorderFrom, preorderThen, parts]
  | dotted label items tail =>
    rw [preorderFrom, preorderThen, preorderItemsThen_eq, preorderItemsThen_nil]
    simp [parts, preorderFrom]

def preorder (form : Form) : List (Nat × Form) := preorderFrom 0 form

end Form
end LispXref
