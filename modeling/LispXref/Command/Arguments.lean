import LispXref.Reference
import LispXref.Settings.Basic

/-! Command lines. Options may stand anywhere after the name of a command, until a
double dash ends them. -/
namespace LispXref

structure SearchOptions where
  symbol : String
  path : String := "."
  asJson : Bool := false
  useIndex : Bool := true
  lexiconFile : Option String := none
  context : Option Nat := none
  deriving DecidableEq, Repr

inductive Command where
  | search (kind : ReferenceKind) (options : SearchOptions)
  | clearIndex (path : String)
  | indexStats (path : String)
  | version
  | help
  deriving DecidableEq, Repr

namespace Command

/-- An option by its long name and, with a value, perhaps by a letter. -/
structure OptionShape where
  long : String
  short : Option Char := none
  takesValue : Bool := false

/-- Options in the order given, with their values, and the other arguments. -/
structure Parsed where
  options : List (String × String) := []
  arguments : List String := []

def Parsed.has (parsed : Parsed) (name : String) : Bool := parsed.options.any (·.1 = name)

/-- The value of an option; the last one counts. -/
def Parsed.value? (parsed : Parsed) (name : String) : Option String :=
  parsed.options.reverse.lookup name

/-- An argument that begins like an option: the shape it names and a value attached to
it. A long option takes its value after an equals sign, a letter directly. -/
def readOption? (shapes : List OptionShape) (argument : String) :
    Option (OptionShape × Option String) :=
  let text := argument.toList
  let name := text.takeWhile (· ≠ '=')
  let attached := if '=' ∈ text then some (String.ofList (text.drop (name.length + 1))) else none
  match shapes.find? (·.long = String.ofList name) with
  | some shape => if attached.isSome && !shape.takesValue then none else some (shape, attached)
  | none =>
    match text with
    | '-' :: letter :: rest =>
      if letter = '-' then none
      else (shapes.find? (·.short = some letter)).map fun shape =>
        (shape, if rest = [] then none else some (String.ofList rest))
    | _ => none

def looksLikeOption (argument : String) : Bool :=
  argument.startsWith "-" && argument ≠ "-"

/-- Sorts arguments into options and others. Unless `anywhere` is set, the first other
argument ends the options. -/
def parseArguments (shapes : List OptionShape) (anywhere : Bool) (parsed : Parsed) :
    List String → Option Parsed
  | [] => some parsed
  | argument :: rest =>
    let others (more : List String) : Parsed :=
      { parsed with arguments := parsed.arguments ++ more }
    if argument = "--" then some (others rest)
    else if looksLikeOption argument then
      match readOption? shapes argument with
      | none => none
      | some (shape, attached) =>
        let add (value : String) : Parsed :=
          { parsed with options := parsed.options ++ [(shape.long, value)] }
        if shape.takesValue then
          match attached, rest with
          | some value, rest => parseArguments shapes anywhere (add value) rest
          | none, value :: rest => parseArguments shapes anywhere (add value) rest
          | none, [] => none
        else parseArguments shapes anywhere (add "") rest
    else if anywhere then parseArguments shapes anywhere (others [argument]) rest
    else some (others (argument :: rest))

def helpShape : OptionShape := { long := "--help" }

def searchShapes (kind : ReferenceKind) : List OptionShape :=
  let common : List OptionShape :=
    [helpShape, { long := "--json" }, { long := "--no-cache" },
      { long := "--context", short := some 'C', takesValue := true }]
  match kind with
  | .variableUse | .occurrence => common
  | _ => { long := "--oracle", takesValue := true } :: common

/-- The value of ASCII digits with single underscores between them. After a zero in front,
further zeros and all underscores among them are passed over; they do not count towards
the length that a numeral may have. -/
def groupedDigits? (text : List Char) : Option Nat :=
  let significant :=
    if text.head? = some '0' then text.dropWhile fun c => c = '0' || c = '_' else text
  if significant = [] then if text.getLast? = some '0' then some 0 else none
  else if significant.all (fun c => c = '_' || c.isDigit) && significant.head? ≠ some '_'
      && areGroups significant then
    let digits := significant.filter (· ≠ '_')
    if Integer.digitLimit < digits.length then none else some (digitsValue 10 digits)
  else none

/-- The part of a numeral before its point, if what follows is one or more zeros. -/
def wholePart? (numeral : List Char) : Option (List Char) :=
  let whole := numeral.takeWhile (· ≠ '.')
  match numeral.dropWhile (· ≠ '.') with
  | [] => some whole
  | _ :: fraction => if fraction ≠ [] && fraction.all (· = '0') then some whole else none

/-- A number of lines, with blanks around it and a sign before it allowed. A fraction of
zeros leaves it whole, and the only one that may have a minus sign is a single zero. -/
def contextValue? (text : String) : Option Nat := do
  let (negative, body) := Integer.splitSign (trimWhile isIntegerBlank text.toList)
  let whole ← wholePart? body
  if negative && whole ≠ ['0'] then none else groupedDigits? whole

def parseSearch (kind : ReferenceKind) (arguments : List String) : Option Command := do
  let parsed ← parseArguments (searchShapes kind) true {} arguments
  if parsed.has "--help" then some .help
  else
    let context ← match parsed.value? "--context" with
      | none => some none
      | some text => (contextValue? text).map some
    let make (symbol path : String) : Command :=
      .search kind ⟨symbol, path, parsed.has "--json", !parsed.has "--no-cache",
        parsed.value? "--oracle", context⟩
    match parsed.arguments with
    | [symbol] => some (make symbol ".")
    | [symbol, path] => some (make symbol path)
    | _ => none

def parseIndex (make : String → Command) (arguments : List String) : Option Command := do
  let parsed ← parseArguments [helpShape] true {} arguments
  if parsed.has "--help" then some .help
  else match parsed.arguments with
    | [] => some (make ".")
    | [path] => some (make path)
    | _ => none

/-- Reads a command line; none is a mistake in its use. -/
def parse (arguments : List String) : Option Command := do
  let parsed ← parseArguments [helpShape, { long := "--version" }] false {} arguments
  match parsed.options with
  | ("--help", _) :: _ => some .help
  | _ :: _ => some .version
  | [] =>
    match parsed.arguments with
    | "cache" :: rest => do
      let inner ← parseArguments [helpShape] false {} rest
      if inner.has "--help" then some .help
      else match inner.arguments with
        | "clear" :: rest => parseIndex .clearIndex rest
        | "stats" :: rest => parseIndex .indexStats rest
        | _ => none
    | name :: rest => (ReferenceKind.ofName? name).bind fun kind => parseSearch kind rest
    | [] => none

end Command
end LispXref
