import LispXref.NameSet
import LispXref.Reference

/-! Lexicons know which names are functions, macros, special forms or variables. A
lexicon that holds a name in any of its sets has an answer about it for every class;
in a chain the first lexicon with an answer decides. -/
namespace LispXref

inductive NameClass where
  | functionName | macroName | specialFormName | variableName
  deriving DecidableEq, Repr

/-- Names by class. -/
structure NameTable where
  functionNames : NameSet := ∅
  macroNames : NameSet := ∅
  specialFormNames : NameSet := ∅
  variableNames : NameSet := ∅
  deriving DecidableEq

namespace NameTable

def names (table : NameTable) : NameClass → NameSet
  | .functionName => table.functionNames
  | .macroName => table.macroNames
  | .specialFormName => table.specialFormNames
  | .variableName => table.variableNames

/-- Whether the table holds a name in any class. -/
def mentions (table : NameTable) (name : String) : Bool :=
  name ∈ table.functionNames || name ∈ table.macroNames || name ∈ table.specialFormNames
    || name ∈ table.variableNames

/-- Whether a name is of a class; undecided if the table does not hold the name. -/
def answer (table : NameTable) (cls : NameClass) (name : String) : Option Bool :=
  if name ∈ table.names cls then some true
  else if table.mentions name then some false
  else none

end NameTable

inductive Lexicon where
  | table (names : NameTable)
  | chain (parts : List Lexicon)

namespace Lexicon

mutual

def answer (cls : NameClass) (name : String) : Lexicon → Option Bool
  | .table names => names.answer cls name
  | .chain parts => answerFirst cls name parts

/-- The first answer of several lexicons. -/
def answerFirst (cls : NameClass) (name : String) : List Lexicon → Option Bool
  | [] => none
  | part :: rest => (answer cls name part).or (answerFirst cls name rest)

end

end Lexicon

/-- The class that a name must have for calls of a kind. -/
def ReferenceKind.requiredClass? : ReferenceKind → Option NameClass
  | .functionCall => some .functionName
  | .macroCall => some .macroName
  | .specialCall => some .specialFormName
  | .variableUse => none
  | .occurrence => none

inductive ClassError where
  | unknown (symbol : String) (kind : ReferenceKind)
  | mismatch (symbol : String) (kind : ReferenceKind)
  deriving DecidableEq, Repr

def ClassError.message : ClassError → String
  | .unknown symbol kind =>
    "cannot classify '" ++ symbol ++ "': unknown whether it is a " ++ kind.name
  | .mismatch symbol kind => "'" ++ symbol ++ "' is not a " ++ kind.name

/-- Checks that a lexicon confirms the class that a search for calls needs. -/
def checkClass (kind : ReferenceKind) (symbol : String) (lexicon : Option Lexicon) :
    Except ClassError Unit :=
  match kind.requiredClass? with
  | none => .ok ()
  | some cls =>
    match lexicon.bind (·.answer cls symbol) with
    | none => .error (.unknown symbol kind)
    | some false => .error (.mismatch symbol kind)
    | some true => .ok ()

end LispXref
