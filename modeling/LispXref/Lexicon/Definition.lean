import LispXref.Reader
import LispXref.Lexicon.Basic

/-! Definitions found in documents. Each defining form tells the class of the name it
introduces; definitions nested in other code, or in other definitions, count too. -/
namespace LispXref

/-- Special forms of the language, known without any definition. -/
def builtinSpecialForms : List String :=
  ["and", "catch", "cond", "condition-case", "defconst", "defvar", "function", "if",
    "interactive", "let", "let*", "or", "prog1", "prog2", "progn", "quote",
    "save-current-buffer", "save-excursion", "save-restriction", "setq", "setq-default",
    "unwind-protect", "while"]

namespace Definition

def functionDefiners : List String :=
  ["defun", "defsubst", "cl-defun", "cl-defsubst", "cl-defgeneric", "cl-defmethod",
    "define-inline", "define-minor-mode", "define-globalized-minor-mode", "define-derived-mode"]

def macroDefiners : List String := ["defmacro", "cl-defmacro"]

def variableDefiners : List String :=
  ["defvar", "defvar-local", "defcustom", "defconst", "define-minor-mode"]

/-- Definers of functions that take the name quoted. -/
def functionAliasers : List String := ["defalias", "fset"]

/-- Definers of variables that take the name quoted. -/
def variableAliasers : List String := ["defvaralias"]

def aliasers : List String := functionAliasers ++ variableAliasers

def definers : List String := functionDefiners ++ macroDefiners ++ variableDefiners ++ aliasers

end Definition

/-- A name and the form that defines it. -/
structure Definition where
  definer : String
  name : String
  deriving DecidableEq, Repr

namespace Definition

/-- The symbol behind a quotation mark. -/
def markedSymbol? : Form → Option String
  | .quoted _ .quote operand => operand.symbol?
  | _ => none

/-- The definition that a list makes, if its head is a definer and a name of the right
shape follows. -/
def ofForm? : Form → Option Definition
  | .list _ (first :: second :: _) => do
    let definer ← first.symbol?
    if definers.contains definer then
      let name ← if aliasers.contains definer then markedSymbol? second else second.symbol?
      some ⟨definer, name⟩
    else none
  | _ => none

def isDefinition (form : Form) (_ : Trail) : Bool := (ofForm? form).isSome

def definesFunction (d : Definition) : Bool :=
  functionDefiners.contains d.definer || functionAliasers.contains d.definer

def definesMacro (d : Definition) : Bool := macroDefiners.contains d.definer

def definesVariable (d : Definition) : Bool :=
  variableDefiners.contains d.definer || variableAliasers.contains d.definer

/-- The definitions in a form read from a text. A form in which no definer occurs is
not walked. -/
def ofTop (top : TopForm) : List Definition :=
  if top.names.any definers.contains then
    (top.form.walk isDefinition true .top).filterMap fun v => ofForm? v.1
  else []

end Definition

/-- What documents define, and which of them could not be read to the end. -/
structure Harvest where
  table : NameTable
  errors : List (CodeText × ReadError)

namespace Harvest

/-- A harvest that starts with some names besides the special forms. -/
def start (functionNames macroNames variableNames : NameSet) : Harvest :=
  ⟨⟨functionNames, macroNames, .ofList builtinSpecialForms, variableNames⟩, []⟩

def collect (table : NameTable) (ds : List Definition) : NameTable :=
  let chosen (p : Definition → Bool) : NameSet := NameSet.ofList ((ds.filter p).map (·.name))
  { table with
    functionNames := table.functionNames ∪ chosen Definition.definesFunction
    macroNames := table.macroNames ∪ chosen Definition.definesMacro
    variableNames := table.variableNames ∪ chosen Definition.definesVariable }

variable [CharacterNames]

/-- Adds the definitions of a document, up to its first fault, and counts them. -/
def add (harvest : Harvest) (document : Document) : Harvest × Nat :=
  let transcript := Transcript.ofText document.text
  let ds := transcript.tops.flatMap Definition.ofTop
  let errors := transcript.error.toList.map fun e => (document.name, e)
  (⟨collect harvest.table ds, harvest.errors ++ errors⟩, ds.length)

def ofDocuments (documents : List Document) : Harvest :=
  documents.foldl (fun h d => (h.add d).1) (start ∅ ∅ ∅)

def lexicon (harvest : Harvest) : Lexicon := .table harvest.table

end Harvest
end LispXref
