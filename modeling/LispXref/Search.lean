import LispXref.Lexicon.Definition
import LispXref.Workspace.FileError

/-! Search for the references to one symbol in documents. What was found before a
document became unreadable is kept, and one bad document does not end a search. -/
namespace LispXref

/-- Something to search: a document, or the name of one that need not or could not be
read. -/
inductive Source where
  | document (document : Document)
  | skipped (name : CodeText)
  | failed (name : CodeText) (error : FileError)

/-- What a search found in one document. `names` are those of all symbols in it, if it
was read to the end. -/
structure Findings where
  document : Document
  found : List Form
  error : Option ReadError
  names : Option NameSet

inductive Outcome where
  | searched (findings : Findings)
  | skipped (name : CodeText)
  | failed (name : CodeText) (error : FileError)

inductive ErrorCause where
  | unreadable (error : ReadError)
  | unloadable (error : FileError)

structure DocumentError where
  name : CodeText
  cause : ErrorCause

namespace DocumentError

def offset? (error : DocumentError) : Option Nat :=
  match error.cause with
  | .unreadable e => some e.offset
  | .unloadable _ => none

def message (error : DocumentError) : String :=
  match error.cause with
  | .unreadable e => e.message
  | .unloadable e => e.message

end DocumentError

/-- A found form in its document, in terms of positions and lines counted from one. -/
structure Match where
  document : Document
  form : Form

namespace Match

def start (m : Match) : Nat := m.form.start + 1
def stop (m : Match) : Nat := m.form.stop + 1
def text (m : Match) : List Char := m.form.span.slice m.document.text
def line (m : Match) : Nat := (m.document.text.take m.form.start).count '\n' + 1

end Match

def Findings.allMatches (findings : Findings) : List Match :=
  findings.found.map (⟨findings.document, ·⟩)

namespace Outcome

/-- The document with its matches, if it has any. -/
def group? : Outcome → Option (Document × List Match)
  | .searched findings =>
    if findings.found.isEmpty then none else some (findings.document, findings.allMatches)
  | _ => none

def error? : Outcome → Option DocumentError
  | .searched findings => findings.error.map fun e => ⟨findings.document.name, .unreadable e⟩
  | .failed name e => some ⟨name, .unloadable e⟩
  | .skipped _ => none

end Outcome

/-- The matches by document and the errors, each in the order of the documents. -/
structure SearchResult where
  groups : List (Document × List Match)
  errors : List DocumentError
  scanned : Nat

namespace SearchResult

def merge (outcomes : List Outcome) : SearchResult :=
  ⟨outcomes.filterMap Outcome.group?, outcomes.filterMap Outcome.error?, outcomes.length⟩

def allMatches (result : SearchResult) : List Match := result.groups.flatMap (·.2)
def matchCount (result : SearchResult) : Nat := result.allMatches.length
def documentCount (result : SearchResult) : Nat := result.groups.length

end SearchResult

/-- A search whose symbol is known to be of the right class. With `prefilter`, forms in
which the symbol does not occur are not walked. -/
structure Search where
  symbol : String
  kind : ReferenceKind
  prefilter : Bool := true

namespace Search

def prepare (symbol : String) (kind : ReferenceKind) (lexicon : Option Lexicon)
    (prefilter : Bool) : Except ClassError Search :=
  match checkClass kind symbol lexicon with
  | .ok () => .ok ⟨symbol, kind, prefilter⟩
  | .error error => .error error

/-- The references inside one form, in order. -/
def references (search : Search) (form : Form) : List Form :=
  match search.kind with
  | .occurrence => form.symbolsWhere (·.isSymbol search.symbol)
  | .variableUse => (form.walk (Reference.isVariable search.symbol) false .top).map (·.1)
  | _ => (form.walk (Reference.isCall search.symbol) false .top).map (·.1)

/-- Whether a form need not be walked because the symbol is not among the names on its
record. A form without a record is always walked. -/
def passesOver (search : Search) (form : Form) : Bool :=
  search.prefilter && form.label.names.any (search.symbol ∉ ·)

def inTop (search : Search) (top : TopForm) : List Form :=
  if search.passesOver top.recorded then [] else search.references top.form

variable [CharacterNames]

def inDocument (search : Search) (document : Document) : Findings :=
  let transcript := Transcript.ofText document.text
  { document
    found := transcript.tops.flatMap search.inTop
    error := transcript.error
    names :=
      if transcript.error.isSome then none
      else some (NameSet.ofList (transcript.tops.flatMap (·.names))) }

def outcome (search : Search) : Source → Outcome
  | .document document => .searched (search.inDocument document)
  | .skipped name => .skipped name
  | .failed name error => .failed name error

def run (search : Search) (sources : List Source) : SearchResult :=
  .merge (sources.map search.outcome)

end Search
end LispXref
