import LispXref.Json.Parser
import LispXref.Lexicon.Basic
import LispXref.Listing
import LispXref.Workspace.Tree

/-! Lexicons from files: a JSON object with a list of names for each class. -/
namespace LispXref

inductive LexiconError where
  | unreadable (error : FileError)
  | notJson (fault : Json.Fault) (text : List Char)
  | notObject (source typeName : String)
  | notNames (source field : String)

def LexiconError.message : LexiconError → String
  | .unreadable error => error.message
  | .notJson fault text => fault.message text
  | .notObject source typeName => source ++ ": expected a JSON object, got " ++ typeName
  | .notNames source field => source ++ ": '" ++ field ++ "' must be a list of strings"

/-- The texts that a lexicon file lists, class by class. -/
structure ListedNames where
  functionNames : Listing
  macroNames : Listing
  specialFormNames : Listing
  variableNames : Listing

namespace ListedNames

def isText : Json → Bool
  | .string _ => true
  | _ => false

/-- The texts in a field; a missing field has none. -/
def field (source : String) (fields : List (CodeText × Json)) (key : String) :
    Except LexiconError Listing :=
  match Json.field? fields key with
  | none => .ok (.ofNames ∅)
  | some (.array items) =>
    if items.all isText then .ok (.ofItems items) else .error (.notNames source key)
  | some _ => .error (.notNames source key)

def ofJson (source : String) : Json → Except LexiconError ListedNames
  | .object fields => do
    let functionNames ← field source fields "functions"
    let macroNames ← field source fields "macros"
    let specialFormNames ← field source fields "special_forms"
    let variableNames ← field source fields "variables"
    .ok ⟨functionNames, macroNames, specialFormNames, variableNames⟩
  | value => .error (.notObject source value.typeName)

/-- Reads lists from text; `source` names it in messages. -/
def ofText (source : String) (text : List Char) : Except LexiconError ListedNames :=
  match Json.parse text with
  | .ok value => ofJson source value
  | .error fault => .error (.notJson fault text)

/-- The names among the texts. No symbol is called by a text that is no string. -/
def table (listed : ListedNames) : NameTable :=
  ⟨listed.functionNames.names, listed.macroNames.names, listed.specialFormNames.names,
    listed.variableNames.names⟩

end ListedNames

/-- Whether a text can name nothing but a directory. -/
def endsAsDirectory (source : String) : Bool := source.endsWith "/" || source.endsWith "/."

def NameTable.ofFile (tree : FileTree) (source : String) : Except LexiconError NameTable :=
  let path := Path.ofString source
  if endsAsDirectory source && (tree.node? path).any (!·.isDirectory) then
    .error (.unreadable (.notDirectory source))
  else match tree.readText path with
    | .ok text => (ListedNames.ofText source text).map ListedNames.table
    | .error error => .error (.unreadable (error.about source))
end LispXref
