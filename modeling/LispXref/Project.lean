import LispXref.Lexicon.File
import LispXref.Settings.Basic
import LispXref.Workspace.Gather

/-! Search of a project: the files under a path, with the settings of the environment,
the definitions in those files and the occurrence index beside them. -/
namespace LispXref

inductive ProjectError where
  | settings (error : SettingsError)
  | unknownKind (name : String)
  | lexicon (error : LexiconError)
  | symbol (error : ClassError)
  | discovery (error : Gather.DiscoveryError)
  | file (error : FileError)
  | index (error : Gather.IndexError)
  | interrupted (interruption : Gather.Interruption)

namespace ProjectError

def message : ProjectError → String
  | .settings error => error.message
  | .unknownKind name => ReferenceKind.unknownMessage name
  | .lexicon error => error.message
  | .symbol error => error.message
  | .discovery error => error.message
  | .file error => error.message
  | .index error => error.message
  | .interrupted interruption => interruption.message

/-- Whether the error is told to the user; otherwise it ends the program. A damaged
index is beyond the user's doing, and so is JSON that is too deep. -/
def isReported : ProjectError → Bool
  | .lexicon (.notJson fault _) => !fault.isDepth
  | .index (.file _) => true
  | .index _ => false
  | .interrupted (.record (.notJson fault _)) => !fault.isDepth
  | .interrupted (.record _) => false
  | _ => true

end ProjectError

namespace Project

variable [CharacterNames]

/-- The directory that owns the index and from which paths are shown. -/
def root (tree : FileTree) (path : Path) : Except FileError Path :=
  (tree.isDirectory path).map fun there => if there then path else path.parent

/-- What a search for calls knows about names: the definitions in the files, after those
of a lexicon file if one is given. -/
def lexicon (tree : FileTree) (kind : ReferenceKind) (paths : List Path)
    (file : Option String) : Except LexiconError (Option Lexicon) :=
  if kind.requiredClass?.isNone then .ok none
  else
    let documents := paths.filterMap fun path => (Gather.load tree path).toOption
    let defined := (Harvest.ofDocuments documents).lexicon
    match file.filter (· ≠ "") with
    | none => .ok (some defined)
    | some name =>
      (NameTable.ofFile tree name).map fun table => some (.chain [.table table, defined])

structure Request where
  path : Path
  symbol : String
  kind : ReferenceKind
  useIndex : Bool := true
  lexiconFile : Option String := none

/-- The search that a request asks for and the files it is about. -/
def prepare (env : Environment) (tree : FileTree) (request : Request) :
    Except ProjectError (Search × List Path) := do
  (env.check).mapError .settings
  let paths ← (Gather.discover tree request.path env.extensions
    env.excludedDirectories.toList).mapError .discovery
  let known ← (lexicon tree request.kind paths request.lexiconFile).mapError .lexicon
  let search ← (Search.prepare request.symbol request.kind known true).mapError .symbol
  .ok (search, paths)

/-- Result of a project search with the tree it leaves. `started` says whether any file
was about to be searched. -/
structure Answer where
  result : Except ProjectError SearchResult
  started : Bool
  tree : FileTree

def search (env : Environment) (tree : FileTree) (request : Request) : Answer :=
  match prepare env tree request with
  | .error error => ⟨.error error, false, tree⟩
  | .ok (search, paths) =>
    if request.useIndex then
      match root tree request.path with
      | .error error => ⟨.error (.file error), false, tree⟩
      | .ok owner =>
        match Gather.openIndex tree owner env.indexDirectory with
        | .error error => ⟨.error (.index error), false, tree⟩
        | .ok (tree, place, index) =>
          let (outcomes, index) := Gather.searchFiles search tree index paths
          ⟨(outcomes.mapError .interrupted).map .merge, true, Gather.saveIndex tree place index⟩
    else ⟨.ok (.merge (Gather.searchAll search tree paths)), true, tree⟩

/-- Search for a kind of reference given by its name. Settings are judged before the
name is. -/
def searchNamed (env : Environment) (tree : FileTree) (kind : String)
    (request : ReferenceKind → Request) : Answer :=
  match env.check, ReferenceKind.ofName? kind with
  | .error error, _ => ⟨.error (.settings error), false, tree⟩
  | .ok (), none => ⟨.error (.unknownKind kind), false, tree⟩
  | .ok (), some kind => search env tree (request kind)

end Project
end LispXref
