import LispXref.Search
import LispXref.Workspace.Glob
import LispXref.Workspace.Tree

/-! Finding files, loading them, and searching them with the occurrence index: a file
whose fresh entry lacks the symbol is passed over, and a file read to its end gets an
entry. -/
namespace LispXref.Gather

variable [CharacterNames]

/-- Something found in a tree: its place, and the components by which it was reached. -/
structure Found where
  place : Place
  parts : List CodeText

/-- What a pattern leads to from a directory. Only its last component may match what is
no directory. -/
def select (tree : FileTree) (start : Found) : List Glob.Component → List Found
  | [] => [start]
  | .anyDepth :: rest =>
    (tree.directoriesFrom start.place).flatMap fun below =>
      select tree ⟨start.place ++ below, start.parts ++ below.map Utf8.decodeName⟩ rest
  | .parent :: rest =>
    select tree ⟨start.place.dropLast, start.parts ++ [CodeText.ofString ".."]⟩ rest
  | .name pattern :: rest =>
    (tree.children start.place).flatMap fun (name, node) =>
      let part := Utf8.decodeName name
      if (rest.isEmpty || node.isDirectory) && Glob.matches? pattern part then
        select tree ⟨start.place ++ [name], start.parts ++ [part]⟩ rest
      else []

/-- Why files cannot be looked for. -/
inductive DiscoveryError where
  | file (error : FileError)
  | pattern (misuse : Glob.Misuse)

def DiscoveryError.message : DiscoveryError → String
  | .file error => error.message
  | .pattern misuse => misuse.message

/-- The files at any depth below a directory whose names end in `ext`. -/
def filesEndingIn (tree : FileTree) (root : Path) (ext : String) :
    Except DiscoveryError (List Found) := do
  let pattern := "*" ++ ext
  let wanted ← (Glob.components pattern).mapError .pattern
  match tree.node root with
  | .ok (place, .directory _) =>
    if pattern.endsWith "/" then .ok []
    else
      let isFile (found : Found) : Bool :=
        (tree.at? found.place).any fun node => !node.isDirectory
      .ok ((select tree ⟨place, []⟩ (.anyDepth :: wanted)).filter isFile)
  | _ => .ok []

/-- Keeps one of each run of equal neighbours. -/
def squeezePaths : List Path → List Path
  | a :: b :: rest => if a = b then squeezePaths (b :: rest) else a :: squeezePaths (b :: rest)
  | paths => paths

/-- Files below a directory whose names end as wanted, outside excluded directories, by
path; a root that is a file stands for itself. -/
def discover (tree : FileTree) (root : Path) (extensions excluded : List String) :
    Except DiscoveryError (List Path) := do
  if ← (tree.isFile root).mapError .file then .ok [root]
  else
    let found ← extensions.mapM (filesEndingIn tree root)
    let outside := excluded.map CodeText.ofString
    let kept := found.flatten.filter fun f => !f.parts.dropLast.any outside.contains
    let paths := kept.map fun f => { root with parts := root.parts ++ f.parts }
    .ok (squeezePaths (paths.mergeSort Path.le))

def load (tree : FileTree) (path : Path) : Except FileError Document :=
  (tree.readText path).map (⟨path.toText, ·⟩)

/-- The document at a path, or why there is none. -/
def loaded (tree : FileTree) (path : Path) : Source :=
  match load tree path with
  | .ok document => .document document
  | .error error => .failed path.toText error

/-- What ends a search before its last file. -/
inductive Interruption where
  | record (fault : RecordFault)
  | path (error : FileError)

def Interruption.message : Interruption → String
  | .record fault => fault.message
  | .path error => error.message

/-- Why a path cannot be looked up or stored: no file can have it, or it leads to a file but is
no well-formed text, while the index keeps paths as text. Any other path may just lead nowhere. -/
def keyRefusal? (tree : FileTree) (path : Path) : Option FileError :=
  match FileTree.refused? path with
  | some error => some error
  | none => if (tree.stamp? path).isSome then path.notText?.map .notEncodable else none

/-- The stamp under which a path is looked up and stored, if the file is there. -/
def keyStamp (tree : FileTree) (path : Path) : Except Interruption (Option Stamp) :=
  match keyRefusal? tree path with
  | some error => .error (.path error)
  | none => .ok (tree.stamp? path)

/-- Whether a file has a fresh entry, and what it lists. -/
def lookUp (tree : FileTree) (index : Index) (path : Path) :
    Except Interruption (Bool × Option Listing) :=
  match keyStamp tree path with
  | .error interruption => .error interruption
  | .ok stamp =>
    match index.listing? path stamp with
    | .error fault => .error (.record fault)
    | .ok listing => .ok ((index.fresh? path stamp).isSome, listing)

/-- Stores names for a file under the stamp that it has by now. -/
def store (tree : FileTree) (index : Index) (path : Path) (names : NameSet) :
    Except Interruption Index :=
  match keyStamp tree path with
  | .error interruption => .error interruption
  | .ok stamp => .ok (index.record path stamp names)

/-- Drops the entry of a path, whether there is a file or not. -/
def drop (index : Index) (path : Path) : Except Interruption Index :=
  match path.notText? with
  | some run => .error (.path (.notEncodable run))
  | none => .ok (index.drop path)

/-- The document at a path, unless a fresh entry shows that it lacks the symbol. -/
def source (tree : FileTree) (index : Index) (symbol : String) (path : Path) :
    Except Interruption Source :=
  match lookUp tree index path with
  | .error interruption => .error interruption
  | .ok (_, some listing) =>
    .ok (if symbol ∈ listing.names then loaded tree path else .skipped path.toText)
  | .ok (_, none) => .ok (loaded tree path)

def sources (tree : FileTree) (index : Index) (symbol : String) :
    List Path → Except Interruption (List Source)
  | [] => .ok []
  | path :: rest => do
    let first ← source tree index symbol path
    let others ← sources tree index symbol rest
    .ok (first :: others)

/-- The names to record for an outcome: those of a document read to its end. -/
def recordable? : Outcome → Option NameSet
  | .searched findings => findings.names
  | _ => none

/-- Records the outcome of a search in the file at a path, under the stamp that the file
has by now. -/
def remember (tree : FileTree) (index : Index) (path : Path) (outcome : Outcome) :
    Except Interruption Index :=
  match recordable? outcome with
  | some names => store tree index path names
  | none => .ok index

/-- Searches files one after another. Each outcome is recorded before the next file is
looked up. -/
def searchFiles (search : Search) (tree : FileTree) (index : Index) :
    List Path → Except Interruption (List Outcome) × Index
  | [] => (.ok [], index)
  | path :: rest =>
    match source tree index search.symbol path with
    | .error interruption => (.error interruption, index)
    | .ok found =>
      let outcome := search.outcome found
      match remember tree index path outcome with
      | .error interruption => (.error interruption, index)
      | .ok index =>
        let (others, index) := searchFiles search tree index rest
        (others.map (outcome :: ·), index)

/-- The documents at paths, without an index. -/
def loadedAll (tree : FileTree) (paths : List Path) : Except Interruption (List Source) :=
  match paths.findSome? FileTree.refused? with
  | some error => .error (.path error)
  | none => .ok (paths.map (loaded tree))

/-- Searches files without an index. -/
def searchAll (search : Search) (tree : FileTree) (paths : List Path) : List Outcome :=
  paths.map fun path => search.outcome (loaded tree path)

inductive IndexError where
  | file (error : FileError)
  | notIndex
  | notFile
  deriving DecidableEq, Repr

def IndexError.message : IndexError → String
  | .file error => error.message
  | .notIndex => "file is not a database"
  | .notFile => "unable to open database file"

def indexName : FileName := Utf8.encodeName "occurrences.db"

/-- Opens the index that belongs to a directory, making it if it is not there. An empty
file is an empty index. -/
def openIndex (tree : FileTree) (root : Path) (directory : String) :
    Except IndexError (FileTree × Place × Index) :=
  match tree.makeDirectory (root.join (Path.ofString directory)) with
  | .error error => .error (.file error)
  | .ok (tree, place) =>
    let place := place ++ [indexName]
    match tree.at? place with
    | some (.index index _) => .ok (tree, place, index)
    | some (.directory _) => .error .notFile
    | some (.file (_ :: _) _) => .error .notIndex
    | _ => .ok (tree.make place (.index .empty tree.now.mtime), place, .empty)

/-- Keeps an index at its place. -/
def saveIndex (tree : FileTree) (place : Place) (index : Index) : FileTree :=
  tree.put place (.index index tree.now.mtime)

end LispXref.Gather
