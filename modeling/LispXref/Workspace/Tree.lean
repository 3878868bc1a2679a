import LispXref.Workspace.FileError
import LispXref.Workspace.Index

/-! A tree of files. Every directory but the outermost one is an entry of its own, and
an occurrence index is a file of its own kind. -/
namespace LispXref

inductive Node where
  | directory (stamp : Stamp)
  | file (bytes : List UInt8) (mtime : Int)
  | index (index : Index) (mtime : Int)

namespace Node

def isDirectory : Node → Bool
  | .directory _ => true
  | _ => false

/-- What is in a file. An index is kept as text. -/
def bytes? : Node → Option (List UInt8)
  | .directory _ => none
  | .file bytes _ => some bytes
  | .index kept _ => some (Utf8.encode kept.toText.toList)

def stamp : Node → Stamp
  | .directory stamp => stamp
  | .file bytes mtime => ⟨mtime, bytes.length⟩
  | .index kept mtime => ⟨mtime, (Utf8.encode kept.toText.toList).length⟩

end Node

/-- The name of a file: any bytes. -/
abbrev FileName := List UInt8

/-- Where a node is: the names that lead to it from the outermost directory. -/
abbrev Place := List FileName

/-- The files below the outermost directory and the directory from which relative paths are
taken. `outermost` is the stamp of the outermost directory and `now` the one that a directory gets
when something is made or removed in it. -/
structure FileTree where
  entries : List (Place × Node)
  here : Path
  outermost : Stamp
  now : Stamp

namespace FileTree

def at? (tree : FileTree) (place : Place) : Option Node :=
  if place = [] then some (.directory tree.outermost) else tree.entries.lookup place

def put (tree : FileTree) (place : Place) (node : Node) : FileTree :=
  { tree with entries := (place, node) :: tree.entries.filter (·.1 ≠ place) }

def erase (tree : FileTree) (place : Place) : FileTree :=
  { tree with entries := tree.entries.filter (·.1 ≠ place) }

/-- Gives a directory a stamp. -/
def restamp (tree : FileTree) (place : Place) (stamp : Stamp) : FileTree :=
  if place = [] then { tree with outermost := stamp } else tree.put place (.directory stamp)

/-- Puts a node where there may have been none, which changes its directory. -/
def make (tree : FileTree) (place : Place) (node : Node) : FileTree :=
  let there := (tree.at? place).isSome
  let tree := tree.put place node
  if there then tree else tree.restamp place.dropLast tree.now

/-- The name that leads from a directory to the one around it. -/
def doubleDot : FileName := [0x2E, 0x2E]

/-- The place that a name leads to. -/
def step (place : Place) (name : FileName) : Place :=
  if name = doubleDot then place.dropLast else place ++ [name]

/-- Longest name of a file, in bytes. -/
def nameLimit : Nat := 255

/-- Longest path, in bytes. -/
def pathLimit : Nat := 4095

/-- Goes along components from a place; all but the last must be directories. -/
def follow (tree : FileTree) (path : Path) (place : Place) :
    List CodeText → Except FileError Place
  | [] => .ok place
  | part :: rest =>
    let name := Utf8.encodeName part
    match tree.at? place with
    | none => .error (.missing path.toText)
    | some (.directory _) =>
      if nameLimit < name.length then .error (.nameTooLong path.toText)
      else tree.follow path (step place name) rest
    | some _ => .error (.notDirectory path.toText)

/-- Why a path is refused before any file is looked for: it cannot be encoded, or it holds a null
character. -/
def refused? (path : Path) : Option FileError :=
  match path.unnameable? with
  | some run => some (.notEncodable run)
  | none => if path.hasNull then some .nullCharacter else none

/-- Refuses a path that can lead to no file in any tree. -/
def checkPath (path : Path) : Except FileError Unit :=
  match refused? path with
  | some error => .error error
  | none =>
    if pathLimit < (Utf8.encodeName path.toText).length then .error (.nameTooLong path.toText)
    else .ok ()

/-- The node that a path leads to. -/
def node (tree : FileTree) (path : Path) : Except FileError (Place × Node) := do
  checkPath path
  let place ← tree.follow path [] (tree.here.join path).parts
  match tree.at? place with
  | some node => .ok (place, node)
  | none => .error (.missing path.toText)

def node? (tree : FileTree) (path : Path) : Option Node :=
  match tree.node path with
  | .ok (_, node) => some node
  | .error _ => none

/-- Looks whether there is a node. That a name is too long is an error even then. -/
def probe (tree : FileTree) (path : Path) : Except FileError (Option Node) :=
  match tree.node path with
  | .ok (_, node) => .ok (some node)
  | .error (.nameTooLong long) => .error (.nameTooLong long)
  | .error _ => .ok none

def isThere (tree : FileTree) (path : Path) : Except FileError Bool :=
  (tree.probe path).map Option.isSome

def isDirectory (tree : FileTree) (path : Path) : Except FileError Bool :=
  (tree.probe path).map fun node => node.any Node.isDirectory

def isFile (tree : FileTree) (path : Path) : Except FileError Bool :=
  (tree.probe path).map fun node => node.any fun node => !node.isDirectory

def stamp? (tree : FileTree) (path : Path) : Option Stamp := (tree.node? path).map Node.stamp

def readBytes (tree : FileTree) (path : Path) : Except FileError (List UInt8) :=
  match tree.node path with
  | .error error => .error error
  | .ok (_, node) =>
    match node.bytes? with
    | some bytes => .ok bytes
    | none => .error (.isDirectory path.toText)

def readText (tree : FileTree) (path : Path) : Except FileError (List Char) :=
  match tree.readBytes path with
  | .error error => .error error
  | .ok bytes =>
    match Utf8.decode bytes with
    | .ok text => .ok (unifyLineEnds text)
    | .error fault => .error (.notText fault)

/-- Makes the directories along components that are not there yet. -/
def makeAlong (tree : FileTree) (path : Path) (place : Place) :
    List CodeText → Except FileError (FileTree × Place)
  | [] => .ok (tree, place)
  | part :: rest =>
    let name := Utf8.encodeName part
    let next := step place name
    if nameLimit < name.length then .error (.nameTooLong path.toText)
    else match tree.at? next with
      | some (.directory _) => tree.makeAlong path next rest
      | none => (tree.make next (.directory tree.now)).makeAlong path next rest
      | some _ =>
        .error (if rest = [] then .alreadyExists path.toText else .notDirectory path.toText)

/-- Makes a directory with all that lead to it. -/
def makeDirectory (tree : FileTree) (path : Path) : Except FileError (FileTree × Place) := do
  checkPath path
  tree.makeAlong path [] (tree.here.join path).parts

/-- Writes a file, making the directories that lead to it. -/
def writeFile (tree : FileTree) (path : Path) (bytes : List UInt8) (mtime : Int) :
    Except FileError FileTree := do
  let full := tree.here.join path
  let (tree, place) ← tree.makeDirectory full.parent
  checkPath path
  match full.parts.getLast? with
  | none => .error (.isDirectory path.toText)
  | some part =>
    let name := Utf8.encodeName part
    let place := step place name
    if nameLimit < name.length then .error (.nameTooLong path.toText)
    else if (tree.at? place).any Node.isDirectory then .error (.isDirectory path.toText)
    else .ok (tree.make place (.file bytes mtime))

def remove (tree : FileTree) (path : Path) : Except FileError FileTree :=
  match tree.node path with
  | .ok (_, .directory _) => .error (.isDirectory path.toText)
  | .ok (place, _) => .ok ((tree.erase place).restamp place.dropLast tree.now)
  | .error error => .error error

def touch (tree : FileTree) (path : Path) (mtime : Int) : Except FileError FileTree :=
  match tree.node path with
  | .ok (place, .directory stamp) => .ok (tree.restamp place { stamp with mtime })
  | .ok (place, .file bytes _) => .ok (tree.put place (.file bytes mtime))
  | .ok (place, .index index _) => .ok (tree.put place (.index index mtime))
  | .error error => .error error

/-- What lies directly in a directory, by name. -/
def children (tree : FileTree) (place : Place) : List (FileName × Node) :=
  tree.entries.filterMap fun (other, node) =>
    match other.getLast? with
    | some name => if other.dropLast = place then some (name, node) else none
    | none => none

/-- A directory and all directories below it, as names from there. -/
def directoriesFrom (tree : FileTree) (place : Place) : List Place :=
  [] :: tree.entries.filterMap fun (other, node) =>
    if place.isPrefixOf other && other ≠ place && node.isDirectory then
      some (other.drop place.length)
    else none

end FileTree
end LispXref
