import LispXref.Json.Parser
import LispXref.Json.Printer
import LispXref.Listing
import LispXref.Workspace.Path

/-! The occurrence index remembers, file by file, which names occur in it. An entry
counts only while the file's stamp is the one that was stored with it. It is kept as JSON. -/
namespace LispXref

/-- What tells one state of a file from another. -/
structure Stamp where
  mtime : Int
  size : Nat
  deriving DecidableEq, Repr

/-- The names of an entry, or a text that was put in their place from outside. -/
inductive Recorded where
  | names (set : NameSet)
  | text (written : String)
  deriving DecidableEq

structure IndexEntry where
  stamp : Stamp
  recorded : Recorded
  deriving DecidableEq

/-- Why the names of an entry cannot be told. -/
inductive RecordFault where
  | notJson (fault : Json.Fault) (text : String)
  | notCollection (typeName : String)
  | notMember (typeName : String)

def RecordFault.message : RecordFault → String
  | .notJson fault text => fault.message text.toList
  | .notCollection typeName => "'" ++ typeName ++ "' object is not iterable"
  | .notMember typeName => "unhashable type: '" ++ typeName ++ "'"

/-- The first value that cannot be a member of a set. -/
def notMember? (items : List Json) : Option Json :=
  items.find? fun item => match item with
    | .array _ | .object _ => true
    | _ => false

/-- What a JSON value lists: the members of an array, the characters of a string, the
field names of an object. -/
def listingOfJson : Json → Except RecordFault Listing
  | .array items =>
    match notMember? items with
    | some item => .error (.notMember item.typeName)
    | none => .ok (.ofItems items)
  | .string text => .ok (.ofItems (text.map fun code => .string [code]))
  | .object fields => .ok (.ofItems (fields.map fun field => .string field.1))
  | value => .error (.notCollection value.typeName)

def Recorded.read : Recorded → Except RecordFault Listing
  | .names set => .ok (.ofNames set)
  | .text written =>
    match Json.parse written.toList with
    | .ok value => listingOfJson value
    | .error fault => .error (.notJson fault written)

/-- Entries by path in the order in which they were stored; a path has at most one. -/
structure Index where
  entries : List (Path × IndexEntry)
  deriving DecidableEq

namespace Index

def empty : Index := ⟨[]⟩

def entry? (index : Index) (path : Path) : Option IndexEntry := index.entries.lookup path

def drop (index : Index) (path : Path) : Index := ⟨index.entries.filter (·.1 ≠ path)⟩

def put (index : Index) (path : Path) (entry : IndexEntry) : Index :=
  ⟨(index.drop path).entries ++ [(path, entry)]⟩

/-- The entry of a path if the file is there with the stamp that was stored. -/
def fresh? (index : Index) (path : Path) (stamp : Option Stamp) : Option IndexEntry :=
  (index.entry? path).filter fun entry => stamp = some entry.stamp

/-- What a fresh entry lists. A text that is no JSON counts as no entry. -/
def listing? (index : Index) (path : Path) (stamp : Option Stamp) :
    Except RecordFault (Option Listing) :=
  match index.fresh? path stamp with
  | none => .ok none
  | some entry =>
    match entry.recorded.read with
    | .ok listing => .ok (some listing)
    | .error (.notJson (.refused _ _) _) => .ok none
    | .error fault => .error fault

/-- Stores names under the file's stamp; nothing is stored for a file that is not there. -/
def record (index : Index) (path : Path) (stamp : Option Stamp) (names : NameSet) : Index :=
  match stamp with
  | some stamp => index.put path ⟨stamp, .names names⟩
  | none => index

/-- Replaces what an entry holds and leaves its stamp and its place. -/
def overwrite (index : Index) (path : Path) (text : String) : Index :=
  ⟨index.entries.map fun entry =>
    if entry.1 = path then (path, { entry.2 with recorded := .text text }) else entry⟩

structure Stats where
  files : Nat
  names : Nat
  deriving DecidableEq, Repr

/-- What all entries list, fresh or not. -/
def allListed : List (Path × IndexEntry) → Except RecordFault Listing
  | [] => .ok (.ofNames ∅)
  | (_, entry) :: rest => do
    let listing ← entry.recorded.read
    let others ← allListed rest
    .ok (listing.union others)

def stats (index : Index) : Except RecordFault Stats := do
  let listing ← allListed index.entries
  .ok ⟨index.entries.length, listing.size⟩

end Index

/-! ### The index as text -/

def Recorded.toJson : Recorded → Json
  | .names set => .array (set.toList.map .text)
  | .text written => .ofFields [("text", .text written)]

def Recorded.ofJson? : Json → Option Recorded
  | .array items => some (.names (Listing.ofItems items).names)
  | .object fields => match Json.field? fields "text" with
    | some (.string written) => written.toString?.map .text
    | _ => none
  | _ => none

namespace Index

def toText (index : Index) : String :=
  (Json.array (index.entries.map fun (path, entry) =>
    .array [.string path.toText, .integer entry.stamp.mtime, .nat entry.stamp.size,
      entry.recorded.toJson])).toText

def entryOfJson? : Json → Option (Path × IndexEntry)
  | .array [.string path, .integer mtime, .integer size, recorded] =>
    (Recorded.ofJson? recorded).map (Path.ofText path, ⟨⟨mtime, size.toNat⟩, ·⟩)
  | _ => none

def ofText? (text : String) : Option Index :=
  match Json.parse text.toList with
  | .ok (.array rows) => (rows.mapM entryOfJson?).map (⟨·⟩)
  | _ => none

end Index
end LispXref
