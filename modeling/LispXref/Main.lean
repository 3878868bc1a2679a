import LispXref.Command.Run
import LispXref.Settings.File

/-! The command line. The files to consider are listed on standard input, one a line:
the modification time in seconds, a tab and the path. -/
namespace LispXref

def settingNames : List String :=
  ["SEXPREFS_EXTENSIONS", "SEXPREFS_EXCLUDED_DIRS", "SEXPREFS_CACHE_DIR", "SEXPREFS_THEME",
    "SEXPREFS_CONTEXT_LINES"]

def readEnvironment : IO Environment := do
  let mut bindings := []
  for name in settingNames do
    if let some value ← IO.getEnv name then
      bindings := bindings ++ [(name, value)]
  let file ← try IO.FS.readFile ".env" catch _ => pure ""
  match (Environment.mk bindings).addFile file with
  | .ok env => return env
  | .error error => throw (IO.userError error.message)

/-- The encoding named by the locale, after its point. -/
def readTerminal : IO Terminal := do
  for name in ["LC_ALL", "LC_CTYPE", "LANG"] do
    if let some value ← IO.getEnv name then
      match value.splitOn "." with
      | [_, encoding] => return Terminal.detect encoding ""
      | _ => pure ()
  return Terminal.detect "" ""

partial def readLines (input : IO.FS.Stream) (done : List String) : IO (List String) := do
  let line ← input.getLine
  if line.isEmpty then return done.reverse
  readLines input (line :: done)

/-- Time and path of a listed file. -/
def listed? (line : String) : Option (Int × Path) :=
  match (String.ofList (trimBlanks line.toList)).splitOn "\t" with
  | [time, path] => (integerSetting time).toOption.map (·, Path.ofString path)
  | _ => none

def addListed (tree : FileTree) (mtime : Int) (path : Path) : IO FileTree := do
  let some name := path.toText.toString? | return tree
  let bytes ← try IO.FS.readBinFile name catch _ => return tree
  let place := tree.here.resolve path
  match tree.writeFile place bytes.toList mtime with
  | .error _ => return tree
  | .ok added =>
    let place := place.parts.map Utf8.encodeName
    if place.getLast? = some Gather.indexName then
      match Index.ofText? ((String.fromUTF8? bytes).getD "") with
      | some index => return added.put place (.index index mtime)
      | none => return added
    else return added

/-- The names of the characters, if the system has the character database. -/
def readCharacterNames : IO CharacterNames := do
  let text ← try IO.FS.readFile "/usr/share/unicode/UnicodeData.txt" catch _ => pure ""
  return .ofDatabase (text.splitOn "\n")

def readTree (here : Path) (input : IO.FS.Stream) : IO FileTree := do
  let now : Stamp := ⟨0, 0⟩
  let empty : FileTree := ⟨[], here, now, now⟩
  let mut tree := match empty.makeDirectory here with
    | .ok (tree, _) => tree
    | .error _ => empty
  for line in ← readLines input [] do
    if let some (mtime, path) := listed? line then
      tree ← addListed tree mtime path
  return tree

/-- Keeps the indexes of a tree in their files. -/
def writeIndexes (tree : FileTree) : IO Unit := do
  for (place, node) in tree.entries do
    if let .index index _ := node then
      let path := Path.mk .root (place.map Utf8.decodeName)
      if let (some directory, some name) :=
          (path.parent.toText.toString?, path.toText.toString?) then
        IO.FS.createDirAll directory
        IO.FS.writeFile name index.toText

end LispXref

open LispXref in
def main (arguments : List String) : IO UInt32 := do
  let here := Path.ofString ((← IO.getEnv "PWD").getD "/")
  let tree ← readTree here (← IO.getStdin)
  let names ← readCharacterNames
  let run := @Command.runArguments names (← readEnvironment) (← readTerminal) tree arguments
  for record in run.records do
    for line in record.lines do
      (← IO.getStdout).write ⟨(Utf8.encodeName line ++ [0x0A]).toArray⟩
  IO.print run.stdout
  if let some error := run.raised then
    IO.eprintln error.message
  writeIndexes run.tree
  return run.exit.toUInt32
