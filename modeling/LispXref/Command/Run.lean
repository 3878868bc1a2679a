import LispXref.Command.Arguments
import LispXref.Project
import LispXref.Report

/-! Running commands on a tree of files. -/
namespace LispXref.Command

/-- What a command shows and leaves. An error that the command does not report itself
is `raised`. -/
structure Run where
  exit : Nat := 0
  records : List Record := []
  stdout : String := ""
  raised : Option ProjectError := none
  tree : FileTree

def versionLine : String := "sexprefs 1.0.0\n"

def failure (terminal : Terminal) (tree : FileTree) (message : CodeText) : Run :=
  let record := (Record.line ("[bold red]Error:[/bold red] " ++ message)).sanitize terminal
  { exit := 1, records := [record], tree }

def raise (tree : FileTree) (error : ProjectError) : Run :=
  { exit := 1, raised := some error, tree }

/-- Resolves a path and looks there. A path that cannot be looked at ends the program. -/
def withPath (tree : FileTree) (text : String) (look : FileTree → Path → Except FileError Bool)
    (run : Path → Bool → Run) : Run :=
  let path := Path.ofString text
  match FileTree.refused? path with
  | some error => raise tree (.file error)
  | none =>
    let path := tree.here.resolve path
    match look tree path with
    | .error error => raise tree (.file error)
    | .ok found => run path found

variable [CharacterNames]

def runSearch (env : Environment) (terminal : Terminal) (tree : FileTree) (kind : ReferenceKind)
    (options : SearchOptions) : Run :=
  withPath tree options.path FileTree.isThere fun path isThere =>
  if !isThere then
    failure terminal tree ("Path does not exist: " ++ Markup.escape path.toText)
  else
    let answer := Project.search env tree
      ⟨path, options.symbol, kind, options.useIndex, options.lexiconFile⟩
    let tree := answer.tree
    let opening : List Record := if answer.started && !options.asJson then [.line ""] else []
    match answer.result with
    | .error error =>
      let run := if error.isReported then failure terminal tree (Markup.escape error.message)
        else raise tree error
      { run with records := opening ++ run.records }
    | .ok result =>
      match Project.root tree path with
      | .error error => raise tree (.file error)
      | .ok root =>
        if options.asJson then
          { stdout := (Report.json tree (some root) result).toText ++ "\n", tree }
        else
          let context := options.context.getD (env.contextLines.toOption.getD 0).toNat
          match Report.records tree terminal (some root) context result with
          | .ok records => { records := opening ++ records, tree }
          | .error error => { raise tree (.file error) with records := opening }

/-- Runs an action on the index of a directory. -/
def withIndex (env : Environment) (terminal : Terminal) (tree : FileTree) (path : String)
    (action : Path → Index → Except RecordFault (Index × List Record)) : Run :=
  withPath tree path FileTree.isDirectory fun path isDirectory =>
  if !isDirectory then
    failure terminal tree ("Not a directory: " ++ Markup.escape path.toText)
  else match env.check with
    | .error error => raise tree (.settings error)
    | .ok () =>
      match Gather.openIndex tree path env.indexDirectory with
      | .error error => raise tree (.index error)
      | .ok (tree, place, index) =>
        match action path index with
        | .error fault => raise tree (.interrupted (.record fault))
        | .ok (index, records) =>
          { records := records.map (·.sanitize terminal)
            tree := Gather.saveIndex tree place index }

def cleared (path : Path) (_ : Index) : Except RecordFault (Index × List Record) :=
  .ok (.empty, [.line ("[green]✓ Cache cleared for " ++ Markup.escape path.toText ++ "[/green]")])

def counted (path : Path) (index : Index) : Except RecordFault (Index × List Record) := do
  let stats ← index.stats
  .ok (index, [.table ("Cache Statistics: " ++ path.toText) ["Metric", "Count"]
    [["Total Files Cached", toString stats.files], ["Distinct Symbols", toString stats.names]]])

def run (env : Environment) (terminal : Terminal) (tree : FileTree) : Command → Run
  | .search kind options => runSearch env terminal tree kind options
  | .clearIndex path => withIndex env terminal tree path cleared
  | .indexStats path => withIndex env terminal tree path counted
  | .version => { stdout := versionLine, tree }
  | .help => { tree }

/-- Reads and runs a command line. A mistake in its use has exit code 2. -/
def runArguments (env : Environment) (terminal : Terminal) (tree : FileTree)
    (arguments : List String) : Run :=
  match parse arguments with
  | some command => run env terminal tree command
  | none => { exit := 2, tree }

end LispXref.Command
