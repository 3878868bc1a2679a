import LispXref.Json.Printer
import LispXref.Search
import LispXref.Terminal
import LispXref.Workspace.Tree

/-! Search results for people, with per document a link and its snippets, then a summary and
the documents that could not be read; and search results as JSON. A snippet is a match with
the rest of the lines it touches and some lines around. -/
namespace LispXref

/-- Lines of a document; the first has number `firstLine`. -/
structure Snippet where
  firstLine : Nat
  code : List Char
  deriving DecidableEq, Repr

namespace Snippet

variable (text : List Char)

/-- The offset of the last newline before an offset. -/
def newlineBefore? (offset : Nat) : Option Nat :=
  let before := text.take offset
  (before.reverse.findIdx? (· = '\n')).map (before.length - 1 - ·)

/-- The offset of the first newline at an offset or after it. -/
def newlineFrom? (offset : Nat) : Option Nat :=
  ((text.drop offset).findIdx? (· = '\n')).map (offset + ·)

/-- Where the line begins that an offset falls on. -/
def lineStart (offset : Nat) : Nat :=
  match newlineBefore? text offset with
  | some newline => newline + 1
  | none => 0

/-- Where the line ends that an offset falls on. -/
def lineEnd (offset : Nat) : Nat := (newlineFrom? text offset).getD text.length

/-- Goes from the beginning of a line back by a number of lines, as far as there are any. -/
def startAbove (start : Nat) : (count : Nat) → Nat
  | 0 => start
  | count + 1 => if start = 0 then start else startAbove (lineStart text (start - 1)) count

/-- Goes from the end of a line on by a number of lines, as far as there are any. -/
def stopBelow (stop : Nat) : (count : Nat) → Nat
  | 0 => stop
  | count + 1 =>
    if text.length ≤ stop then stop else stopBelow (lineEnd text (stop + 1)) count

end Snippet

/-- The lines that a match touches with `context` more before and after. -/
def Match.snippet (m : Match) (context : Nat) : Snippet :=
  let text := m.document.text
  let start := Snippet.startAbove text (Snippet.lineStart text (m.start - 1)) context
  let stop := Snippet.stopBelow text (Snippet.lineEnd text (m.stop - 1)) context
  ⟨(text.take start).count '\n' + 1, Span.slice ⟨start, stop⟩ text⟩

/-- One thing that a console shows. -/
inductive Record where
  | line (markup : CodeText)
  | panel (title : CodeText) (snippet : Snippet) (highlight : Nat)
  | table (title : CodeText) (columns : List String) (rows : List (List String))

namespace Record

/-- Lines are made fit for the terminal; panels and tables are drawn as they are. -/
def sanitize (terminal : Terminal) : Record → Record
  | .line markup => .line (terminal.sanitize markup)
  | record => record

def numberedLines (first : Nat) (code : List Char) : List CodeText :=
  (CodeText.splitOn '\n' (code.map .ofChar)).mapIdx fun i line =>
    toString (first + i) ++ " " ++ line

/-- The lines of a record on a terminal that draws nothing. -/
def lines : Record → List CodeText
  | .line markup => [markup]
  | .panel title snippet _ => title :: numberedLines snippet.firstLine snippet.code
  | .table title columns rows => title :: (columns :: rows).map fun row => " | ".intercalate row

end Record

namespace Report

/-- The name of a document as seen from `root` if it lies there. -/
def displayName (tree : FileTree) (root : Option Path) (name : CodeText) : CodeText :=
  match root with
  | none => name
  | some root =>
    let path := Path.ofText name
    if (FileTree.refused? path).isSome then name
    else match (tree.here.resolve path).relativeTo? root with
      | some path => path.toText
      | none => name

/-- The heading of a document, which links to its file if there is one. -/
def heading (tree : FileTree) (root : Option Path) (name : CodeText) :
    Except FileError CodeText := do
  let shown := Markup.escape (displayName tree root name)
  let path := Path.ofText name
  let linked : CodeText :=
    if ← tree.isThere path then
      "[link=" ++ (tree.here.resolve path).address ++ "]" ++ shown ++ "[/link]"
    else shown
  .ok ("[bold magenta]" ++ linked ++ "[/bold magenta]")

def summary (result : SearchResult) : String :=
  let references := if result.matchCount = 1 then " reference in " else " references in "
  let files := if result.documentCount = 1 then " file." else " files."
  "Found " ++ toString result.matchCount ++ references ++ toString result.documentCount ++ files

def panel (tree : FileTree) (root : Option Path) (context : Nat) (m : Match) : Record :=
  .panel (Markup.escape (displayName tree root m.document.name) ++ ":" ++ toString m.line)
    (m.snippet context) m.line

def group (tree : FileTree) (root : Option Path) (context : Nat)
    (found : Document × List Match) : Except FileError (List Record) :=
  (heading tree root found.1.name).map fun heading =>
    .line heading :: found.2.map (panel tree root context) ++ [.line ""]

def errorLine (tree : FileTree) (terminal : Terminal) (root : Option Path)
    (error : DocumentError) : Record :=
  let place := displayName tree root error.name
  let place := match error.offset? with
    | some offset => place ++ " (offset " ++ toString offset ++ ")"
    | none => place
  .line (terminal.warning place error.message)

/-- Everything that a console shows of a search. -/
def records (tree : FileTree) (terminal : Terminal) (root : Option Path) (context : Nat)
    (result : SearchResult) : Except FileError (List Record) := do
  let outcome :=
    if result.matchCount = 0 then "[yellow]" ++ summary result ++ "[/yellow]"
    else "[bold green]" ++ summary result ++ "[/bold green]"
  let errors : List Record :=
    if result.errors.isEmpty then []
    else .line "" :: .line "[bold yellow]Documents With Errors[/bold yellow]"
      :: result.errors.map (errorLine tree terminal root)
  let groups ← result.groups.mapM (group tree root context)
  let shown := groups.flatten
    ++ [.line outcome, .line ("[dim]Documents scanned: " ++ toString result.scanned ++ "[/dim]")]
    ++ errors
  .ok (shown.map (·.sanitize terminal))

def matchJson (tree : FileTree) (root : Option Path) (m : Match) : Json :=
  .ofFields [("file", .string (displayName tree root m.document.name)), ("line", .nat m.line),
    ("start", .nat m.start), ("end", .nat m.stop), ("text", .string (m.text.map .ofChar))]

def errorJson (tree : FileTree) (root : Option Path) (error : DocumentError) : Json :=
  .ofFields [("file", .string (displayName tree root error.name)),
    ("offset", (error.offset?.map Json.nat).getD .null), ("message", .text error.message)]

def json (tree : FileTree) (root : Option Path) (result : SearchResult) : Json :=
  .ofFields [("matches", .array (result.allMatches.map (matchJson tree root))),
    ("match_count", .nat result.matchCount), ("document_count", .nat result.documentCount),
    ("documents_scanned", .nat result.scanned),
    ("errors", .array (result.errors.map (errorJson tree root)))]

end Report
end LispXref
