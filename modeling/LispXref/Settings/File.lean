import LispXref.Settings.Environment
import LispXref.Text.CharClass
import LispXref.Text.Utf8

/-! Settings files. A line gives a variable its value, which may be quoted and may refer
to variables set before it; a quoted value may go over several lines. What is no such
line is passed over. -/
namespace LispXref.SettingsFile

def isInlineBlank (c : Char) : Bool := isBlank c && c ≠ '\n'

def skipInline (text : List Char) : List Char := text.dropWhile isInlineBlank

/-- What follows the line that a text opens with. -/
def afterLine (text : List Char) : List Char := (text.dropWhile (· ≠ '\n')).drop 1

/-- Cuts a remark: a sharp after a blank. -/
def cutRemark : List Char → List Char
  | [] => []
  | c :: rest =>
    if isBlank c ∧ (rest.dropWhile isBlank).head? = some '#' then [] else c :: cutRemark rest

/-- Where a quoted text ends: at its first quotation mark without a backslash before it,
or else at the last mark there is. `last` is the last mark passed, `guarded` tells
whether a backslash was just passed. -/
def closingFrom (mark : Char) (index : Nat) (last : Option Nat) (guarded : Bool) :
    List Char → Option Nat
  | [] => last
  | c :: rest =>
    if c = mark then
      if guarded then closingFrom mark (index + 1) (some index) false rest else some index
    else closingFrom mark (index + 1) last (c = '\\') rest

def closing? (mark : Char) (body : List Char) : Option Nat := closingFrom mark 0 none false body

/-- The characters that may be escaped between double quotes, and what they stand for. -/
def escapes : List (Char × Char) :=
  [('\\', '\\'), ('\'', '\''), ('"', '"'), ('a', '\x07'), ('b', '\x08'), ('f', '\x0c'),
    ('n', '\n'), ('r', '\r'), ('t', '\t'), ('v', '\x0b')]

/-- Between single quotes only a backslash and a single quote may be escaped. -/
def plainEscapes : List (Char × Char) := [('\\', '\\'), ('\'', '\'')]

def unescape (known : List (Char × Char)) : List Char → List Char
  | '\\' :: c :: rest =>
    match known.lookup c with
    | some meant => meant :: unescape known rest
    | none => '\\' :: unescape known (c :: rest)
  | c :: rest => c :: unescape known rest
  | [] => []

/-- A value and what follows it; none for quotes without an end. -/
def value? (text : List Char) : Option (List Char × List Char) :=
  let quoted (mark : Char) (known : List (Char × Char)) (body : List Char) :
      Option (List Char × List Char) :=
    (closing? mark body).map fun n => (unescape known (body.take n), body.drop (n + 1))
  match skipInline text with
  | '\'' :: body => quoted '\'' plainEscapes body
  | '"' :: body => quoted '"' escapes body
  | _ => some (trimBlanks (cutRemark (text.takeWhile (· ≠ '\n'))), text.dropWhile (· ≠ '\n'))

/-- The name of a variable and what follows it. A name may stand in single quotes. -/
def name? : List Char → Option (List Char × List Char)
  | '\'' :: rest =>
    let name := rest.takeWhile (· ≠ '\'')
    match rest.dropWhile (· ≠ '\'') with
    | _ :: after => if name = [] then none else some (name, after)
    | [] => none
  | text =>
    let isPart (c : Char) : Bool := c ≠ '=' && c ≠ '#' && !isBlank c
    let name := text.takeWhile isPart
    if name = [] then none else some (name, text.dropWhile isPart)

/-- Passes the word that may stand before a name. -/
def skipExport (text : List Char) : List Char :=
  match text with
  | 'e' :: 'x' :: 'p' :: 'o' :: 'r' :: 't' :: c :: rest =>
    if isInlineBlank c then skipInline rest else text
  | _ => text

/-- What follows the end of a line, if nothing but blanks and a remark come before it. -/
def endOfLine? (text : List Char) : Option (List Char) :=
  let text := match skipInline text with
    | '#' :: rest => rest.dropWhile (· ≠ '\n')
    | rest => rest
  match text with
  | [] => some []
  | '\n' :: rest => some rest
  | _ => none

/-- A variable with its value; one that is named only has none. -/
structure Line where
  name : String
  value : Option (List Char)
  deriving DecidableEq, Repr

/-- Reads one line, which starts with no blank. The second part is what follows. -/
def readLine (text : List Char) : Option Line × List Char :=
  let text := skipExport text
  if text.head? = some '#' then (none, afterLine text)
  else match name? text with
    | none => (none, afterLine text)
    | some (name, rest) =>
      let finish (value : Option (List Char)) (rest : List Char) : Option Line × List Char :=
        match endOfLine? rest with
        | some after => (some ⟨String.ofList name, value⟩, after)
        | none => (none, afterLine rest)
      match skipInline rest with
      | '=' :: rest =>
        match value? rest with
        | some (value, rest) => finish (some value) rest
        | none => (none, afterLine rest)
      | rest => finish none rest

/-- The lines of a text. Each takes a character at least, so the length is fuel enough. -/
def linesFrom : (fuel : Nat) → List Char → List Line
  | 0, _ => []
  | fuel + 1, text =>
    match text.dropWhile isBlank with
    | [] => []
    | text =>
      let (line, rest) := readLine text
      line.toList ++ linesFrom fuel rest

def lines (text : List Char) : List Line :=
  let text := unifyLineEnds text
  linesFrom text.length text

/-- A variable that a text opens with, in braces after a dollar sign, with the value to
take if it is not set: what stands after a colon and a hyphen. -/
structure Mention where
  name : String
  fallback : List Char
  tail : List Char

def mention? (text : List Char) : Option Mention :=
  match text with
  | '$' :: '\x7b' :: rest =>
    let isPart (c : Char) : Bool := c ≠ '\x7d' && c ≠ ':'
    let name := String.ofList (rest.takeWhile isPart)
    match rest.dropWhile isPart with
    | '\x7d' :: tail => some ⟨name, [], tail⟩
    | ':' :: '-' :: more =>
      match more.dropWhile (· ≠ '\x7d') with
      | _ :: tail => some ⟨name, more.takeWhile (· ≠ '\x7d'), tail⟩
      | [] => none
    | _ => none
  | _ => none

/-- Puts in the values of the variables that a text mentions; `look` gives them. -/
def expandFrom (look : String → Option (List Char)) : (fuel : Nat) → List Char → List Char
  | 0, text => text
  | _ + 1, [] => []
  | fuel + 1, c :: rest =>
    match mention? (c :: rest) with
    | some m => (look m.name).getD m.fallback ++ expandFrom look fuel m.tail
    | none => c :: expandFrom look fuel rest

def expand (look : String → Option (List Char)) (text : List Char) : List Char :=
  expandFrom look text.length text

/-- The values of the variables in a file, the last line for each one counting. The
environment comes before the file where a variable is mentioned. -/
def valuesFrom (env : Environment) (done : List (String × Option (List Char))) :
    List Line → List (String × Option (List Char))
  | [] => done
  | line :: rest =>
    let look (name : String) : Option (List Char) :=
      match env.get? name with
      | some value => some value.toList
      | none => (done.lookup name).map (·.getD [])
    let value := line.value.map (expand look)
    let done := if done.any (·.1 = line.name) then
        done.map fun entry => if entry.1 = line.name then (line.name, value) else entry
      else done ++ [(line.name, value)]
    valuesFrom env done rest

end LispXref.SettingsFile

namespace LispXref.Environment

/-- Adds the variables of a settings file; those already there stay. -/
def addFile (env : Environment) (text : String) : Except SettingsError Environment :=
  let values := SettingsFile.valuesFrom env [] (SettingsFile.lines text.toList)
  values.foldlM (fun (now : Environment) entry =>
    match entry.2 with
    | some value =>
      if (env.get? entry.1).isSome then .ok now else now.set entry.1 (String.ofList value)
    | none => .ok now) env

end LispXref.Environment
