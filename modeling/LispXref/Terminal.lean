import LispXref.Text.Lower
import LispXref.Text.Markup

/-! Output for a terminal. One whose encoding is not known to be UTF-8 gets ASCII in
place of the icons of status lines. -/
namespace LispXref

structure Terminal where
  encoding : String
  deriving DecidableEq, Repr

namespace Terminal

/-- The encoding of the output, or else the one that the locale prefers. -/
def detect (output preferred : String) : Terminal :=
  ⟨if output ≠ "" then lower output else if preferred ≠ "" then lower preferred else "ascii"⟩

def utf8 : Terminal := ⟨"utf-8"⟩

def isUtf8 (terminal : Terminal) : Bool :=
  let name := terminal.encoding.toList.map fun c => if c = '_' then '-' else c
  name = "utf-8".toList || name = "utf8".toList

/-- Icons of status lines, each with the markup that stands for it in ASCII. -/
def icons : List (Char × String) :=
  [('✓', "\\[OK]"), ('✗', "\\[FAIL]"), ('⚠', "\\[WARN]"), ('⚡', "\\[!]"), ('→', "->"),
    ('…', "..."), ('•', "*"), ('│', "|"), ('─', "-")]

def asciiIcon (code : CodePoint) : CodeText :=
  match code.toChar?.bind (List.lookup · icons) with
  | some markup => markup
  | none => [code]

def sanitize (terminal : Terminal) (text : CodeText) : CodeText :=
  if terminal.isUtf8 then text else text.flatMap asciiIcon

/-- The warning about one document. -/
def warning (terminal : Terminal) (name : CodeText) (message : String) : CodeText :=
  terminal.sanitize ("[yellow]⚠ " ++ Markup.escape name ++ ":[/yellow] " ++ Markup.escape message)

/-- The spinner shown while something is going on. -/
def spinner (terminal : Terminal) : String := if terminal.isUtf8 then "dots" else "line"

end Terminal
end LispXref
