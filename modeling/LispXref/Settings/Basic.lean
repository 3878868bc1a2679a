import LispXref.NameSet
import LispXref.Numeral.Integer
import LispXref.Settings.Environment
import LispXref.Text.CharClass
import LispXref.Text.Lower

/-! Settings from environment variables. Every view reads the variables as they are
then; whether they make sense is checked once, at the start. -/
namespace LispXref

def SettingsError.message : SettingsError → String
  | .noExtensions =>
    "SEXPREFS_EXTENSIONS is empty. Set it to a comma-separated list such as '.el'."
  | .badContext => "SEXPREFS_CONTEXT_LINES must be a non-negative integer."
  | .notInteger text =>
    "invalid literal for int() with base 10: "
      ++ String.ofList ((quotedChars text).take 200)
  | .tooManyDigits count => Integer.limitMessage count
  | .nullCharacter => "embedded null byte"
  | .illegalName => "illegal environment variable name"

/-- Blanks that may stand around an integer: all but the four separators of ASCII. -/
def isIntegerBlank (c : Char) : Bool := isBlank c && !(0x1C ≤ c.toNat && c.toNat ≤ 0x1F)

/-- Whether underscores stand only between two digits, in a text of digits and underscores. -/
def areGroups : List Char → Bool
  | [] => false
  | ['_'] => false
  | [_] => true
  | a :: b :: rest => !(a = '_' && b = '_') && areGroups (b :: rest)

/-- An integer of at most 4300 decimal digits of any script, with blanks around it, an
optional sign, and single underscores between digits. The digits are counted before what
follows them is looked at. -/
def integerSetting (text : String) : Except SettingsError Int :=
  let (negative, body) := Integer.splitSign (text.toList.dropWhile isIntegerBlank)
  let isPart (c : Char) : Bool := c = '_' || (decimalDigit? c).isSome
  let groups := body.takeWhile isPart
  if groups.head? = some '_' || !areGroups groups then .error (.notInteger text)
  else
    let digits := groups.filterMap decimalDigit?
    if Integer.digitLimit < digits.length then .error (.tooManyDigits digits.length)
    else if (body.dropWhile isPart).all isIntegerBlank then
      .ok (Integer.applySign negative (digits.foldl (fun value d => value * 10 + d) 0))
    else .error (.notInteger text)

namespace Environment

def value (env : Environment) (name fallback : String) : String := (env.get? name).getD fallback

def trimmed (text : String) : String := String.ofList (trimBlanks text.toList)

/-- The endings of the files to search, in lower case and each with a dot in front. -/
def extensions (env : Environment) : List String :=
  (((env.value "SEXPREFS_EXTENSIONS" ".el").splitOn ",").map fun part =>
    lower (trimmed part)).filter (· ≠ "") |>.map fun ext =>
      if ext.startsWith "." then ext else "." ++ ext

/-- Names of directories that are passed over. -/
def excludedDirectories (env : Environment) : NameSet :=
  let listed := env.value "SEXPREFS_EXCLUDED_DIRS"
    ".git,.cask,.eldev,elpa,node_modules,.sexprefs_cache"
  .ofList (((listed.splitOn ",").map trimmed).filter (· ≠ ""))

/-- Where the occurrence index is kept, seen from the directory searched. -/
def indexDirectory (env : Environment) : String :=
  env.value "SEXPREFS_CACHE_DIR" ".sexprefs_cache"

def theme (env : Environment) : String := env.value "SEXPREFS_THEME" "monokai"

/-- How many lines to show around each match. -/
def contextLines (env : Environment) : Except SettingsError Int :=
  integerSetting (env.value "SEXPREFS_CONTEXT_LINES" "0")

def check (env : Environment) : Except SettingsError Unit :=
  if env.extensions = [] then .error .noExtensions
  else match env.contextLines with
    | .ok n => if n < 0 then .error .badContext else .ok ()
    | .error _ => .error .badContext

end Environment
end LispXref
