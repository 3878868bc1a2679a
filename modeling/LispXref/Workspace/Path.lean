import LispXref.Text.Utf8

/-! Paths as lists of components. Empty components and single dots never count; double
dots are kept until a path is resolved. -/
namespace LispXref

/-- Where a path starts. Exactly two slashes are a spelling of the root of their own. -/
inductive Anchor where
  | here | root | doubleRoot
  deriving DecidableEq, Repr

def Anchor.text : Anchor → String
  | .here => ""
  | .root => "/"
  | .doubleRoot => "//"

/-- A component may hold what stands for bytes that belong to no character. -/
structure Path where
  anchor : Anchor
  parts : List CodeText
  deriving DecidableEq, Repr

namespace Path

def isSlash (code : CodePoint) : Bool := code = '/'

def ofText (text : CodeText) : Path :=
  let anchor := match (text.takeWhile isSlash).length with
    | 0 => Anchor.here
    | 2 => Anchor.doubleRoot
    | _ => Anchor.root
  ⟨anchor, (text.splitOn '/').filter fun part => part ≠ [] && part ≠ "."⟩

def ofString (text : String) : Path := ofText text

def root : Path := ⟨.root, []⟩

def toText (path : Path) : CodeText :=
  if path.anchor = .here ∧ path.parts = [] then "."
  else path.anchor.text ++ List.intercalate "/" path.parts

/-- No file has a null character in its path. -/
def hasNull (path : Path) : Bool := path.parts.any fun part => part.contains '\x00'

/-- What in a path can be no part of a file name. -/
def unnameable? (path : Path) : Option Utf8.Unencodable :=
  Utf8.unencodable? CodePoint.isUnnameable path.toText

/-- What keeps a path from being well-formed text, a stray byte included. -/
def notText? (path : Path) : Option Utf8.Unencodable :=
  Utf8.unencodable? CodePoint.isSurrogate path.toText

/-- A path taken from a directory; an absolute one stands for itself. -/
def join (base path : Path) : Path :=
  if path.anchor = .here then ⟨base.anchor, base.parts ++ path.parts⟩ else path

def parent (path : Path) : Path := { path with parts := path.parts.dropLast }

/-- Folds double dots; nothing lies above the root. -/
def fold (parts : List CodeText) : List CodeText :=
  parts.foldl (fun (done : List CodeText) (part : CodeText) =>
    if part = ".." then done.dropLast else done ++ [part]) []

/-- The absolute path without double dots, as seen from directory `here`. -/
def resolve (here path : Path) : Path := ⟨.root, fold (here.join path).parts⟩

/-- The path as seen from `base`, if it lies there. -/
def relativeTo? (path base : Path) : Option Path :=
  if path.anchor = base.anchor ∧ base.parts <+: path.parts then
    some ⟨.here, path.parts.drop base.parts.length⟩
  else none

/-- The order of two lists of components: by the first that differ. -/
def partsLe : List CodeText → List CodeText → Bool
  | [], _ => true
  | _ :: _, [] => false
  | a :: as, b :: bs => if a = b then partsLe as bs else a.le b

def le (a b : Path) : Bool := partsLe a.parts b.parts

/-- Bytes that a file address shows as they are. -/
def isPlainByte (b : UInt8) : Bool :=
  let c := Char.ofNat b.toNat
  c.isAlphanum || c = '_' || c = '.' || c = '-' || c = '~' || c = '/'

def addressByte (b : UInt8) : List Char :=
  if isPlainByte b then [Char.ofNat b.toNat] else '%' :: (hexDigits 2 b.toNat).map Char.toUpper

/-- The address of a file for a link. -/
def address (path : Path) : String :=
  "file://" ++ String.ofList ((Utf8.encodeName path.toText).flatMap addressByte)

end Path
end LispXref
