import LispXref.Text.CodePoint

/-! Name patterns: a star for any characters, a question mark for one, and classes of
characters in square brackets. Case counts. A pattern of several components matches
paths, and two stars are a component for any number of directories. -/
namespace LispXref.Glob

/-- Whether a code point is in a class written as single characters and ranges. -/
def inClass (code : CodePoint) : List Char → Bool
  | low :: '-' :: high :: rest =>
    (CodePoint.ofChar low ≤ code && code ≤ CodePoint.ofChar high) || inClass code rest
  | c :: rest => code = c || inClass code rest
  | [] => false

/-- Splits a class, of which the opening bracket has been taken, from what follows it.
A closing bracket in the first place belongs to the class. -/
def splitClass (text : List Char) : Option (Bool × List Char × List Char) :=
  let (negated, body) := match text with
    | '!' :: rest => (true, rest)
    | _ => (false, text)
  match body with
  | [] => none
  | first :: rest =>
    if ']' ∈ rest then
      some (negated, first :: rest.takeWhile (· ≠ ']'), (rest.dropWhile (· ≠ ']')).drop 1)
    else none

/-- What one piece of a pattern takes of a name. -/
inductive Piece where
  | anyText
  | oneOf (accepts : CodePoint → Bool)

/-- The pieces of a pattern. Each takes a character at least, so the length is fuel
enough. -/
def piecesFrom : (fuel : Nat) → List Char → List Piece
  | 0, _ => []
  | _ + 1, [] => []
  | fuel + 1, '*' :: rest => .anyText :: piecesFrom fuel rest
  | fuel + 1, '?' :: rest => .oneOf (fun _ => true) :: piecesFrom fuel rest
  | fuel + 1, '[' :: rest =>
    match splitClass rest with
    | some (negated, members, after) =>
      .oneOf (fun code => inClass code members != negated) :: piecesFrom fuel after
    | none => .oneOf (fun code => code = '[') :: piecesFrom fuel rest
  | fuel + 1, c :: rest => .oneOf (fun code => code = c) :: piecesFrom fuel rest

def pieces (pattern : List Char) : List Piece := piecesFrom pattern.length pattern

/-- One code point and then what `later` accepts; `later` tells it of every ending of the
name, from the whole name to the empty one. -/
def afterOne (accepts : CodePoint → Bool) : CodeText → List Bool → List Bool
  | code :: name, _ :: later => (accepts code && later.headD false) :: afterOne accepts name later
  | _, _ => [false]

/-- Any text and then what `later` accepts. -/
def afterAny (later : List Bool) : List Bool :=
  later.foldr (fun here below => (here || below.headD false) :: below) []

/-- For every ending of a name, from the whole name to the empty one, whether the pieces
match it. -/
def accepted (name : CodeText) : List Piece → List Bool
  | [] => name.map (fun _ => false) ++ [true]
  | .anyText :: rest => afterAny (accepted name rest)
  | .oneOf accepts :: rest => afterOne accepts name (accepted name rest)

/-- Whether a pattern matches a whole name. -/
def matches? (pattern : String) (name : CodeText) : Bool :=
  (accepted name (pieces pattern.toList)).headD false

inductive Component where
  | anyDepth
  | parent
  | name (pattern : String)
  deriving DecidableEq, Repr

/-- Two stars stand in a component with something else. -/
inductive Misuse where
  | mixedStars
  deriving DecidableEq, Repr

def Misuse.message : Misuse → String
  | .mixedStars => "Invalid pattern: '**' can only be an entire path component"

def hasTwoStars : List Char → Bool
  | '*' :: '*' :: _ => true
  | _ :: rest => hasTwoStars rest
  | [] => false

def component (text : String) : Except Misuse Component :=
  if text = "**" then .ok .anyDepth
  else if text = ".." then .ok .parent
  else if hasTwoStars text.toList then .error .mixedStars
  else .ok (.name text)

/-- The components of a pattern; empty ones and single dots do not count. -/
def components (pattern : String) : Except Misuse (List Component) :=
  ((pattern.splitOn "/").filter fun part => part ≠ "" && part ≠ ".").mapM component

end LispXref.Glob
