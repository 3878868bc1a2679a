import LispXref.Text.CodePoint

/-! Console markup, where a tag in square brackets styles the text after it. Escaped
text contains no tags: a backslash stands before whatever would be one. -/
namespace LispXref.Markup

def isTagStart (code : CodePoint) : Bool :=
  (CodePoint.ofChar 'a' ≤ code && code ≤ CodePoint.ofChar 'z') || code = '#' || code = '/' ||
    code = '@'

/-- Number of code points up to the first closing bracket, if no opening one precedes. -/
def closingWidth? : CodeText → Option Nat
  | [] => none
  | code :: rest =>
    if code = ']' then some 1
    else if code = '[' then none
    else (closingWidth? rest).map (· + 1)

/-- Width of the tag that a text opens with. -/
def tagWidth? : CodeText → Option Nat
  | first :: second :: rest =>
    if first = '[' ∧ isTagStart second then (closingWidth? rest).map (· + 2) else none
  | _ => none

def isBackslash (code : CodePoint) : Bool := code = '\\'

/-- Puts a backslash before every tag and doubles those already there. -/
def escapeTags (text : CodeText) : CodeText :=
  let slashes := text.takeWhile isBackslash
  let rest := text.dropWhile isBackslash
  match _h : rest with
  | [] => slashes
  | code :: more =>
    match tagWidth? rest with
    | some w =>
      slashes ++ slashes ++ CodePoint.ofChar '\\' :: code ::
        (more.take (w - 1) ++ escapeTags (more.drop (w - 1)))
    | none => slashes ++ code :: escapeTags more
termination_by text.length
decreasing_by
  all_goals
    have hlen : (text.dropWhile isBackslash).length ≤ text.length :=
      (List.dropWhile_suffix _).length_le
    have hrest : text.dropWhile isBackslash = code :: more := _h
    rw [hrest] at hlen
    simp only [List.length_cons, List.length_drop] at hlen ⊢
    omega

/-- A single backslash at the end would escape what follows, so it is doubled. -/
def closeEnd (text : CodeText) : CodeText :=
  if (text.reverse.takeWhile isBackslash).length = 1 then text ++ [CodePoint.ofChar '\\'] else text

def escape (text : CodeText) : CodeText := closeEnd (escapeTags text)

end LispXref.Markup
