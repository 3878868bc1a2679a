import LispXref.Form.Basic
import LispXref.Form.Trail

/-! Two ways through a form. A walk follows code: it enters lists and templates,
carries the trail of what encloses each form, and may stop at forms of interest. The
other way goes to the symbols anywhere outside improper lists, quoted data included. Either
way the forms still to be looked at stand on a stack, the next one on top. -/
namespace LispXref.Form

/-- Heads that make the rest of a list data. -/
def dataHeads : List String := ["quote", "function"]

/-- Whether the forms directly inside are code. -/
def isEntered : Form → Bool
  | .list label items =>
    match (Form.list label items).head? with
    | some head => !dataHeads.contains head
    | none => true
  | .quoted _ mark _ => mark = .backquote || mark = .unquote || mark = .splice
  | _ => false

/-- The size of all forms of a stack together: the measure by which emptying the stack ends. -/
noncomputable def totalSize : List Form → Nat
  | [] => 0
  | form :: stack => sizeOf form + totalSize stack

theorem totalSize_append (forms stack : List Form) :
    totalSize (forms ++ stack) = totalSize forms + totalSize stack := by
  induction forms with
  | nil => simp only [List.nil_append, totalSize, Nat.zero_add]
  | cons form forms ih => simp only [List.cons_append, totalSize, ih, Nat.add_assoc]

theorem totalSize_le (items : List Form) : totalSize items ≤ sizeOf items := by
  induction items with
  | nil => exact Nat.zero_le _
  | cons item rest ih =>
    simp only [totalSize, List.cons.sizeOf_spec]
    omega

/-- The parts of a form are together smaller than the form. -/
theorem totalSize_parts_lt (form : Form) : totalSize form.parts < sizeOf form := by
  cases form with
  | atom label value =>
    simp only [parts, totalSize, atom.sizeOf_spec]
    omega
  | list label items | vector label items =>
    have hitems := totalSize_le items
    simp only [parts, list.sizeOf_spec, vector.sizeOf_spec]
    omega
  | dotted label items tail =>
    have hitems := totalSize_le items
    simp only [parts, totalSize_append, totalSize, dotted.sizeOf_spec]
    omega
  | quoted label mark operand =>
    simp only [parts, totalSize, quoted.sizeOf_spec]
    omega

/-! ### Walks -/

/-- Puts the parts of a form on a stack, the last one first, so that the first one comes to stand
on top. The operand of a mark has the position that it has in the list written out. -/
def pushParts (form : Form) (trail : Trail) (stack : List (Form × Trail)) : List (Form × Trail) :=
  let offset := if form.kind = .list then 0 else 1
  form.parts.zipIdx.foldr
    (fun (part, i) stack => (part, trail.push ⟨form.head?, (i + offset : Nat)⟩) :: stack) stack

theorem map_fst_pushParts (form : Form) (trail : Trail) (stack : List (Form × Trail)) :
    (form.pushParts trail stack).map (·.1) = form.parts ++ stack.map (·.1) := by
  simp [pushParts, List.foldr_cons_eq_append, List.map_map, Function.comp_def]

/-- What a walk has looked at and what it has found, the last first. -/
structure Course where
  seen : List (Form × Trail)
  found : List (Form × Trail)

/-- The course of a walk after another form, which satisfies what is looked for or not. -/
def Course.add (course : Course) (place : Form × Trail) (satisfies : Bool) : Course :=
  ⟨place :: course.seen, if satisfies then place :: course.found else course.found⟩

/-- Goes on with a walk until its stack is empty. Forms that satisfy `p` are not entered, unless
`descend` is set. -/
def walkOn (p : Form → Trail → Bool) (descend : Bool) (course : Course)
    (stack : List (Form × Trail)) : Course :=
  match stack with
  | [] => course
  | (form, trail) :: stack =>
    let satisfies := p form trail
    let course := course.add (form, trail) satisfies
    if form.isEntered && !(!descend && satisfies) then
      walkOn p descend course (form.pushParts trail stack)
    else walkOn p descend course stack
termination_by totalSize (stack.map (·.1))
decreasing_by
  · have hform := totalSize_parts_lt form
    simp only [map_fst_pushParts, totalSize_append, List.map_cons, totalSize]
    omega
  · have hform := totalSize_parts_lt form
    simp only [List.map_cons, totalSize]
    omega

/-- What a walk from `trail` on looks at, in order. -/
def visited (p : Form → Trail → Bool) (descend : Bool) (trail : Trail) (form : Form) :
    List (Form × Trail) :=
  (walkOn p descend ⟨[], []⟩ [(form, trail)]).seen.reverse

/-- The forms that satisfy `p` among those a walk looks at. -/
def walk (p : Form → Trail → Bool) (descend : Bool) (trail : Trail) (form : Form) :
    List (Form × Trail) :=
  (walkOn p descend ⟨[], []⟩ [(form, trail)]).found.reverse

/-! ### Leaves -/

/-- Improper lists are not looked into for symbols. -/
def holdsLeaves : Form → Bool
  | .list _ _ | .vector _ _ | .quoted _ _ _ => true
  | _ => false

/-- Adds to `found`, which has the last one first, the symbols that satisfy `p` in the forms of a
stack. Parts are put on the stack from the last to the first. -/
def collectSymbols (p : Form → Bool) (found : List Form) (stack : List Form) : List Form :=
  match stack with
  | [] => found
  | form :: stack =>
    if form.kind = .symbol then
      let found := if p form then form :: found else found
      collectSymbols p found stack
    else if form.holdsLeaves then collectSymbols p found (form.parts.foldr List.cons stack)
    else collectSymbols p found stack
termination_by totalSize stack
decreasing_by
  all_goals
    have hform := totalSize_parts_lt form
    simp only [List.foldr_cons_eq_append', totalSize_append, totalSize]
    omega

/-- The symbols that satisfy `p` inside a form, in order of writing; improper lists are passed
over. -/
def symbolsWhere (p : Form → Bool) (form : Form) : List Form := (collectSymbols p [] [form]).reverse

end LispXref.Form
