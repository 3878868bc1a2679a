import LispXref.Form.Walk

/-! What the work stacks give. The forms that a walk looks at, and the symbols that it collects,
are told by recursion on the form; a stack gives what its forms give one after another. -/
namespace LispXref.Form

/-! ### Walks -/

mutual

/-- The forms around which there is only code that `stops` does not accept, in order of writing
and each with its trail. -/
def visits (stops : Form → Trail → Bool) (trail : Trail) : Form → List (Form × Trail)
  | .list label items =>
    let form := Form.list label items
    (form, trail) ::
      if form.isEntered && !stops form trail then visitsItems stops trail form.head? 0 items else []
  | .quoted label mark operand =>
    let form := Form.quoted label mark operand
    (form, trail) ::
      if form.isEntered && !stops form trail then
        visits stops (trail.push ⟨some mark.head, 1⟩) operand
      else []
  | .atom label value => [(.atom label value, trail)]
  | .dotted label items tail => [(.dotted label items tail, trail)]
  | .vector label items => [(.vector label items, trail)]

/-- The same for the items of a list, from position `index` on. -/
def visitsItems (stops : Form → Trail → Bool) (trail : Trail) (head : Option String)
    (index : Int) : List Form → List (Form × Trail)
  | [] => []
  | item :: rest =>
    visits stops (trail.push ⟨head, index⟩) item
      ++ visitsItems stops trail head (index + 1) rest

end

section

variable (stops : Form → Trail → Bool) (trail : Trail) (label : Label)

@[simp] theorem visits_list (items : List Form) :
    visits stops trail (.list label items) = (.list label items, trail) ::
      if (Form.list label items).isEntered && !stops (.list label items) trail then
        visitsItems stops trail (Form.list label items).head? 0 items
      else [] := rfl

@[simp] theorem visits_quoted (mark : Quotation) (operand : Form) :
    visits stops trail (.quoted label mark operand) = (.quoted label mark operand, trail) ::
      if (Form.quoted label mark operand).isEntered
          && !stops (.quoted label mark operand) trail then
        visits stops (trail.push ⟨some mark.head, 1⟩) operand
      else [] := rfl

@[simp] theorem visits_atom (value : Atom) :
    visits stops trail (.atom label value) = [(.atom label value, trail)] := rfl

@[simp] theorem visits_dotted (items : List Form) (tail : Form) :
    visits stops trail (.dotted label items tail) = [(.dotted label items tail, trail)] := rfl

@[simp] theorem visits_vector (items : List Form) :
    visits stops trail (.vector label items) = [(.vector label items, trail)] := rfl

@[simp] theorem visitsItems_nil (head : Option String) (index : Int) :
    visitsItems stops trail head index [] = [] := rfl

@[simp] theorem visitsItems_cons (head : Option String) (index : Int) (item : Form)
    (rest : List Form) :
    visitsItems stops trail head index (item :: rest)
      = visits stops (trail.push ⟨head, index⟩) item
        ++ visitsItems stops trail head (index + 1) rest := rfl

end

/-- The frame that a form puts around its part at a position. The operand of a mark counts as
standing after the head of the list that the mark abbreviates. -/
def frameFor (form : Form) (position : Nat) : Frame :=
  ⟨form.head?, match form with
    | .quoted _ _ _ => position + 1
    | _ => position⟩

theorem visitsItems_eq (stops : Form → Trail → Bool) (trail : Trail) (head : Option String)
    (position : Nat) (items : List Form) :
    visitsItems stops trail head position items
      = (items.zipIdx position).flatMap fun e =>
          visits stops (trail.push ⟨head, (e.2 : Int)⟩) e.1 := by
  induction items generalizing position with
  | nil => rfl
  | cons item rest ih =>
    rw [visitsItems_cons, List.zipIdx_cons, List.flatMap_cons, ← ih (position + 1)]
    rfl

/-- A form comes first and then, if it is entered, what its parts hold. -/
theorem visits_eq (stops : Form → Trail → Bool) (trail : Trail) (form : Form) :
    visits stops trail form = (form, trail) ::
      if form.isEntered && !stops form trail then
        form.parts.zipIdx.flatMap fun e => visits stops (trail.push (form.frameFor e.2)) e.1
      else [] := by
  cases form with
  | atom label value => rfl
  | dotted label items tail => rfl
  | vector label items => rfl
  | list label items =>
    have hitems : visitsItems stops trail (Form.list label items).head? 0 items = _ :=
      visitsItems_eq stops trail _ 0 items
    rw [visits_list, hitems]
    rfl
  | quoted label mark operand => simp [parts, frameFor, head?]

/-- The parts of a form that is entered come to stand on the stack in order, each with its
trail. -/
theorem pushParts_of_isEntered {form : Form} (h : form.isEntered = true) (trail : Trail)
    (stack : List (Form × Trail)) :
    form.pushParts trail stack
      = (form.parts.zipIdx.map fun e => (e.1, trail.push (form.frameFor e.2))) ++ stack := by
  cases form with
  | atom | dotted | vector => cases h
  | list label items => simp [pushParts, List.foldr_cons_eq_append, kind, frameFor]
  | quoted label mark operand => cases mark <;> rfl

/-- What the forms of a stack give, one after another. -/
def visitsAll (stops : Form → Trail → Bool) (stack : List (Form × Trail)) : List (Form × Trail) :=
  stack.flatMap fun place => visits stops place.2 place.1

theorem visitsAll_cons (stops : Form → Trail → Bool) (form : Form) (trail : Trail)
    (stack : List (Form × Trail)) :
    visitsAll stops ((form, trail) :: stack) = visits stops trail form ++ visitsAll stops stack :=
  List.flatMap_cons

/-- Entering a form takes it from what the stack gives and leaves the rest. -/
theorem visitsAll_pushParts {stops : Form → Trail → Bool} {form : Form} {trail : Trail}
    (h : (form.isEntered && !stops form trail) = true) (stack : List (Form × Trail)) :
    (form, trail) :: visitsAll stops (form.pushParts trail stack)
      = visitsAll stops ((form, trail) :: stack) := by
  have hentered : form.isEntered = true := (Bool.and_eq_true_iff.mp h).1
  rw [visitsAll_cons, visits_eq, if_pos h, pushParts_of_isEntered hentered, visitsAll, visitsAll,
    List.flatMap_append, List.flatMap_map]
  rfl

/-- A walk looks at what the forms on its stack give and finds, among these, what satisfies `p`. -/
theorem walkOn_eq (p : Form → Trail → Bool) (descend : Bool) (course : Course)
    (stack : List (Form × Trail)) :
    walkOn p descend course stack =
      let places := visitsAll (fun f t => !descend && p f t) stack
      ⟨places.reverse ++ course.seen,
        (places.filter fun v => p v.1 v.2).reverse ++ course.found⟩ := by
  -- on the recursion of the walk: the stack may grow, but what it gives loses its first form
  fun_induction walkOn p descend course stack with
  | case1 course => rfl
  | case2 course form trail stack satisfies course' henters ih =>
    rw [ih, ← visitsAll_pushParts henters]
    cases hp : p form trail <;> simp [course', Course.add, satisfies, hp]
  | case3 course form trail stack satisfies course' henters ih =>
    rw [ih, visitsAll_cons, visits_eq, if_neg henters]
    cases hp : p form trail <;> simp [course', Course.add, satisfies, hp]

theorem visited_eq (p : Form → Trail → Bool) (descend : Bool) (trail : Trail) (form : Form) :
    form.visited p descend trail = visits (fun f t => !descend && p f t) trail form := by
  simp [visited, walkOn_eq, visitsAll]

theorem walk_eq_filter (p : Form → Trail → Bool) (descend : Bool) (trail : Trail) (form : Form) :
    form.walk p descend trail
      = (visits (fun f t => !descend && p f t) trail form).filter fun v => p v.1 v.2 := by
  simp [walk, walkOn_eq, visitsAll]

/-! ### Leaves -/

mutual

/-- The symbols inside a form, in order of writing, around which there is no improper list. -/
def leaves : Form → List Form
  | .atom label (.symbol name) => [.atom label (.symbol name)]
  | .atom _ _ => []
  | .list _ items => leavesOfItems items
  | .dotted _ _ _ => []
  | .vector _ items => leavesOfItems items
  | .quoted _ _ operand => leaves operand

def leavesOfItems : List Form → List Form
  | [] => []
  | item :: rest => leaves item ++ leavesOfItems rest

end

theorem leavesOfItems_eq (items : List Form) : leavesOfItems items = items.flatMap leaves := by
  induction items with
  | nil => rfl
  | cons item rest ih => rw [leavesOfItems, ih, List.flatMap_cons]

@[simp] theorem leaves_symbol (label : Label) (name : String) :
    leaves (.atom label (.symbol name)) = [.atom label (.symbol name)] := rfl

@[simp] theorem leaves_number (label : Label) (value : Number) :
    leaves (.atom label (.number value)) = [] := rfl

@[simp] theorem leaves_string (label : Label) (value : List CodePoint) :
    leaves (.atom label (.string value)) = [] := rfl

@[simp] theorem leaves_list (label : Label) (items : List Form) :
    leaves (.list label items) = items.flatMap leaves := leavesOfItems_eq items

@[simp] theorem leaves_dotted (label : Label) (items : List Form) (tail : Form) :
    leaves (.dotted label items tail) = [] := rfl

@[simp] theorem leaves_vector (label : Label) (items : List Form) :
    leaves (.vector label items) = items.flatMap leaves := leavesOfItems_eq items

@[simp] theorem leaves_quoted (label : Label) (mark : Quotation) (operand : Form) :
    leaves (.quoted label mark operand) = leaves operand := rfl

theorem leaves_of_kind_symbol {form : Form} (h : form.kind = .symbol) : form.leaves = [form] := by
  cases form with
  | atom label value => cases value <;> first | rfl | cases h
  | quoted label mark operand => cases mark <;> cases h
  | list | dotted | vector => cases h

theorem leaves_of_holdsLeaves {form : Form} (h : form.holdsLeaves = true) :
    form.leaves = form.parts.flatMap leaves := by
  cases form with
  | list | vector => simp [parts]
  | quoted => simp [parts]
  | atom | dotted => cases h

theorem leaves_of_not_holdsLeaves {form : Form} (hkind : form.kind ≠ .symbol)
    (h : ¬ form.holdsLeaves = true) : form.leaves = [] := by
  cases form with
  | atom label value => cases value <;> first | rfl | exact absurd rfl hkind
  | dotted => rfl
  | list | vector | quoted => exact absurd rfl h

/-- What is collected from a stack are the leaves of its forms that satisfy `p`. -/
theorem collectSymbols_eq (p : Form → Bool) (found stack : List Form) :
    collectSymbols p found stack = ((stack.flatMap leaves).filter p).reverse ++ found := by
  fun_induction collectSymbols p found stack with
  | case1 found => rfl
  | case2 found form stack hkind found' ih =>
    rw [ih, List.flatMap_cons, leaves_of_kind_symbol hkind]
    cases hp : p form <;> simp [found', hp]
  | case3 found form stack hkind hleaves ih =>
    rw [ih, List.flatMap_cons, leaves_of_holdsLeaves hleaves]
    simp
  | case4 found form stack hkind hleaves ih =>
    rw [ih, List.flatMap_cons, leaves_of_not_holdsLeaves hkind hleaves, List.nil_append]

theorem symbolsWhere_eq (p : Form → Bool) (form : Form) :
    form.symbolsWhere p = form.leaves.filter p := by
  simp [symbolsWhere, collectSymbols_eq]

end LispXref.Form
