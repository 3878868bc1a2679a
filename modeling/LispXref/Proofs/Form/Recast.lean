import LispXref.Proofs.Form.Walk
import LispXref.Proofs.Lexeme.Spelling

/-! The same form at other places or with marks written out as the lists they abbreviate. A walk
goes into both or into neither, gives what is inside the same trail, and finds in the one what it
finds in the other. -/
namespace LispXref

/-- The head of the list that a mark abbreviates, put where the mark stands. -/
def Quotation.headAt (mark : Quotation) (start : Nat) : Form :=
  .atom ⟨⟨start, start + mark.spelling.length⟩, none⟩ (.symbol mark.head)

namespace Form

mutual

/-- The same form with every label changed by `place` and a list in the place of every mark that is
`spelled` out. -/
def recast (place : Label → Label) (spelled : Quotation → Bool) : Form → Form
  | .atom label value => .atom (place label) value
  | .list label items => .list (place label) (recastAll place spelled items)
  | .dotted label items tail =>
    .dotted (place label) (recastAll place spelled items) (recast place spelled tail)
  | .vector label items => .vector (place label) (recastAll place spelled items)
  | .quoted label mark operand =>
    if spelled mark then
      .list (place label) [mark.headAt (place label).span.start, recast place spelled operand]
    else .quoted (place label) mark (recast place spelled operand)

def recastAll (place : Label → Label) (spelled : Quotation → Bool) : List Form → List Form
  | [] => []
  | form :: rest => recast place spelled form :: recastAll place spelled rest

end

section

variable (place : Label → Label) (spelled : Quotation → Bool) (label : Label) (items : List Form)

theorem recastAll_eq : recastAll place spelled items = items.map (recast place spelled) := by
  induction items with
  | nil => rfl
  | cons form rest ih => rw [recastAll, ih, List.map_cons]

@[simp] theorem recast_atom (value : Atom) :
    (atom label value).recast place spelled = .atom (place label) value := rfl

@[simp] theorem recast_list :
    (list label items).recast place spelled
      = .list (place label) (items.map (recast place spelled)) := by
  rw [recast, recastAll_eq]

@[simp] theorem recast_dotted (tail : Form) :
    (dotted label items tail).recast place spelled
      = .dotted (place label) (items.map (recast place spelled)) (tail.recast place spelled) := by
  rw [recast, recastAll_eq]

@[simp] theorem recast_vector :
    (vector label items).recast place spelled
      = .vector (place label) (items.map (recast place spelled)) := by
  rw [recast, recastAll_eq]

@[simp] theorem recast_quoted (mark : Quotation) (operand : Form) :
    (quoted label mark operand).recast place spelled =
      if spelled mark then
        .list (place label) [mark.headAt (place label).span.start, operand.recast place spelled]
      else .quoted (place label) mark (operand.recast place spelled) := rfl

end

/-- A mark that is spelled out. -/
def isSpelled (spelled : Quotation → Bool) : Form → Bool
  | .quoted _ mark _ => spelled mark
  | .atom _ _ | .list _ _ | .dotted _ _ _ | .vector _ _ => false

theorem exists_of_isSpelled {spelled : Quotation → Bool} {form : Form}
    (h : form.isSpelled spelled = true) :
    ∃ label mark operand, form = .quoted label mark operand ∧ spelled mark = true := by
  cases form with
  | quoted label mark operand => exact ⟨label, mark, operand, rfl, h⟩
  | atom | list | dotted | vector => cases h

@[simp] theorem symbol?_headAt (mark : Quotation) (start : Nat) :
    (mark.headAt start).symbol? = some mark.head := rfl

section

variable {place : Label → Label} {spelled : Quotation → Bool}

@[simp] theorem label_recast (form : Form) :
    (form.recast place spelled).label = place form.label := by
  cases form with
  | quoted label mark operand =>
    rw [recast_quoted]
    split <;> rfl
  | atom | list | dotted | vector => rfl

@[simp] theorem symbol?_recast (form : Form) :
    (form.recast place spelled).symbol? = form.symbol? := by
  cases form with
  | atom label value => cases value <;> rfl
  | list | dotted | vector => rfl
  | quoted label mark operand =>
    rw [recast_quoted]
    split <;> rfl

@[simp] theorem isSymbol_recast (form : Form) :
    (form.recast place spelled).isSymbol = form.isSymbol := by
  funext name
  rw [isSymbol, symbol?_recast, isSymbol]

@[simp] theorem head?_recast (form : Form) : (form.recast place spelled).head? = form.head? := by
  cases form with
  | list label items => cases items <;> simp [head?]
  | atom | dotted | vector => rfl
  | quoted label mark operand =>
    rw [recast_quoted]
    split <;> rfl

theorem isEntered_list (label : Label) (items : List Form) :
    (list label items).isEntered
      = (list label items).head?.all fun name => !dataHeads.contains name := by
  rw [isEntered]
  cases (list label items).head? <;> rfl

/-- A mark whose operand is code abbreviates a list whose items are. -/
theorem isEntered_recast (form : Form) :
    (form.recast place spelled).isEntered = form.isEntered := by
  cases form with
  | atom | dotted | vector => rfl
  | list label items =>
    have hhead : ((list label items).recast place spelled).head? = (list label items).head? :=
      head?_recast _
    rw [recast_list] at hhead ⊢
    rw [isEntered_list, isEntered_list, hhead]
  | quoted label mark operand =>
    rw [recast_quoted]
    split
    · cases mark <;> rfl
    · rfl

theorem not_isSpelled {label : Label} {mark : Quotation} {operand : Form}
    (h : (quoted label mark operand).isSpelled spelled = false) : ¬ spelled mark = true :=
  Bool.not_eq_true _ |>.mpr h

theorem parts_recast {form : Form} (h : form.isSpelled spelled = false) :
    (form.recast place spelled).parts = form.parts.map (recast place spelled) := by
  cases form with
  | quoted label mark operand =>
    rw [recast_quoted, if_neg (not_isSpelled h)]
    rfl
  | atom | list | dotted | vector => simp [parts]

theorem frameFor_recast {form : Form} (h : form.isSpelled spelled = false) :
    (form.recast place spelled).frameFor = form.frameFor := by
  funext position
  simp only [frameFor, head?_recast]
  cases form with
  | quoted label mark operand => rw [recast_quoted, if_neg (not_isSpelled h)]
  | atom | list | dotted | vector => simp

/-- What a walk finds in the list for a mark is what it finds in the operand: the head is not
found, and it takes position 0, so that the operand stands at 1 either way. -/
theorem walk_parts_recast {p : Form → Trail → Bool} {descend : Bool} {mark : Quotation}
    (hspelled : spelled mark = true) (label : Label) (operand : Form) (trail : Trail)
    (hhead : ∀ start inner, p (mark.headAt start) inner = false) :
    let form := (quoted label mark operand).recast place spelled
    (form.parts.zipIdx.flatMap fun e => e.1.walk p descend (trail.push (form.frameFor e.2)))
      = (operand.recast place spelled).walk p descend (trail.push ⟨some mark.head, 1⟩) := by
  have hmark : (mark.headAt (place label).span.start).walk p descend
      (trail.push ⟨some mark.head, 0⟩) = [] := by
    rw [walk_eq, hhead]
    rfl
  simp [parts, frameFor, head?, hspelled, hmark]

/-- A walk for what can be told from either way of writing, and is never the head of a list
that a mark abbreviates, finds the same in both. -/
theorem walk_recast {p : Form → Trail → Bool}
    (hp : ∀ form trail, p (recast place spelled form) trail = p form trail)
    (hhead : ∀ mark start trail, spelled mark = true →
      p (Quotation.headAt mark start) trail = false)
    (descend : Bool) (trail : Trail) (form : Form) :
    (form.recast place spelled).walk p descend trail
      = (form.walk p descend trail).map (Prod.map (recast place spelled) id) := by
  induction form using induction_parts generalizing trail with
  | step form ih =>
    rw [walk_eq p descend trail (form.recast place spelled), walk_eq p descend trail form, hp,
      isEntered_recast, List.map_append]
    congr 1
    · split <;> rfl
    split
    · cases hform : form.isSpelled spelled with
      | false =>
        rw [frameFor_recast hform, parts_recast hform]
        exact flatMap_walk_map form.frameFor trail ih
      | true =>
        obtain ⟨label, mark, operand, rfl, hspelled⟩ := exists_of_isSpelled hform
        rw [walk_parts_recast hspelled label operand trail fun start inner =>
          hhead mark start inner hspelled, ih operand (List.mem_singleton_self _)]
        simp [parts, frameFor, head?]
    · rfl

theorem symbolsWhere_recast {symbol : String}
    (hsymbol : ∀ mark, spelled mark = true → symbol ≠ mark.head) (form : Form) :
    (form.recast place spelled).symbolsWhere (·.isSymbol symbol)
      = (form.symbolsWhere (·.isSymbol symbol)).map (recast place spelled) := by
  rw [symbolsWhere_eq, symbolsWhere_eq]
  induction form using induction_parts with
  | step form ih =>
    have hitems {items : List Form} (h : ∀ item ∈ items, item ∈ form.parts) :
        ((items.map (recast place spelled)).flatMap leaves).filter (·.isSymbol symbol)
          = ((items.flatMap leaves).filter (·.isSymbol symbol)).map (recast place spelled) := by
      rw [List.flatMap_map, List.filter_flatMap, List.filter_flatMap, List.map_flatMap]
      apply List.flatMap_congr
      intro item hitem
      exact ih item (h item hitem)
    cases form with
    | atom label value =>
      cases value with
      | symbol name => by_cases hname : name = symbol <;> simp [isSymbol, symbol?, hname]
      | number value => rfl
      | string value => rfl
    | dotted label items tail => simp
    | list label items =>
      rw [recast_list, leaves_list, leaves_list]
      exact hitems fun _ hitem => hitem
    | vector label items =>
      rw [recast_vector, leaves_vector, leaves_vector]
      exact hitems fun _ hitem => hitem
    | quoted label mark operand =>
      have hoperand := ih operand (List.mem_singleton_self _)
      rw [recast_quoted, leaves_quoted, ← hoperand]
      split
      · next hspelled =>
        have hmark : (mark.headAt (place label).span.start).leaves.filter (·.isSymbol symbol)
            = [] := by
          simp [Quotation.headAt, isSymbol, symbol?, (hsymbol mark hspelled).symm]
        simp [hmark]
      · rw [leaves_quoted]

end

end Form
end LispXref
