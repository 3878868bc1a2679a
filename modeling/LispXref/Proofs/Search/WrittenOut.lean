import LispXref.Proofs.Form.Recast
import LispXref.Search

/-! A mark and the list that it abbreviates are searched alike, wherever they stand: a search
finds in a form whose marks are written out, or that is moved, what it finds in the form
itself. -/
namespace LispXref

/-- The same form with every mark written out as a list. Offsets stay what they are. -/
abbrev Form.writtenOut : Form → Form := recast (fun label => label) fun _ => true

section

variable {place : Label → Label} {spelled : Quotation → Bool} {symbol : String}

namespace Reference

theorem isQuotedSymbol_recast (form : Form) :
    isQuotedSymbol (form.recast place spelled) symbol = isQuotedSymbol form symbol := by
  cases form with
  | atom | dotted | vector => rfl
  | quoted label mark operand =>
    rw [Form.recast_quoted]
    split
    · cases mark <;> simp [isQuotedSymbol, Form.isSymbol, Quotation.head]
    · simp [isQuotedSymbol]
  | list label items =>
    -- only a list of two forms can name a symbol
    obtain _ | ⟨first, _ | ⟨second, _ | ⟨third, rest⟩⟩⟩ := items <;> simp [isQuotedSymbol]

theorem isVariable_recast (form : Form) (trail : Trail) :
    isVariable symbol (form.recast place spelled) trail = isVariable symbol form trail := by
  rw [isVariable, Form.isSymbol_recast, isVariable]

section

variable (hsymbol : ∀ mark, spelled mark = true → symbol ≠ mark.head)

include hsymbol

/-- A list that a mark abbreviates calls nothing that is not its own head. -/
theorem isCall_recast (form : Form) (trail : Trail) :
    isCall symbol (form.recast place spelled) trail = isCall symbol form trail := by
  cases form with
  | atom | dotted | vector => rfl
  | quoted label mark operand =>
    rw [Form.recast_quoted]
    split
    · next hspelled =>
      have hhead : (mark.headAt (place label).span.start).isSymbol symbol = false := by
        simp [Form.isSymbol, (hsymbol mark hspelled).symm]
      have hcaller :
          indirectCallers.any (mark.headAt (place label).span.start).isSymbol = false := by
        cases mark <;> rfl
      simp [isCall, hhead, hcaller]
    · rfl
  | list label items =>
    obtain _ | ⟨first, _ | ⟨second, rest⟩⟩ := items
    · simp [isCall]
    · simp [isCall]
    · simp [isCall, isQuotedSymbol_recast]

theorem walk_isCall_recast (descend : Bool) (trail : Trail) (form : Form) :
    (form.recast place spelled).walk (isCall symbol) descend trail
      = (form.walk (isCall symbol) descend trail).map
          (Prod.map (Form.recast place spelled) id) := by
  apply Form.walk_recast (isCall_recast hsymbol)
  intro mark start trail _
  rfl

theorem walk_isVariable_recast (descend : Bool) (trail : Trail) (form : Form) :
    (form.recast place spelled).walk (isVariable symbol) descend trail
      = (form.walk (isVariable symbol) descend trail).map
          (Prod.map (Form.recast place spelled) id) := by
  apply Form.walk_recast isVariable_recast
  intro mark start trail hspelled
  simp [isVariable, Form.isSymbol, (hsymbol mark hspelled).symm]

end

end Reference

theorem Search.references_recast {search : Search}
    (hsymbol : ∀ mark, spelled mark = true → search.symbol ≠ mark.head) (form : Form) :
    search.references (form.recast place spelled)
      = (search.references form).map (Form.recast place spelled) := by
  unfold references
  split
  · exact Form.symbolsWhere_recast hsymbol form
  · simp [Reference.walk_isVariable_recast hsymbol]
  · simp [Reference.walk_isCall_recast hsymbol]

end

namespace Search

/-- A search for a symbol that heads no list abbreviated by a mark finds in a form whose marks
are written out what it finds in the form itself, in the same order, and so do the walks for
calls and for variables, from whatever trail, with the same trails. -/
theorem written_out_searched_alike {symbol : String}
    (hsymbol : ∀ mark : Quotation, symbol ≠ mark.head) (form : Form) :
    (∀ kind prefilter,
      (Search.mk symbol kind prefilter).references form.writtenOut
        = ((Search.mk symbol kind prefilter).references form).map Form.writtenOut) ∧
    ∀ descend trail,
      form.writtenOut.walk (Reference.isCall symbol) descend trail
        = (form.walk (Reference.isCall symbol) descend trail).map (Prod.map Form.writtenOut id) ∧
      form.writtenOut.walk (Reference.isVariable symbol) descend trail
        = (form.walk (Reference.isVariable symbol) descend trail).map
            (Prod.map Form.writtenOut id) := by
  have hmarks : ∀ mark : Quotation, true = true → symbol ≠ mark.head := fun mark _ => hsymbol mark
  refine ⟨fun kind prefilter => references_recast hmarks form, fun descend trail => ⟨?_, ?_⟩⟩
  · exact Reference.walk_isCall_recast hmarks descend trail form
  · exact Reference.walk_isVariable_recast hmarks descend trail form

/-- A call through a quoted name, unquoted inside a template. -/
theorem written_out_searched_alike_template :
    let call : Form := .list ⟨⟨5, 20⟩, none⟩ [.atom ⟨⟨6, 13⟩, none⟩ (.symbol "funcall"),
      .quoted ⟨⟨14, 17⟩, none⟩ .function (.atom ⟨⟨16, 17⟩, none⟩ (.symbol "f")),
      .atom ⟨⟨18, 19⟩, none⟩ (.symbol "f")]
    let form : Form := .quoted ⟨⟨0, 21⟩, none⟩ .backquote (.list ⟨⟨1, 21⟩, none⟩
      [.atom ⟨⟨2, 3⟩, none⟩ (.symbol "g"), .quoted ⟨⟨4, 20⟩, none⟩ .unquote call])
    (∀ mark : Quotation, "f" ≠ mark.head) ∧
    (Search.mk "f" .functionCall true).references form = [call] ∧
    (Search.mk "f" .functionCall true).references form.writtenOut = [call.writtenOut] ∧
    form.writtenOut.walk (Reference.isVariable "f") false .top
      = (form.walk (Reference.isVariable "f") false .top).map (Prod.map Form.writtenOut id) := by
  intro call form
  have hsymbol : ∀ mark : Quotation, "f" ≠ mark.head := by
    intro mark
    cases mark <;> decide
  have hfound : (Search.mk "f" .functionCall true).references form = [call] := by
    with_unfolding_all rfl
  obtain ⟨hreferences, hwalks⟩ := written_out_searched_alike hsymbol form
  refine ⟨hsymbol, hfound, ?_, (hwalks false .top).2⟩
  rw [hreferences, hfound, List.map_singleton]

end Search
end LispXref
