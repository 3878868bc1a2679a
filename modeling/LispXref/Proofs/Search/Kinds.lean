import Mathlib.Algebra.Order.BigOperators.Group.List
import Mathlib.Data.List.Flatten
import LispXref.Proofs.Search.Binding

/-! Searches of different kinds in one document. The occurrences of the symbol inside the
matches of any kind, one match after another, are occurrences in the document in the order of
writing, and no match is without one. -/
namespace LispXref

namespace Form

/-- A form whose parts are code has the leaves of its parts. -/
theorem leaves_of_isEntered {form : Form} (h : form.isEntered = true) :
    form.leaves = form.parts.zipIdx.flatMap fun e => e.1.leaves := by
  have hparts : form.leaves = form.parts.flatMap leaves := by
    cases form with
    | atom | dotted | vector => cases h
    | list label items => exact leaves_list label items
    | quoted label mark operand => simp [parts]
  have hzip := List.zipIdx_map_fst 0 form.parts
  rw [hparts, ← hzip, List.flatMap_map, hzip]

/-- A walk that stops at matches passes each leaf at most once, and in order. -/
theorem leaves_walk_sublist (p : Form → Trail → Bool) (trail : Trail) (form : Form) :
    ((form.walk p false trail).flatMap fun v => v.1.leaves).Sublist form.leaves := by
  induction form using induction_parts generalizing trail with
  | step form ih =>
    rw [walk_false_eq]
    split
    · simp
    · split
      · next hentered =>
        rw [leaves_of_isEntered hentered, List.flatMap_assoc]
        apply List.Sublist.flatMap_right
        intro e he
        exact ih e.1 (List.fst_mem_of_mem_zipIdx he) _
      · simp

/-- The symbols of one name in a form, outside improper lists. -/
def occurrences (symbol : String) (form : Form) : List Form :=
  form.leaves.filter (·.isSymbol symbol)

theorem occurrences_of_isSymbol {symbol : String} {form : Form} (h : form.isSymbol symbol = true) :
    form.occurrences symbol = [form] := by
  obtain ⟨label, rfl⟩ := isSymbol_iff.mp h
  simp [occurrences, isSymbol, symbol?]

theorem flatMap_occurrences_of_isSymbol {symbol : String} {forms : List Form}
    (h : ∀ form ∈ forms, form.isSymbol symbol = true) :
    forms.flatMap (occurrences symbol) = forms := by
  rw [List.flatMap_congr fun form hform => occurrences_of_isSymbol (h form hform)]
  simp

/-- In a call the symbol occurs, if only behind a mark or in a written-out quotation. -/
theorem Calls.occurrences_ne_nil {symbol : String} {form : Form} (h : form.Calls symbol) :
    form.occurrences symbol ≠ [] := by
  cases h with
  | direct => simp [occurrences, isSymbol, symbol?]
  | indirect hcaller hquoted =>
    cases hquoted with
    | mark hmark => simp [occurrences, isSymbol, symbol?]
    | list hhead => simp [occurrences, isSymbol, symbol?]

end Form

namespace Search

variable (search : Search)

theorem references_occurrence (symbol : String) (prefilter : Bool) (form : Form) :
    (Search.mk symbol .occurrence prefilter).references form = form.occurrences symbol :=
  Form.symbolsWhere_eq _ form

theorem occurrences_ne_nil_of_mem_references {form found : Form}
    (h : found ∈ search.references form) : found.occurrences search.symbol ≠ [] := by
  obtain ⟨-, hshown⟩ := shownBy_of_mem_references h
  obtain ⟨symbol, kind, prefilter⟩ := search
  cases kind with
  | occurrence | variableUse =>
    rw [Form.occurrences_of_isSymbol (Form.isSymbol_iff.mpr hshown)]
    exact List.cons_ne_nil _ _
  | functionCall | macroCall | specialCall =>
    exact (Reference.isCall_iff.mp hshown.2).1.occurrences_ne_nil

/-- The occurrences inside the references in a form, in turn, are occurrences in the form. -/
theorem occurrences_references_sublist (form : Form) :
    ((search.references form).flatMap (Form.occurrences search.symbol)).Sublist
      (form.occurrences search.symbol) := by
  have hwalk (p : Form → Trail → Bool) :
      (((form.walk p false .top).map (·.1)).flatMap (Form.occurrences search.symbol)).Sublist
        (form.occurrences search.symbol) := by
    have hsub := (Form.leaves_walk_sublist p .top form).filter (·.isSymbol search.symbol)
    rw [List.filter_flatMap] at hsub
    rw [List.flatMap_map]
    exact hsub
  obtain ⟨symbol, kind, prefilter⟩ := search
  cases kind with
  | variableUse | functionCall | macroCall | specialCall => exact hwalk _
  | occurrence =>
    have hself : (form.occurrences symbol).flatMap (Form.occurrences symbol)
        = form.occurrences symbol :=
      Form.flatMap_occurrences_of_isSymbol fun leaf hleaf => (List.mem_filter.mp hleaf).2
    rw [references_occurrence, hself]

variable [CharacterNames]

theorem mem_found_iff {search : Search} {document : Document} {form : Form} :
    form ∈ (search.inDocument document).found ↔
      ∃ top ∈ (Transcript.ofText document.text).tops, form ∈ search.references top.form := by
  have hfound : (search.inDocument document).found
      = (Transcript.ofText document.text).tops.flatMap fun top => search.references top.form :=
    search.flatMap_inTop document.text
  rw [hfound, List.mem_flatMap]

theorem occurrences_found_sublist (prefilter : Bool) (document : Document) :
    ((search.inDocument document).found.flatMap (Form.occurrences search.symbol)).Sublist
      ((Search.mk search.symbol .occurrence prefilter).inDocument document).found := by
  simp only [inDocument, flatMap_inTop, List.flatMap_assoc]
  apply List.Sublist.flatMap_right
  intro top _
  rw [references_occurrence]
  exact search.occurrences_references_sublist top.form

/-- There are at least as many occurrences as matches, since no two matches share one. -/
theorem length_found_le (prefilter : Bool) (document : Document) :
    (search.inDocument document).found.length ≤
      ((Search.mk search.symbol .occurrence prefilter).inDocument document).found.length := by
  calc (search.inDocument document).found.length
      ≤ ((search.inDocument document).found.flatMap
          (Form.occurrences search.symbol)).length := by
        rw [List.length_flatMap]
        refine (List.length_map _).symm.trans_le (List.length_le_sum_of_one_le _ ?_)
        intro count hcount
        obtain ⟨found, hfound, rfl⟩ := List.mem_map.mp hcount
        obtain ⟨top, -, href⟩ := mem_found_iff.mp hfound
        exact List.length_pos_of_ne_nil (search.occurrences_ne_nil_of_mem_references href)
    _ ≤ _ := (search.occurrences_found_sublist prefilter document).length_le

/-- The occurrences inside a match lie within its label. -/
theorem occurrence_inside {document : Document} {found leaf : Form}
    (hfound : found ∈ (search.inDocument document).found)
    (hleaf : leaf ∈ found.occurrences search.symbol) :
    found.start ≤ leaf.start ∧ leaf.stop ≤ found.stop := by
  obtain ⟨top, htop, href⟩ := mem_found_iff.mp hfound
  obtain ⟨hnode, -⟩ := shownBy_of_mem_references href
  have htiled := (Transcript.tiled_of_mem_tops htop).of_mem_nodes hnode
  exact htiled.spread_leaves.inside leaf (List.mem_filter.mp hleaf).1

/-- A search whose symbol is of the class that it needs, beside the search for all occurrences of
the symbol. Uses as a variable are among the occurrences, in the same order, and every match of
any kind has one within its label. So there are no more matches than occurrences, and none where
nothing occurs. The error and the names of the document do not depend on the kind. -/
theorem kinds_agree {symbol : String} {kind : ReferenceKind} {lexicon : Option Lexicon}
    (hclass : checkClass kind symbol lexicon = .ok ()) (prefilter : Bool) (document : Document) :
    ∃ search occurring, prepare symbol kind lexicon prefilter = .ok search ∧
      prepare symbol .occurrence lexicon prefilter = .ok occurring ∧
      (kind = .variableUse → (search.inDocument document).allMatches.Sublist
        (occurring.inDocument document).allMatches) ∧
      (∀ m ∈ (search.inDocument document).allMatches,
        ∃ o ∈ (occurring.inDocument document).allMatches, m.start ≤ o.start ∧ o.stop ≤ m.stop) ∧
      (search.inDocument document).allMatches.length
        ≤ (occurring.inDocument document).allMatches.length ∧
      ((occurring.inDocument document).allMatches = [] →
        (search.inDocument document).allMatches = []) ∧
      (search.inDocument document).error = (occurring.inDocument document).error ∧
      (search.inDocument document).names = (occurring.inDocument document).names := by
  have hsub := (Search.mk symbol kind prefilter).occurrences_found_sublist prefilter document
  have hlength := (Search.mk symbol kind prefilter).length_found_le prefilter document
  refine ⟨⟨symbol, kind, prefilter⟩, ⟨symbol, .occurrence, prefilter⟩, by rw [prepare, hclass],
    rfl, ?_, ?_, ?_, ?_, rfl, rfl⟩
  · rintro rfl
    rw [Form.flatMap_occurrences_of_isSymbol] at hsub
    · exact hsub.map _
    · intro found hfound
      obtain ⟨top, -, href⟩ := mem_found_iff.mp hfound
      exact Form.isSymbol_iff.mpr (shownBy_of_mem_references href).2
  · intro m hm
    obtain ⟨found, hfound, rfl⟩ := List.mem_map.mp hm
    obtain ⟨top, -, href⟩ := mem_found_iff.mp hfound
    obtain ⟨leaf, hleaf⟩ := List.exists_mem_of_ne_nil _
      (occurrences_ne_nil_of_mem_references _ href)
    obtain ⟨hstart, hstop⟩ := occurrence_inside _ hfound hleaf
    have hoccurs := hsub.subset (List.mem_flatMap.mpr ⟨found, hfound, hleaf⟩)
    exact ⟨⟨document, leaf⟩, List.mem_map.mpr ⟨leaf, hoccurs, rfl⟩, Nat.succ_le_succ hstart,
      Nat.succ_le_succ hstop⟩
  · simpa only [Findings.allMatches, List.length_map] using hlength
  · intro hnone
    rw [Findings.allMatches, List.map_eq_nil_iff] at hnone ⊢
    rw [hnone] at hlength
    exact List.eq_nil_of_length_eq_zero (Nat.le_zero.mp hlength)

end Search

open CharacterNames in
/-- A call that names its symbol behind a mark, with a use as a variable and an improper list
inside it. -/
theorem Search.kinds_agree_indirect :
    let lexicon : Lexicon := .table { functionNames := ⟨["f"], List.pairwise_singleton _ _⟩ }
    let document : Document := ⟨"a.el", "(apply 'f f '(g . f))".toList⟩
    checkClass .functionCall "f" (some lexicon) = .ok () ∧
    checkClass .variableUse "f" none = .ok () ∧
    (∃ calls occurring, prepare "f" .functionCall (some lexicon) true = .ok calls ∧
      prepare "f" .occurrence (some lexicon) true = .ok occurring ∧
      ∃ m ∈ (calls.inDocument document).allMatches, (m.start, m.stop) = (1, 22) ∧
        ∃ o ∈ (occurring.inDocument document).allMatches, m.start ≤ o.start ∧ o.stop ≤ m.stop) ∧
    ∃ uses occurring, prepare "f" .variableUse none true = .ok uses ∧
      prepare "f" .occurrence none true = .ok occurring ∧
      (uses.inDocument document).allMatches.Sublist (occurring.inDocument document).allMatches := by
  intro lexicon document
  have hcall : checkClass .functionCall "f" (some lexicon) = .ok () := rfl
  have huse : checkClass .variableUse "f" none = .ok () := rfl
  let call : Form := .list ⟨⟨0, 21⟩, none⟩ [.atom ⟨⟨1, 6⟩, none⟩ (.symbol "apply"),
    .quoted ⟨⟨7, 9⟩, none⟩ .quote (.atom ⟨⟨8, 9⟩, none⟩ (.symbol "f")),
    .atom ⟨⟨10, 11⟩, none⟩ (.symbol "f"),
    .quoted ⟨⟨12, 20⟩, none⟩ .quote
      (.dotted ⟨⟨13, 20⟩, none⟩ [.atom ⟨⟨14, 15⟩, none⟩ (.symbol "g")]
        (.atom ⟨⟨18, 19⟩, none⟩ (.symbol "f")))]
  have hread : readFrom 0 document.text [] []
      = ⟨.form ⟨call, ["f", "g", "f", "f", "apply"]⟩, 21⟩ := by
    with_unfolding_all rfl
  have hreference : call ∈ (Search.mk "f" .functionCall true).references call := by
    simp only [references, Form.walk_eq_filter]
    exact List.mem_singleton_self call
  have hfound : call ∈ ((Search.mk "f" .functionCall true).inDocument document).found :=
    mem_found_iff.mpr ⟨_, Transcript.mem_tops_of_readFrom hread, hreference⟩
  obtain ⟨calls, occurring, hcalls, hoccurring, -, hinside, -⟩ := kinds_agree hcall true document
  obtain ⟨uses, occurring', huses, hoccurring', hsub, -⟩ := kinds_agree huse true document
  refine ⟨hcall, huse, ⟨calls, occurring, hcalls, hoccurring, ?_⟩, uses, occurring', huses,
    hoccurring', hsub rfl⟩
  obtain rfl : calls = ⟨"f", .functionCall, true⟩ := by cases hcalls; rfl
  have hmem : ⟨document, call⟩
      ∈ ((Search.mk "f" .functionCall true).inDocument document).allMatches :=
    List.mem_map_of_mem hfound
  exact ⟨_, hmem, rfl, hinside _ hmem⟩

end LispXref
