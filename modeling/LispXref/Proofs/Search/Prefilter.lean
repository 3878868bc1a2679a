import LispXref.Proofs.Reader.Names
import LispXref.Search

/-! Forms in which a symbol does not occur hold no references to it, so that a search
may leave them out. -/
namespace LispXref

namespace Reference

theorem isSymbol_of_isQuotedSymbol {form : Form} {symbol : String}
    (h : isQuotedSymbol form symbol = true) : ∃ part ∈ form.parts, part.isSymbol symbol = true := by
  unfold isQuotedSymbol at h
  split at h
  · next span first second =>
    exact ⟨second, List.mem_cons_of_mem _ List.mem_cons_self, (Bool.and_eq_true_iff.mp h).2⟩
  · next span mark operand =>
    exact ⟨operand, List.mem_cons_self, (Bool.and_eq_true_iff.mp h).2⟩
  · cases h

/-- A call names its symbol, if only in its argument. -/
theorem mem_symbolNames_of_isCall {form : Form} {trail : Trail} {symbol : String}
    (h : isCall symbol form trail = true) : symbol ∈ form.symbolNames := by
  unfold isCall at h
  split at h
  · next span first rest =>
    obtain ⟨-, h⟩ := Bool.and_eq_true_iff.mp h
    rcases Bool.or_eq_true_iff.mp h with h | h
    · have hfirst : first ∈ (Form.list span (first :: rest)).parts := List.mem_cons_self
      exact Form.mem_symbolNames_of_isSymbol
        (Form.mem_nodes_of_part hfirst (Form.mem_nodes_self first)) h
    · obtain ⟨-, h⟩ := Bool.and_eq_true_iff.mp h
      cases rest with
      | nil => cases h
      | cons second rest =>
        have hquoted : isQuotedSymbol second symbol = true := h
        obtain ⟨part, hpart, h⟩ := isSymbol_of_isQuotedSymbol hquoted
        have hsecond : second ∈ (Form.list span (first :: second :: rest)).parts :=
          List.mem_cons_of_mem _ List.mem_cons_self
        exact Form.mem_symbolNames_of_isSymbol (Form.mem_nodes_of_part hsecond
          (Form.mem_nodes_of_part hpart (Form.mem_nodes_self part))) h
  · cases h

end Reference

namespace Form

/-- The names in a form inside another are names in that one. -/
theorem mem_symbolNames_of_mem_nodes {node form : Form} {name : String} (hn : node ∈ form.nodes)
    (h : name ∈ node.symbolNames) : name ∈ form.symbolNames := by
  obtain ⟨inner, hinner, hname⟩ := mem_symbolNames_iff.mp h
  exact mem_symbolNames_iff.mpr ⟨inner, mem_nodes_trans hinner hn, hname⟩

theorem mem_nodes_of_mem_walk {p : Form → Trail → Bool} {descend : Bool} {trail : Trail}
    {form : Form} {v : Form × Trail} (h : v ∈ form.walk p descend trail) :
    v.1 ∈ form.nodes ∧ p v.1 v.2 = true := by
  rw [walk_eq_filter] at h
  obtain ⟨hv, hp⟩ := List.mem_filter.mp h
  exact ⟨mem_nodes_of_mem_visits hv, hp⟩

end Form

namespace Search

variable (search : Search)

/-- Whatever the kind of a reference, the form that holds it holds the symbol. -/
theorem mem_symbolNames_of_mem_references {form found : Form} (h : found ∈ search.references form) :
    search.symbol ∈ form.symbolNames := by
  have hcalls : ∀ f, f ∈ (form.walk (Reference.isCall search.symbol) false .top).map (·.1) →
      search.symbol ∈ form.symbolNames := by
    intro f hf
    obtain ⟨v, hv, rfl⟩ := List.mem_map.mp hf
    obtain ⟨hnode, hcall⟩ := Form.mem_nodes_of_mem_walk hv
    exact Form.mem_symbolNames_of_mem_nodes hnode (Reference.mem_symbolNames_of_isCall hcall)
  unfold references at h
  split at h
  · rw [Form.symbolsWhere_eq] at h
    obtain ⟨hleaf, hsymbol⟩ := List.mem_filter.mp h
    exact Form.mem_symbolNames_of_isSymbol (Form.mem_nodes_of_mem_leaves hleaf) hsymbol
  · obtain ⟨v, hv, rfl⟩ := List.mem_map.mp h
    obtain ⟨hnode, hvar⟩ := Form.mem_nodes_of_mem_walk hv
    exact Form.mem_symbolNames_of_isSymbol hnode (Bool.and_eq_true_iff.mp hvar).1
  · exact hcalls found h

theorem references_eq_nil {form : Form} (h : search.symbol ∉ form.symbolNames) :
    search.references form = [] := by
  apply List.eq_nil_iff_forall_not_mem.mpr
  intro found hfound
  exact h (search.mem_symbolNames_of_mem_references hfound)

/-- A form that was read is passed over exactly if the symbol was not met in it. -/
theorem passesOver_recorded (top : TopForm) :
    search.passesOver top.recorded
      = (search.prefilter && !decide (search.symbol ∈ top.names)) := by
  simp [passesOver, TopForm.recorded]

variable [CharacterNames]

/-- Leaving out forms by their names loses nothing. -/
theorem inTop_eq_references {text : List Char} {top : TopForm}
    (h : top ∈ (Transcript.ofText text).tops) : search.inTop top = search.references top.form := by
  unfold inTop
  split
  · next hskip =>
    rw [passesOver_recorded] at hskip
    have hnot : search.symbol ∉ top.names := by
      have := (Bool.and_eq_true_iff.mp hskip).2
      simpa using this
    rw [references_eq_nil]
    rwa [← TopForm.mem_names_iff h]
  · rfl

theorem flatMap_inTop (text : List Char) :
    (Transcript.ofText text).tops.flatMap search.inTop =
      (Transcript.ofText text).tops.flatMap fun top => search.references top.form := by
  rw [List.flatMap_def, List.flatMap_def, List.map_congr_left]
  intro top htop
  exact search.inTop_eq_references htop

theorem inDocument_prefilter (symbol : String) (kind : ReferenceKind) (document : Document) :
    (Search.mk symbol kind true).inDocument document =
      (Search.mk symbol kind false).inDocument document := by
  unfold inDocument
  simp only [flatMap_inTop]
  rfl

theorem outcome_prefilter (symbol : String) (kind : ReferenceKind) :
    (Search.mk symbol kind true).outcome = (Search.mk symbol kind false).outcome := by
  funext source
  cases source with
  | document document => exact congrArg Outcome.searched (inDocument_prefilter symbol kind document)
  | skipped name => rfl
  | failed name error => rfl

/-- If the symbol is of the class that the search needs, both searches can be made, and with
or without leaving out forms they have the same outcome for every source and the same result. -/
theorem prefilter_transparent {symbol : String} {kind : ReferenceKind} {lexicon : Option Lexicon}
    (hclass : checkClass kind symbol lexicon = .ok ()) (sources : List Source) :
    ∃ filtered plain : Search,
      prepare symbol kind lexicon true = .ok filtered ∧
      prepare symbol kind lexicon false = .ok plain ∧
      filtered.prefilter = true ∧ plain.prefilter = false ∧
      sources.map filtered.outcome = sources.map plain.outcome ∧
      filtered.run sources = plain.run sources := by
  refine ⟨⟨symbol, kind, true⟩, ⟨symbol, kind, false⟩, ?_, ?_, rfl, rfl, ?_, ?_⟩
  · rw [prepare, hclass]
  · rw [prepare, hclass]
  · rw [outcome_prefilter]
  · rw [run, run, outcome_prefilter]

end Search

open CharacterNames in
/-- A call through a quoted name, a form without the symbol, and an unfinished one. -/
theorem Search.prefilter_transparent_call :
    let lexicon : Lexicon := .table { functionNames := ⟨["f"], List.pairwise_singleton _ _⟩ }
    let sources : List Source := [.document ⟨"a.el", "(funcall #'f 1) (g) (f".toList⟩,
      .skipped "b.el", .failed "c.el" (.missing "c.el")]
    checkClass .functionCall "f" (some lexicon) = .ok () ∧
    ∃ filtered plain : Search,
      prepare "f" .functionCall (some lexicon) true = .ok filtered ∧
      prepare "f" .functionCall (some lexicon) false = .ok plain ∧
      filtered.prefilter = true ∧ plain.prefilter = false ∧
      sources.map filtered.outcome = sources.map plain.outcome ∧
      filtered.run sources = plain.run sources := by
  intro lexicon sources
  have hclass : checkClass .functionCall "f" (some lexicon) = .ok () := rfl
  exact ⟨hclass, prefilter_transparent hclass sources⟩

end LispXref
