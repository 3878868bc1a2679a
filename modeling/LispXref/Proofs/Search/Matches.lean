import LispXref.Proofs.Form.Walk
import LispXref.Proofs.Reader.Reread
import LispXref.Proofs.Search.Prefilter
import LispXref.Proofs.Search.WrittenOut

/-! Matches follow one another in their document, none inside another, and the text of each,
read alone, is again a reference of the kind that was searched for. -/
namespace LispXref

/-- Forms between two offsets, each of which ends before the later ones start. -/
structure Spread (start stop : Nat) (forms : List Form) : Prop where
  ordered : forms.Pairwise fun a b => a.stop ≤ b.start
  inside : ∀ form ∈ forms, start ≤ form.start ∧ form.stop ≤ stop

namespace Spread

variable {start stop : Nat} {form : Form} {forms : List Form}

theorem nil : Spread start stop [] := ⟨.nil, by simp⟩

theorem singleton (form : Form) : Spread form.start form.stop [form] :=
  ⟨List.pairwise_singleton _ _, by simp⟩

theorem cons {middle : Nat} (hstart : start ≤ form.start) (hform : form.start ≤ form.stop)
    (hmiddle : form.stop ≤ middle) (hstop : middle ≤ stop) (h : Spread middle stop forms) :
    Spread start stop (form :: forms) := by
  constructor
  · refine .cons (fun other hother => ?_) h.ordered
    exact Nat.le_trans hmiddle (h.inside other hother).1
  · refine List.forall_mem_cons.mpr ⟨⟨hstart, by omega⟩, fun other hother => ?_⟩
    obtain ⟨hs, he⟩ := h.inside other hother
    exact ⟨by omega, he⟩

theorem sublist {found : List Form} (h : Spread start stop forms) (hsub : found.Sublist forms) :
    Spread start stop found :=
  ⟨h.ordered.sublist hsub, fun form hform => h.inside form (hsub.subset hform)⟩

/-- What is found inside forms that are spread out is spread out as well. -/
theorem flatMap {ι : Type} {entries : List ι} {whole : ι → Form} {found : ι → List Form}
    (h : Spread start stop (entries.map whole))
    (hfound : ∀ e ∈ entries, Spread (whole e).start (whole e).stop (found e)) :
    Spread start stop (entries.flatMap found) := by
  constructor
  · rw [List.pairwise_flatMap]
    refine ⟨fun e he => (hfound e he).ordered, ?_⟩
    apply (List.pairwise_map.mp h.ordered).imp_of_mem
    intro e e' he he' hle first hfirst second hsecond
    have hstop := ((hfound e he).inside first hfirst).2
    have hstart := ((hfound e' he').inside second hsecond).1
    omega
  · intro form hform
    obtain ⟨e, he, hin⟩ := List.mem_flatMap.mp hform
    obtain ⟨hs, hl⟩ := (hfound e he).inside form hin
    obtain ⟨hws, hwl⟩ := h.inside (whole e) (List.mem_map.mpr ⟨e, he, rfl⟩)
    exact ⟨by omega, by omega⟩

end Spread

namespace Form

/-- A walk that does not descend into matches ends at a form that is one, and otherwise goes
through its parts if these are code. -/
theorem walk_false_eq (p : Form → Trail → Bool) (trail : Trail) (form : Form) :
    form.walk p false trail =
      if p form trail then [(form, trail)]
      else if form.isEntered then
        form.parts.zipIdx.flatMap fun e => e.1.walk p false (trail.push (form.frameFor e.2))
      else [] := by
  rw [walk_eq]
  cases p form trail <;> cases form.isEntered <;> rfl

end Form

section

variable {text : List Char} {form : Form}

theorem Tiled.spread_parts (h : Tiled text form) : Spread form.start form.stop form.parts :=
  ⟨h.tilesSpan.ordered, h.tilesSpan.inside⟩

theorem Tiled.of_part {part : Form} (h : Tiled text form) (hpart : part ∈ form.parts) :
    Tiled text part :=
  h.of_mem_nodes (Form.mem_nodes_of_part hpart (Form.mem_nodes_self part))

/-- The matches of a walk that stops at matches. -/
theorem Tiled.spread_walk (h : Tiled text form) (p : Form → Trail → Bool) (trail : Trail) :
    Spread form.start form.stop ((form.walk p false trail).map (·.1)) := by
  induction form using Form.induction_parts generalizing trail with
  | step form ih =>
    rw [Form.walk_false_eq]
    split
    · exact .singleton form
    · split
      · rw [List.map_flatMap]
        have hparts : Spread form.start form.stop (form.parts.zipIdx.map (·.1)) := by
          rw [List.zipIdx_map_fst]
          exact h.spread_parts
        apply hparts.flatMap
        intro e he
        have hpart : e.1 ∈ form.parts := List.fst_mem_of_mem_zipIdx he
        exact ih e.1 hpart (h.of_part hpart) _
      · exact .nil

theorem Tiled.spread_leaves (h : Tiled text form) : Spread form.start form.stop form.leaves := by
  induction form using Form.induction_parts with
  | step form ih =>
    have hparts : Spread form.start form.stop (form.parts.flatMap Form.leaves) := by
      have hspread : Spread form.start form.stop (form.parts.map id) := by
        rw [List.map_id]
        exact h.spread_parts
      exact hspread.flatMap fun part hpart => ih part hpart (h.of_part hpart)
    cases form with
    | atom label value =>
      cases value with
      | symbol name => exact .singleton _
      | number value => exact .nil
      | string value => exact .nil
    | dotted label items tail => exact .nil
    | list label items =>
      rw [Form.leaves_list]
      exact hparts
    | vector label items =>
      rw [Form.leaves_vector]
      exact hparts
    | quoted label mark operand =>
      rw [Form.leaves_quoted]
      simpa [Form.parts] using hparts

theorem Tiled.spread_references (h : Tiled text form) (search : Search) :
    Spread form.start form.stop (search.references form) := by
  unfold Search.references
  split
  · rw [Form.symbolsWhere_eq]
    exact h.spread_leaves.sublist List.filter_sublist
  · exact h.spread_walk _ _
  · exact h.spread_walk _ _

end

namespace Reference

variable {symbol : String} {form : Form} {trail : Trail}

/-- Nothing around a form makes it introduce names. -/
theorem bindsAsList_top : bindsAsList .top = false := rfl

theorem bindsAsName_top : bindsAsName .top = false := rfl

/-- A call in any place is one when it stands alone. -/
theorem isCall_top (h : isCall symbol form trail = true) : isCall symbol form .top = true := by
  unfold isCall at h ⊢
  split at h
  · rw [bindsAsList_top, Bool.not_false, Bool.true_and]
    exact (Bool.and_eq_true_iff.mp h).2
  · cases h

theorem exists_list_of_isCall (h : isCall symbol form trail = true) :
    ∃ span items, form = .list span items := by
  unfold isCall at h
  split at h
  · next span first rest => exact ⟨span, first :: rest, rfl⟩
  · cases h

end Reference

/-- A form is by itself, with nothing around it, a reference of a kind. -/
def ReferenceKind.ShownBy (kind : ReferenceKind) (symbol : String) (form : Form) : Prop :=
  match kind with
  | .occurrence | .variableUse => ∃ span, form = .atom span (.symbol symbol)
  | .functionCall | .macroCall | .specialCall =>
    (∃ span items, form = .list span items) ∧ Reference.isCall symbol form .top = true

theorem Form.isSymbol_iff {form : Form} {symbol : String} :
    form.isSymbol symbol = true ↔ ∃ span, form = .atom span (.symbol symbol) := by
  constructor
  · intro h
    cases form with
    | atom label value => cases value <;> simp_all [Form.isSymbol, Form.symbol?]
    | list | dotted | vector | quoted => cases h
  · rintro ⟨span, rfl⟩
    simp [Form.isSymbol, Form.symbol?]

theorem ReferenceKind.ShownBy.of_shift {kind : ReferenceKind} {symbol : String} {form : Form}
    {distance : Nat} (h : kind.ShownBy symbol (form.shift distance)) :
    kind.ShownBy symbol form := by
  cases kind with
  | occurrence | variableUse =>
    have hsymbol := Form.isSymbol_iff.mpr h
    rw [Form.shift, Form.isSymbol_recast] at hsymbol
    exact Form.isSymbol_iff.mp hsymbol
  | functionCall | macroCall | specialCall =>
    have hcall := h.2
    rw [Form.shift, Reference.isCall_recast (by simp)] at hcall
    exact ⟨Reference.exists_list_of_isCall hcall, hcall⟩

theorem Span.slice_take {span : Span} {kept : Nat} (text : List Char) (h : span.stop ≤ kept) :
    span.slice (text.take kept) = span.slice text := by
  rw [slice, slice, List.drop_take, List.take_take, Nat.min_eq_left (by omega)]

/-- A match as it is reported, apart from the name of its document: where it starts and
stops, its line and its text. -/
def Match.row (m : Match) : Nat × Nat × Nat × List Char := (m.start, m.stop, m.line, m.text)

/-- A match is reported in the same way if the text is cut somewhere after it. -/
theorem Match.row_take {name : CodeText} {text : List Char} {form : Form} {kept : Nat}
    (hform : form.start < form.stop) (hkept : form.stop ≤ kept) :
    (Match.mk ⟨name, text.take kept⟩ form).row = (Match.mk ⟨name, text⟩ form).row := by
  have hline : (text.take kept).take form.start = text.take form.start := by
    rw [List.take_take, Nat.min_eq_left (by omega)]
  simp only [row, start, stop, line, Match.text, hline, Span.slice_take text hkept]

namespace Search

theorem shownBy_of_mem_references {search : Search} {form found : Form}
    (h : found ∈ search.references form) :
    found ∈ form.nodes ∧ search.kind.ShownBy search.symbol found := by
  obtain ⟨symbol, kind, prefilter⟩ := search
  cases kind with
  | occurrence =>
    rw [references, Form.symbolsWhere_eq] at h
    obtain ⟨hleaf, hsymbol⟩ := List.mem_filter.mp h
    exact ⟨Form.mem_nodes_of_mem_leaves hleaf, Form.isSymbol_iff.mp hsymbol⟩
  | variableUse =>
    obtain ⟨v, hv, rfl⟩ := List.mem_map.mp h
    obtain ⟨hnode, hvariable⟩ := Form.mem_nodes_of_mem_walk hv
    exact ⟨hnode, Form.isSymbol_iff.mp (Bool.and_eq_true_iff.mp hvariable).1⟩
  | functionCall | macroCall | specialCall =>
    obtain ⟨v, hv, rfl⟩ := List.mem_map.mp h
    obtain ⟨hnode, hcall⟩ := Form.mem_nodes_of_mem_walk hv
    exact ⟨hnode, Reference.exists_list_of_isCall hcall, Reference.isCall_top hcall⟩

/-- Nothing else is found in a form that is itself a reference. -/
theorem references_of_shownBy {search : Search} {form : Form}
    (h : search.kind.ShownBy search.symbol form) : search.references form = [form] := by
  obtain ⟨symbol, kind, prefilter⟩ := search
  cases kind with
  | occurrence =>
    obtain ⟨span, rfl⟩ := h
    simp [references, Form.symbolsWhere_eq, Form.isSymbol, Form.symbol?]
  | variableUse =>
    have hvariable : Reference.isVariable symbol form .top = true := by
      rw [Reference.isVariable, Form.isSymbol_iff.mpr h, Reference.bindsAsName_top]
      rfl
    simp only [references]
    rw [Form.walk_false_eq, if_pos hvariable]
    rfl
  | functionCall | macroCall | specialCall =>
    simp only [references]
    rw [Form.walk_false_eq, if_pos h.2]
    rfl

end Search

section

variable [CharacterNames]

/-- Forms that are read one after another follow one another in the text. -/
theorem ReadsInTurn.spread {text : List Char} {cursor : Nat} {tops : List TopForm}
    (h : ReadsInTurn text cursor tops) : Spread cursor text.length (tops.map (·.form)) := by
  induction tops generalizing cursor with
  | nil => exact .nil
  | cons top rest ih =>
    obtain ⟨stop, hreads, hrest⟩ := h
    obtain ⟨hgap, hstop, htiled⟩ := hreads.tiles rfl
    exact .cons hgap.le (Nat.le_of_lt htiled.within.1) (Nat.le_of_eq hstop) hreads.stop_le
      (ih hrest)

theorem Transcript.tiled_of_mem_tops {text : List Char} {top : TopForm}
    (h : top ∈ (Transcript.ofText text).tops) : Tiled text top.form := by
  obtain ⟨start, stop, hreads⟩ := exists_reads_of_mem_tops h
  obtain ⟨-, -, htiled⟩ := hreads.tiles rfl
  exact htiled

/-- The references in all forms of a text. -/
theorem Search.spread_references (search : Search) (text : List Char) :
    Spread 0 text.length
      ((Transcript.ofText text).tops.flatMap fun top => search.references top.form) := by
  have htops := (Transcript.readsInTurn text).spread
  exact htops.flatMap fun top htop => (Transcript.tiled_of_mem_tops htop).spread_references search

namespace Search

theorem allMatches_inDocument (search : Search) (document : Document) :
    (search.inDocument document).allMatches =
      ((Transcript.ofText document.text).tops.flatMap fun top => search.references top.form).map
        (⟨document, ·⟩) := by
  rw [Findings.allMatches, inDocument]
  simp only [flatMap_inTop]

theorem within_of_mem_found {search : Search} {document : Document} {form : Form}
    (h : form ∈ (search.inDocument document).found) :
    form.start < form.stop ∧ form.stop ≤ document.text.length := by
  have hfound : form ∈ (Transcript.ofText document.text).tops.flatMap fun top =>
      search.references top.form := by
    rwa [← flatMap_inTop]
  obtain ⟨top, htop, href⟩ := List.mem_flatMap.mp hfound
  obtain ⟨hnode, -⟩ := shownBy_of_mem_references href
  exact ((Transcript.tiled_of_mem_tops htop).of_mem_nodes hnode).within

/-- If the symbol is of the class that the search needs, the matches in a document lie within
its text, counted from one, and follow one another; the text of each holds just one form, and
that is a reference by itself. Forms of the document that are references themselves are among
them. -/
theorem matches_disjoint_and_shown {symbol : String} {kind : ReferenceKind}
    {lexicon : Option Lexicon} (hclass : checkClass kind symbol lexicon = .ok ())
    (prefilter : Bool) (document : Document) :
    ∃ search, prepare symbol kind lexicon prefilter = .ok search ∧
      (∀ m ∈ (search.inDocument document).allMatches,
        1 ≤ m.start ∧ m.start < m.stop ∧ m.stop ≤ document.text.length + 1 ∧
        ∃ reread : TopForm, Transcript.ofText m.text = ⟨[reread], none⟩ ∧
          kind.ShownBy symbol reread.form) ∧
      ((search.inDocument document).allMatches.Pairwise fun a b => a.stop ≤ b.start) ∧
      ∀ top ∈ (Transcript.ofText document.text).tops, kind.ShownBy symbol top.form →
        ⟨document, top.form⟩ ∈ (search.inDocument document).allMatches := by
  refine ⟨⟨symbol, kind, prefilter⟩, by rw [prepare, hclass], ?_, ?_, ?_⟩
  · intro m hm
    rw [allMatches_inDocument] at hm
    obtain ⟨form, hform, rfl⟩ := List.mem_map.mp hm
    obtain ⟨top, htop, href⟩ := List.mem_flatMap.mp hform
    obtain ⟨hnode, hshown⟩ := shownBy_of_mem_references href
    obtain ⟨hlt, hle⟩ := ((Transcript.tiled_of_mem_tops htop).of_mem_nodes hnode).within
    obtain ⟨reread, hreread, hshift⟩ := (rereadable_of_mem_tops htop hnode).transcript_slice
    refine ⟨Nat.le_add_left 1 _, Nat.succ_lt_succ hlt, Nat.succ_le_succ hle, reread, hreread, ?_⟩
    rw [← hshift] at hshown
    exact hshown.of_shift
  · rw [allMatches_inDocument, List.pairwise_map]
    have hspread := (Search.mk symbol kind prefilter).spread_references document.text
    exact hspread.ordered.imp fun hle => Nat.succ_le_succ hle
  · intro top htop hshown
    rw [allMatches_inDocument]
    refine List.mem_map.mpr ⟨top.form, List.mem_flatMap.mpr ⟨top, htop, ?_⟩, rfl⟩
    rw [references_of_shownBy hshown]
    exact List.mem_singleton_self _

end Search

end

open CharacterNames in
/-- A call through a quoted name before one with another inside it, which is not finished. -/
theorem Search.matches_disjoint_and_shown_indirect :
    let lexicon : Lexicon := .table { functionNames := ⟨["f"], List.pairwise_singleton _ _⟩ }
    let document : Document := ⟨"a.el", "(apply 'f 1) (f (f 2)".toList⟩
    checkClass .functionCall "f" (some lexicon) = .ok () ∧
    ∃ search, prepare "f" .functionCall (some lexicon) true = .ok search ∧
      (∃ m ∈ (search.inDocument document).allMatches, m.text = "(apply 'f 1)".toList ∧
        1 ≤ m.start ∧ m.start < m.stop ∧ m.stop ≤ document.text.length + 1 ∧
        ∃ reread : TopForm, Transcript.ofText m.text = ⟨[reread], none⟩ ∧
          ReferenceKind.functionCall.ShownBy "f" reread.form) ∧
      (search.inDocument document).allMatches.Pairwise fun a b => a.stop ≤ b.start := by
  intro lexicon document
  have hclass : checkClass .functionCall "f" (some lexicon) = .ok () := rfl
  have hread : readFrom 0 document.text [] [] =
      ⟨.form ⟨.list ⟨⟨0, 12⟩, none⟩ [.atom ⟨⟨1, 6⟩, none⟩ (.symbol "apply"),
        .quoted ⟨⟨7, 9⟩, none⟩ .quote (.atom ⟨⟨8, 9⟩, none⟩ (.symbol "f")),
        .atom ⟨⟨10, 11⟩, none⟩ (.number (.integer 1))], ["f", "apply"]⟩, 12⟩ := by
    with_unfolding_all rfl
  obtain ⟨search, hsearch, hmatches, hordered, htops⟩ :=
    matches_disjoint_and_shown hclass true document
  have hmem := htops _ (Transcript.mem_tops_of_readFrom hread) ⟨⟨_, _, rfl⟩, rfl⟩
  exact ⟨hclass, search, hsearch, ⟨_, hmem, rfl, hmatches _ hmem⟩, hordered⟩

end LispXref
