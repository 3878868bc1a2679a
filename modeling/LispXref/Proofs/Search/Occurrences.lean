import LispXref.Proofs.Form.Site
import LispXref.Proofs.Reader.Names
import LispXref.Proofs.Reader.Progress
import LispXref.Search

/-! The names on record for a form that was read, and those that a search reports for a
document, are exactly the names of the symbols there. -/
namespace LispXref

/-- A set holds the names of the symbols anywhere in some forms, and no others. -/
def NameSet.Names (set : NameSet) (forms : List Form) : Prop :=
  ∀ name, name ∈ set ↔ ∃ form ∈ forms, ∃ node ∈ form.nodes, node.symbol? = some name

theorem NameSet.names_ofList_iff {names : List String} {forms : List Form} :
    (NameSet.ofList names).Names forms ↔
      ∀ name, name ∈ names ↔ ∃ form ∈ forms, name ∈ form.symbolNames := by
  simp only [NameSet.Names, NameSet.mem_ofList, Form.mem_symbolNames_iff]

namespace TopForm

theorem names_label_recorded (top : TopForm) :
    top.recorded.label.names = some (NameSet.ofList top.names) := by
  rw [recorded, Form.label_relabel]

theorem symbolNames_recorded (top : TopForm) : top.recorded.symbolNames = top.form.symbolNames :=
  Form.symbolNames_relabel _ _

/-- The forms inside are not touched when names are put on record. -/
theorem at?_recorded (top : TopForm) {address : Address} (h : address ≠ []) :
    top.recorded.at? address = top.form.at? address := by
  obtain ⟨i, rest, rfl⟩ := List.exists_cons_of_ne_nil h
  rw [recorded, Form.at?, Form.parts_relabel, Form.at?]

end TopForm

section

variable [CharacterNames]

namespace Reader

variable {reader after : Reader} {top : TopForm}

/-- The names met while a form was read are those of the symbols in it. -/
theorem names_of_next (h : reader.next = (.form top, after)) :
    (NameSet.ofList top.names).Names [top.recorded] := by
  obtain ⟨stop, -, hreads⟩ := exists_reads_of_next h
  rw [NameSet.names_ofList_iff]
  intro name
  rw [hreads.mem_names Iff.rfl]
  simp [TopForm.symbolNames_recorded]

/-- No form inside one that was read has names on record. -/
theorem names_label_of_next (h : reader.next = (.form top, after)) {address : Address} {node : Form}
    (hne : address ≠ []) (hnode : top.recorded.at? address = some node) :
    node.label.names = none := by
  obtain ⟨stop, -, hreads⟩ := exists_reads_of_next h
  obtain ⟨-, -, htiled⟩ := hreads.tiles rfl
  rw [top.at?_recorded hne] at hnode
  obtain ⟨marks, hdecomposes⟩ := htiled node (Form.mem_nodes_of_at? hnode)
  exact hdecomposes.names_label

end Reader

theorem Transcript.names_tops (text : List Char) :
    (NameSet.ofList ((Transcript.ofText text).tops.flatMap (·.names))).Names
      ((Transcript.ofText text).tops.map TopForm.recorded) := by
  rw [NameSet.names_ofList_iff]
  intro name
  rw [List.mem_flatMap]
  constructor
  · rintro ⟨top, htop, hname⟩
    refine ⟨top.recorded, List.mem_map.mpr ⟨top, htop, rfl⟩, ?_⟩
    rw [top.symbolNames_recorded]
    exact (TopForm.mem_names_iff htop).mp hname
  · rintro ⟨form, hform, hname⟩
    obtain ⟨top, htop, rfl⟩ := List.mem_map.mp hform
    rw [top.symbolNames_recorded] at hname
    exact ⟨top, htop, (TopForm.mem_names_iff htop).mpr hname⟩

namespace Search

variable (search : Search) {document : Document}

theorem names_of_error {error : ReadError}
    (h : (Transcript.ofText document.text).error = some error) :
    (search.inDocument document).names = none := by
  simp [inDocument, h]

theorem names_of_no_error (h : (Transcript.ofText document.text).error = none) :
    (search.inDocument document).names
      = some (NameSet.ofList ((Transcript.ofText document.text).tops.flatMap (·.names))) := by
  simp [inDocument, h]

end Search

/-- Of whatever form a reader gives, wherever it stands, the names of all its symbols are on
record, and of no form inside it. Whatever is searched for, a document is reported with the names
on record for all the forms that a reader gives one after another if it then comes to the end,
and without names if it comes upon a fault. -/
theorem occurrences_exact (text : List Char) :
    (∀ place top after, Reader.next ⟨text, place⟩ = (.form top, after) →
      (∃ names, top.recorded.label.names = some names ∧ names.Names [top.recorded]) ∧
        ∀ address node, address ≠ [] → top.recorded.at? address = some node →
          node.label.names = none) ∧
    ∀ (search : Search) (title : CodeText), ∃ tops : List TopForm,
      (∀ k top, tops[k]? = some top → Reader.reading (.ofText text) k = .form top) ∧
      ((∃ error, Reader.reading (.ofText text) tops.length = .malformed error ∧
          (search.inDocument ⟨title, text⟩).names = none) ∨
        Reader.reading (.ofText text) tops.length = .endOfText ∧
          ∃ names, (search.inDocument ⟨title, text⟩).names = some names ∧
            (∀ name, name ∈ names ↔ ∃ top ∈ tops, ∃ record,
              top.recorded.label.names = some record ∧ name ∈ record) ∧
            names.Names (tops.map TopForm.recorded)) := by
  refine ⟨?_, ?_⟩
  · intro place top after hnext
    refine ⟨⟨_, top.names_label_recorded, Reader.names_of_next hnext⟩, ?_⟩
    intro address node hne hnode
    exact Reader.names_label_of_next hnext hne hnode
  · intro search title
    obtain ⟨hforms, hlast⟩ := Reader.reading_of_readSteps (Nat.zero_le text.length)
    refine ⟨(Transcript.ofText text).tops, hforms, ?_⟩
    have hend : Reader.reading (.ofText text) (Transcript.ofText text).tops.length
        = (Transcript.ofText text).error.elim .endOfText .malformed := hlast
    cases herror : (Transcript.ofText text).error with
    | some error =>
      rw [herror] at hend
      exact .inl ⟨error, hend, search.names_of_error herror⟩
    | none =>
      rw [herror] at hend
      refine .inr ⟨hend, _, search.names_of_no_error herror, ?_, Transcript.names_tops text⟩
      intro name
      simp [TopForm.names_label_recorded]

end

open CharacterNames in
/-- A quoted symbol, one that is not interned and the empty one, inside an improper list, and then
another form; and a bracket too many, with which the names before it are not reported. -/
theorem occurrences_exact_dotted :
    (∃ top after, Reader.next ⟨"(a 'b . [#:c ##]) d".toList, 0⟩ = (.form top, after) ∧
      (∃ names, top.recorded.label.names = some names ∧ names.Names [top.recorded] ∧
        ∀ name, name ∈ names ↔ name ∈ ["", "a", "b", "c"]) ∧
      (∀ address node, address ≠ [] → top.recorded.at? address = some node →
        node.label.names = none) ∧
      ∃ node, top.recorded.at? [2, 1] = some node ∧ node.symbol? = some "") ∧
    (∃ names, ((Search.mk "x" .functionCall true).inDocument
        ⟨CodeText.ofString "c.el", "(a 'b . [#:c ##]) d".toList⟩).names = some names ∧
      ∀ name, name ∈ names ↔ name ∈ ["", "a", "b", "c", "d"]) ∧
    ((Search.mk "a" .occurrence true).inDocument
      ⟨CodeText.ofString "c.el", "(a 'b) c)".toList⟩).names = none := by
  have hread : readFrom 0 "(a 'b . [#:c ##]) d".toList [] [] =
      ⟨.form ⟨.dotted ⟨⟨0, 17⟩, none⟩
          [.atom ⟨⟨1, 2⟩, none⟩ (.symbol "a"),
            .quoted ⟨⟨3, 5⟩, none⟩ .quote (.atom ⟨⟨4, 5⟩, none⟩ (.symbol "b"))]
          (.vector ⟨⟨8, 16⟩, none⟩
            [.atom ⟨⟨9, 12⟩, none⟩ (.symbol "c"), .atom ⟨⟨13, 15⟩, none⟩ (.symbol "")]),
          ["", "c", "b", "a"]⟩, 17⟩ := by
    with_unfolding_all rfl
  have hnext : Reader.next ⟨"(a 'b . [#:c ##]) d".toList, 0⟩ = (.form _, _) :=
    Reader.next_of_readFrom hread
  have hall : ((Transcript.ofText "(a 'b . [#:c ##]) d".toList).tops.map (·.names),
      (Transcript.ofText "(a 'b . [#:c ##]) d".toList).error)
        = ([["", "c", "b", "a"], ["d"]], none) := by
    with_unfolding_all rfl
  obtain ⟨htops, hend⟩ := Prod.mk.inj hall
  obtain ⟨hreader, -⟩ := occurrences_exact "(a 'b . [#:c ##]) d".toList
  obtain ⟨⟨names, hrecord, hnames⟩, hinside⟩ := hreader _ _ _ hnext
  refine ⟨⟨_, _, hnext, ⟨names, hrecord, hnames, ?_⟩, hinside, _, rfl, rfl⟩,
    ⟨_, Search.names_of_no_error _ hend, ?_⟩, ?_⟩
  · cases hrecord
    intro name
    simp only [NameSet.mem_ofList]
    grind
  · intro name
    rw [NameSet.mem_ofList, List.flatMap_def, htops]
    grind
  · with_unfolding_all rfl

end LispXref
