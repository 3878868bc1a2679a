import Mathlib.Data.List.Forall2
import LispXref.Proofs.Lexicon.Harvest
import LispXref.Proofs.Reader.QuotesWrittenOut

/-! What documents define after their quotes are written out as lists. Definitions of bare names
stay what they are. A definer that wants a quoted name takes it behind the mark only, so what it
defines is lost, unless the name is defined in the other way too. -/
namespace LispXref

namespace Form

variable {form : Form} {cls : NameClass} {name : String}

/-- The lists that define a name of a class which stands bare after the definer. -/
inductive DefinesBare (cls : NameClass) (name : String) : Form → Prop where
  | intro {label first second : Label} {definer : String} {rest : List Form} :
      definer ∈ Definition.namers cls → DefinesBare cls name
        (.list label (.atom first (.symbol definer) :: .atom second (.symbol name) :: rest))

/-- The lists that define a name of a class which stands behind a quote. -/
inductive DefinesMarked (cls : NameClass) (name : String) : Form → Prop where
  | intro {label first second inner : Label} {definer : String} {rest : List Form} :
      definer ∈ Definition.quotedNamers cls → DefinesMarked cls name
        (.list label (.atom first (.symbol definer)
          :: .quoted second .quote (.atom inner (.symbol name)) :: rest))

theorem defines_iff :
    form.Defines cls name ↔ form.DefinesBare cls name ∨ form.DefinesMarked cls name := by
  constructor
  · intro h
    cases h with
    | named hdefiner => exact .inl ⟨hdefiner⟩
    | quoted hdefiner => exact .inr ⟨hdefiner⟩
  · intro h
    cases h with
    | inl hbare =>
      cases hbare with
      | intro hdefiner => exact .named hdefiner
    | inr hmarked =>
      cases hmarked with
      | intro hdefiner => exact .quoted hdefiner

/-- A form in the code of a form, or the form itself, has a property. -/
def HasInCode (q : Form → Prop) (form : Form) : Prop :=
  ∃ address, form.InCode address ∧ ∃ node, form.at? address = some node ∧ q node

theorem inCode_nil (form : Form) : form.InCode [] :=
  ⟨⟨form, rfl⟩, fun _ houter => absurd houter Address.not_encloses_nil⟩

theorem inCode_cons_iff {i : Nat} {rest : Address} :
    form.InCode (i :: rest) ↔
      form.HoldsCode ∧ ∃ part, form.parts[i]? = some part ∧ part.InCode rest := by
  have hreached {form : Form} {start : Trail} {address : Address} :
      form.Reached (fun _ _ => false) true start address ↔ form.InCode address := reached_true_iff
  rw [← hreached, reached_cons_iff]
  · simp [hreached]
  · exact .top

theorem hasInCode_iff {q : Form → Prop} :
    form.HasInCode q ↔ q form ∨ form.HoldsCode ∧ ∃ part ∈ form.parts, part.HasInCode q := by
  constructor
  · rintro ⟨address, hcode, node, hnode, hq⟩
    cases address with
    | nil =>
      cases hnode
      exact .inl hq
    | cons i rest =>
      obtain ⟨hholds, part, hpart, hrest⟩ := inCode_cons_iff.mp hcode
      obtain ⟨found, hfound, hnode⟩ := at?_cons_eq_some_iff.mp hnode
      obtain rfl : part = found := Option.some.inj (hpart.symm.trans hfound)
      exact .inr ⟨hholds, part, List.mem_of_getElem? hpart, rest, hrest, node, hnode, hq⟩
  · rintro (hq | ⟨hholds, part, hpart, rest, hrest, node, hnode, hq⟩)
    · exact ⟨[], inCode_nil form, form, rfl, hq⟩
    · obtain ⟨i, hi⟩ := List.getElem?_of_mem hpart
      exact ⟨i :: rest, inCode_cons_iff.mpr ⟨hholds, part, hi, hrest⟩, node,
        at?_cons_eq_some_iff.mpr ⟨part, hi, hnode⟩, hq⟩

/-- Changing a form leaves in its code what it leaves in each part, if the parts of code are
changed in the same way and stay code. -/
theorem hasInCode_map {f : Form → Form} {q q' : Form → Prop}
    (hholds : ∀ form, (f form).HoldsCode ↔ form.HoldsCode)
    (hparts : ∀ form, form.HoldsCode → (f form).parts = form.parts.map f)
    (hq : ∀ form, q (f form) ↔ q' form) (form : Form) :
    (f form).HasInCode q ↔ form.HasInCode q' := by
  induction form using induction_parts with
  | step form ih =>
    rw [hasInCode_iff, hasInCode_iff, hq, hholds]
    refine or_congr_right (and_congr_right fun hcode => ?_)
    rw [hparts form hcode]
    simp only [List.mem_map, exists_exists_and_eq_and]
    exact exists_congr fun part => and_congr_right fun hpart => ih part hpart

theorem holdsCode_recast {place : Label → Label} {spelled : Quotation → Bool} (form : Form) :
    (form.recast place spelled).HoldsCode ↔ form.HoldsCode := by
  rw [← isEntered_iff, ← isEntered_iff, isEntered_recast]

theorem eq_atom_of_recast {place : Label → Label} {spelled : Quotation → Bool} {label : Label}
    {value : Atom} (h : form.recast place spelled = .atom label value) :
    ∃ old, form = .atom old value := by
  cases form with
  | atom old other =>
    cases h
    exact ⟨old, rfl⟩
  | list | dotted | vector => cases h
  | quoted old mark operand =>
    rw [recast_quoted] at h
    split at h <;> cases h

/-! Leaving offsets out of account. -/

theorem parts_unplaced (form : Form) : form.unplaced.parts = form.parts.map unplaced := by
  apply parts_recast
  cases form <;> rfl

theorem markedSymbol?_unplaced (form : Form) :
    Definition.markedSymbol? form.unplaced = Definition.markedSymbol? form := by
  cases form with
  | quoted label mark operand => cases mark <;> simp [Definition.markedSymbol?]
  | atom | list | dotted | vector => rfl

theorem ofForm?_unplaced (form : Form) :
    Definition.ofForm? form.unplaced = Definition.ofForm? form := by
  match form with
  | .list label (first :: second :: rest) =>
    simp only [recast_list, List.map_cons, Definition.ofForm?_list, symbol?_recast,
      markedSymbol?_unplaced]
  | .list _ [] | .list _ [_] | .atom _ _ | .dotted _ _ _ | .vector _ _ | .quoted _ _ _ => rfl

theorem defines_unplaced (form : Form) :
    form.unplaced.Defines cls name ↔ form.Defines cls name := by
  rw [← Definition.exists_ofForm?_iff, ofForm?_unplaced, Definition.exists_ofForm?_iff]

/-! Writing quotes out. -/

theorem quotesWrittenOut_ne_quote {label : Label} {operand : Form} :
    form.quotesWrittenOut ≠ .quoted label .quote operand := by
  intro h
  cases form with
  | atom | list | dotted | vector => cases h
  | quoted label mark operand =>
    rw [quotesWrittenOut, recast_quoted] at h
    split at h
    · cases h
    · next hmark =>
      cases h
      exact hmark rfl

theorem not_defines_headAt {label : Label} {start : Nat} {rest : List Form} :
    ¬ Form.Defines cls name (.list label (Quotation.quote.headAt start :: rest)) := by
  intro h
  cases h with
  | named hdefiner | quoted hdefiner =>
    revert hdefiner
    cases cls <;> decide

/-- Only what defines a bare name is a definition afterwards. -/
theorem defines_quotesWrittenOut (form : Form) :
    form.quotesWrittenOut.Defines cls name ↔ form.DefinesBare cls name := by
  constructor
  · intro h
    cases form with
    | atom => cases h
    | dotted | vector => cases h
    | quoted label mark operand =>
      rw [quotesWrittenOut, recast_quoted] at h
      split at h
      · next hmark =>
        obtain rfl := of_decide_eq_true hmark
        exact absurd h not_defines_headAt
      · cases h
    | list label items =>
      rw [quotesWrittenOut, recast_list] at h
      generalize hitems : items.map quotesWrittenOut = written at h
      cases h with
      | named hdefiner =>
        obtain ⟨first, more, rfl, hfirst, hmore⟩ := List.map_eq_cons_iff.mp hitems
        obtain ⟨second, rest, rfl, hsecond, -⟩ := List.map_eq_cons_iff.mp hmore
        obtain ⟨_, rfl⟩ := eq_atom_of_recast hfirst
        obtain ⟨_, rfl⟩ := eq_atom_of_recast hsecond
        exact .intro hdefiner
      | quoted hdefiner =>
        obtain ⟨first, more, rfl, -, hmore⟩ := List.map_eq_cons_iff.mp hitems
        obtain ⟨second, rest, rfl, hsecond, -⟩ := List.map_eq_cons_iff.mp hmore
        exact absurd hsecond quotesWrittenOut_ne_quote
  · intro h
    cases h with
    | intro hdefiner =>
      rw [quotesWrittenOut, recast_list]
      exact .named hdefiner

theorem parts_quotesWrittenOut (h : form.HoldsCode) :
    form.quotesWrittenOut.parts = form.parts.map quotesWrittenOut := by
  apply parts_recast
  cases h with
  | list => rfl
  | template hmark => rcases hmark with rfl | rfl | rfl <;> rfl

end Form

section

variable [CharacterNames]

namespace Document

variable {document written : Document} {cls : NameClass} {name : String}

/-- Some form of a document defines a name of a class that stands bare. -/
def DefinesBare (document : Document) (cls : NameClass) (name : String) : Prop :=
  ∃ form ∈ document.forms, form.HasInCode (Form.DefinesBare cls name)

/-- Some form of a document defines a name of a class that stands behind a quote. -/
def DefinesMarked (document : Document) (cls : NameClass) (name : String) : Prop :=
  ∃ form ∈ document.forms, form.HasInCode (Form.DefinesMarked cls name)

theorem defines_iff :
    document.Defines cls name ↔
      document.DefinesBare cls name ∨ document.DefinesMarked cls name := by
  simp only [Defines, Form.DefinesAt, DefinesBare, DefinesMarked, Form.HasInCode, Form.defines_iff,
    and_or_left, exists_or]

/-- The classes in which quoted names are defined have no names of their own. -/
theorem DefinesMarked.not_mem_names (h : document.DefinesMarked cls name) :
    name ∉ (Harvest.ofDocuments []).table.names cls := by
  obtain ⟨form, -, address, -, node, -, hmarked⟩ := h
  cases hmarked with
  | intro hdefiner =>
    cases cls with
    | functionName | variableName => exact NameSet.not_mem_empty
    | macroName | specialFormName => cases hdefiner

/-- The other document can be read to its end and gives the forms of the first, with every quote
written out as a list and at whatever offsets. -/
structure WritesQuotesOut (document written : Document) : Prop where
  readable : (Transcript.ofText written.text).error = none
  forms : written.forms.map Form.unplaced
    = (document.forms.map Form.quotesWrittenOut).map Form.unplaced

/-- The tokens of the forms of a document on lines, with every quote written out. -/
def quotesWrittenOut (document : Document) : Document :=
  ⟨document.name, laidOut (document.forms.flatMap (Form.tokens document.text))⟩

theorem writesQuotesOut_quotesWrittenOut (document : Document) :
    document.WritesQuotesOut document.quotesWrittenOut := by
  have htokens : ∀ form ∈ document.forms, ∀ cursor,
      ∃ placed, Form.WrittenOutAt document.text cursor form placed := by
    intro form hform cursor
    obtain ⟨top, htop, rfl⟩ := List.mem_map.mp hform
    exact Form.exists_writtenOutAt (fun node => Form.hasTokens_of_mem_tops htop) cursor
  obtain ⟨placed, hplaced, hforms, herror⟩ := exists_readsAll htokens 0
  refine ⟨herror, ?_⟩
  rw [← hplaced]
  exact congrArg (List.map Form.unplaced) hforms

theorem WritesQuotesOut.defines_iff (h : document.WritesQuotesOut written) :
    written.Defines cls name ↔ document.DefinesBare cls name := by
  have hplaces (form : Form) : form.unplaced.HasInCode (Form.Defines cls name)
      ↔ form.HasInCode (Form.Defines cls name) :=
    Form.hasInCode_map Form.holdsCode_recast (fun form _ => form.parts_unplaced)
      Form.defines_unplaced form
  have hquotes (form : Form) : form.quotesWrittenOut.HasInCode (Form.Defines cls name)
      ↔ form.HasInCode (Form.DefinesBare cls name) :=
    Form.hasInCode_map Form.holdsCode_recast (fun _ => Form.parts_quotesWrittenOut)
      Form.defines_quotesWrittenOut form
  calc written.Defines cls name
    _ ↔ ∃ form ∈ written.forms.map Form.unplaced, form.HasInCode (Form.Defines cls name) := by
      simp only [List.mem_map, exists_exists_and_eq_and, hplaces]
      rfl
    _ ↔ document.DefinesBare cls name := by
      rw [h.forms]
      simp only [List.mem_map, exists_exists_and_eq_and, hplaces, hquotes]
      rfl

end Document

namespace Harvest

variable {documents written : List Document} {cls : NameClass} {name : String}

theorem exists_defines_iff_of_forall₂
    (h : List.Forall₂ Document.WritesQuotesOut documents written) :
    (∃ other ∈ written, other.Defines cls name) ↔
      ∃ document ∈ documents, document.DefinesBare cls name := by
  induction h with
  | nil => simp
  | cons hfirst _ ih => simp [hfirst.defines_iff, ih]

theorem mem_names_ofDocuments :
    name ∈ (ofDocuments documents).table.names cls ↔
      name ∈ (ofDocuments []).table.names cls ∨
        ∃ document ∈ documents, document.Defines cls name :=
  mem_names_addAll

/-- Every list of documents can be written with all quotes as lists. However that is done, the
names that are known then are those known without any document and those that a document defines
as bare names. So nothing changes exactly if each name of a class that some document defines
behind a quote is also defined as a bare name of this class. -/
theorem written_out_quotes_keep_bare_names (documents : List Document) :
    (∃ written, List.Forall₂ Document.WritesQuotesOut documents written) ∧
    ∀ written, List.Forall₂ Document.WritesQuotesOut documents written →
      (∀ cls name, name ∈ (ofDocuments written).table.names cls ↔
        name ∈ (ofDocuments []).table.names cls ∨
          ∃ document ∈ documents, document.DefinesBare cls name) ∧
      ((ofDocuments written).table = (ofDocuments documents).table ↔
        ∀ cls name, (∃ document ∈ documents, document.DefinesMarked cls name) →
          ∃ document ∈ documents, document.DefinesBare cls name) := by
  refine ⟨⟨documents.map Document.quotesWrittenOut, ?_⟩, ?_⟩
  · rw [List.forall₂_map_right_iff]
    exact List.forall₂_same.mpr fun document _ => document.writesQuotesOut_quotesWrittenOut
  · intro written hwritten
    have hnames cls name : name ∈ (ofDocuments written).table.names cls ↔
        name ∈ (ofDocuments []).table.names cls ∨
          ∃ document ∈ documents, document.DefinesBare cls name := by
      rw [mem_names_ofDocuments, exists_defines_iff_of_forall₂ hwritten]
    refine ⟨hnames, ?_⟩
    constructor
    · rintro heq cls name ⟨document, hdocument, hmarked⟩
      have hmem : name ∈ (ofDocuments documents).table.names cls :=
        mem_names_ofDocuments.mpr
          (.inr ⟨document, hdocument, Document.defines_iff.mpr (.inr hmarked)⟩)
      rw [← heq, hnames] at hmem
      exact hmem.resolve_left hmarked.not_mem_names
    · intro hbare
      apply NameTable.eq_of_mem_iff
      intro cls name
      refine (hnames cls name).trans (.trans (or_congr_right ⟨?_, ?_⟩) mem_names_ofDocuments.symm)
      · rintro ⟨document, hdocument, hdefines⟩
        exact ⟨document, hdocument, Document.defines_iff.mpr (.inl hdefines)⟩
      · rintro ⟨document, hdocument, hdefines⟩
        cases Document.defines_iff.mp hdefines with
        | inl hdefines => exact ⟨document, hdocument, hdefines⟩
        | inr hmarked => exact hbare cls name ⟨document, hdocument, hmarked⟩

end Harvest

end

namespace Harvest

open CharacterNames in
/-- A function that is defined twice, the second time behind a quote. -/
theorem written_out_quotes_keep_bare_names_defun :
    let document : Document := ⟨"a.el", "(progn (defun f ()) (fset 'f 'g))".toList⟩
    let written : Document := ⟨"a.el", "(progn (defun f ()) (fset (quote f) (quote g)))".toList⟩
    document.WritesQuotesOut written ∧
      "f" ∈ (ofDocuments [written]).table.names .functionName := by
  have hbefore : readFrom 0 "(progn (defun f ()) (fset 'f 'g))".toList [] [] =
      ⟨.form ⟨.list ⟨⟨0, 33⟩, none⟩ [.atom ⟨⟨1, 6⟩, none⟩ (.symbol "progn"),
        .list ⟨⟨7, 19⟩, none⟩
          [.atom ⟨⟨8, 13⟩, none⟩ (.symbol "defun"), .atom ⟨⟨14, 15⟩, none⟩ (.symbol "f"),
          .list ⟨⟨16, 18⟩, none⟩ []],
        .list ⟨⟨20, 32⟩, none⟩ [.atom ⟨⟨21, 25⟩, none⟩ (.symbol "fset"),
          .quoted ⟨⟨26, 28⟩, none⟩ .quote (.atom ⟨⟨27, 28⟩, none⟩ (.symbol "f")),
          .quoted ⟨⟨29, 31⟩, none⟩ .quote (.atom ⟨⟨30, 31⟩, none⟩ (.symbol "g"))]],
        ["g", "f", "fset", "f", "defun", "progn"]⟩, 33⟩ := by
    with_unfolding_all rfl
  have hafter : readFrom 0 "(progn (defun f ()) (fset (quote f) (quote g)))".toList [] [] =
      ⟨.form ⟨.list ⟨⟨0, 47⟩, none⟩ [.atom ⟨⟨1, 6⟩, none⟩ (.symbol "progn"),
        .list ⟨⟨7, 19⟩, none⟩
          [.atom ⟨⟨8, 13⟩, none⟩ (.symbol "defun"), .atom ⟨⟨14, 15⟩, none⟩ (.symbol "f"),
          .list ⟨⟨16, 18⟩, none⟩ []],
        .list ⟨⟨20, 46⟩, none⟩ [.atom ⟨⟨21, 25⟩, none⟩ (.symbol "fset"),
          .list ⟨⟨26, 35⟩, none⟩
            [.atom ⟨⟨27, 32⟩, none⟩ (.symbol "quote"), .atom ⟨⟨33, 34⟩, none⟩ (.symbol "f")],
          .list ⟨⟨36, 45⟩, none⟩
            [.atom ⟨⟨37, 42⟩, none⟩ (.symbol "quote"), .atom ⟨⟨43, 44⟩, none⟩ (.symbol "g")]]],
        ["g", "quote", "f", "quote", "fset", "f", "defun", "progn"]⟩, 47⟩ := by
    with_unfolding_all rfl
  intro document written
  have hwrites : document.WritesQuotesOut written := by
    have htop := Transcript.ofText_of_readFrom hbefore
    have htop' := Transcript.ofText_of_readFrom hafter
    constructor
    · rw [htop']
    · rw [Document.forms, Document.forms, htop, htop']
      rfl
  have hbare : document.DefinesBare .functionName "f" :=
    ⟨_, List.mem_map_of_mem (Transcript.mem_tops_of_readFrom hbefore), [1], by decide, _, rfl,
      .intro (by decide)⟩
  obtain ⟨-, hnames⟩ := written_out_quotes_keep_bare_names [document]
  obtain ⟨hmem, -⟩ := hnames [written] (.cons hwrites .nil)
  exact ⟨hwrites, (hmem _ _).mpr (.inr ⟨document, List.mem_cons_self, hbare⟩)⟩

open CharacterNames in
/-- The name of an alias is known if it stands behind a quote, and unknown if the quote is
written out. -/
theorem written_out_alias_unknown :
    let document : Document := ⟨"a.el", "(defalias 'f 'g)".toList⟩
    let written : Document := ⟨"a.el", "(defalias (quote f) (quote g))".toList⟩
    document.WritesQuotesOut written ∧
      "f" ∈ (ofDocuments [document]).table.names .functionName ∧
      "f" ∉ (ofDocuments [written]).table.names .functionName := by
  have hbefore : readFrom 0 "(defalias 'f 'g)".toList [] [] =
      ⟨.form ⟨.list ⟨⟨0, 16⟩, none⟩ [.atom ⟨⟨1, 9⟩, none⟩ (.symbol "defalias"),
        .quoted ⟨⟨10, 12⟩, none⟩ .quote (.atom ⟨⟨11, 12⟩, none⟩ (.symbol "f")),
        .quoted ⟨⟨13, 15⟩, none⟩ .quote (.atom ⟨⟨14, 15⟩, none⟩ (.symbol "g"))],
        ["g", "f", "defalias"]⟩, 16⟩ := by
    with_unfolding_all rfl
  have hafter : readFrom 0 "(defalias (quote f) (quote g))".toList [] [] =
      ⟨.form ⟨.list ⟨⟨0, 30⟩, none⟩ [.atom ⟨⟨1, 9⟩, none⟩ (.symbol "defalias"),
        .list ⟨⟨10, 19⟩, none⟩
          [.atom ⟨⟨11, 16⟩, none⟩ (.symbol "quote"), .atom ⟨⟨17, 18⟩, none⟩ (.symbol "f")],
        .list ⟨⟨20, 29⟩, none⟩
          [.atom ⟨⟨21, 26⟩, none⟩ (.symbol "quote"), .atom ⟨⟨27, 28⟩, none⟩ (.symbol "g")]],
        ["g", "quote", "f", "quote", "defalias"]⟩, 30⟩ := by
    with_unfolding_all rfl
  intro document written
  have htop := Transcript.ofText_of_readFrom hbefore
  have htop' := Transcript.ofText_of_readFrom hafter
  refine ⟨⟨?_, ?_⟩, ?_, ?_⟩
  · rw [htop']
  · rw [Document.forms, Document.forms, htop, htop']
    rfl
  · refine mem_names_ofDocuments.mpr (.inr ⟨document, List.mem_cons_self, ?_⟩)
    exact ⟨_, List.mem_map_of_mem (Transcript.mem_tops_of_readFrom hbefore), [], by decide, _, rfl,
      .quoted (by decide)⟩
  · intro hmem
    have hnone : written.definitions = [] := by
      rw [Document.definitions, htop']
      with_unfolding_all rfl
    rcases mem_names_ofDocuments.mp hmem with hstart | ⟨other, hother, hdefines⟩
    · exact NameSet.not_mem_empty hstart
    · obtain rfl := List.mem_singleton.mp hother
      obtain ⟨d, hd, -⟩ := Document.exists_mem_definitions_iff.mpr hdefines
      rw [hnone] at hd
      cases hd

end Harvest

end LispXref
