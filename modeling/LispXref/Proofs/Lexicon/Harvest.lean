import LispXref.Proofs.Form.Site
import LispXref.Proofs.Search.Prefilter

/-! What documents define. The names in a harvest are those with which it started and those that
the documents define, so that neither the order of the documents nor their number counts. -/
namespace LispXref

theorem NameSet.eq_of_mem_iff {s t : NameSet} (h : ∀ name, name ∈ s ↔ name ∈ t) : s = t := by
  obtain ⟨first, hfirst⟩ := s
  obtain ⟨second, hsecond⟩ := t
  have hperm : first.Perm second := by
    apply (List.perm_ext_iff_of_nodup ?_ ?_).mpr h
    · exact hfirst.imp fun hlt => Std.ne_of_lt hlt
    · exact hsecond.imp fun hlt => Std.ne_of_lt hlt
  have heq := hperm.eq_of_pairwise
    (fun a b _ _ hab hba => absurd hba (String.lt_asymm hab)) hfirst hsecond
  subst heq
  rfl

theorem NameTable.eq_of_mem_iff {s t : NameTable}
    (h : ∀ cls name, name ∈ s.names cls ↔ name ∈ t.names cls) : s = t := by
  have hnames (cls : NameClass) : s.names cls = t.names cls := NameSet.eq_of_mem_iff (h cls)
  obtain ⟨functionNames, macroNames, specialFormNames, variableNames⟩ := s
  obtain rfl := hnames .functionName
  obtain rfl := hnames .macroName
  obtain rfl := hnames .specialFormName
  obtain rfl := hnames .variableName
  rfl

namespace Definition

/-- The heads of lists that define a name of a class, with the name after them. -/
def namers : NameClass → List String
  | .functionName => functionDefiners
  | .macroName => macroDefiners
  | .variableName => variableDefiners
  | .specialFormName => []

/-- The heads of lists that define a name of a class, with the quoted name after them. -/
def quotedNamers : NameClass → List String
  | .functionName => functionAliasers
  | .variableName => variableAliasers
  | .macroName | .specialFormName => []

end Definition

/-- The lists that define a name of a class. -/
inductive Form.Defines (cls : NameClass) (name : String) : Form → Prop where
  | named {label first second : Label} {definer : String} {rest : List Form} :
      definer ∈ Definition.namers cls → Form.Defines cls name
        (.list label (.atom first (.symbol definer) :: .atom second (.symbol name) :: rest))
  | quoted {label first second inner : Label} {definer : String} {rest : List Form} :
      definer ∈ Definition.quotedNamers cls → Form.Defines cls name
        (.list label (.atom first (.symbol definer)
          :: .quoted second .quote (.atom inner (.symbol name)) :: rest))

namespace Definition

/-- The name that a definition introduces is of a class. -/
def isOf (cls : NameClass) (d : Definition) : Bool :=
  match cls with
  | .functionName => d.definesFunction
  | .macroName => d.definesMacro
  | .variableName => d.definesVariable
  | .specialFormName => false

theorem ofForm?_list (label : Label) (first second : Form) (rest : List Form) :
    ofForm? (.list label (first :: second :: rest)) =
      first.symbol?.bind fun definer =>
        if definer ∈ definers then
          (if definer ∈ aliasers then markedSymbol? second else second.symbol?).map (⟨definer, ·⟩)
        else none := by
  cases hfirst : first.symbol? with
  | none => simp [ofForm?, hfirst]
  | some definer =>
    by_cases halias : definer ∈ aliasers
    · cases hname : markedSymbol? second <;> simp [ofForm?, hfirst, halias, hname]
    · cases hname : second.symbol? <;> simp [ofForm?, hfirst, halias, hname]

/-- A form makes a definition if it is a list with a definer at its head and a name after it, in
the shape that the definer wants. -/
theorem ofForm?_eq_some_iff {form : Form} {d : Definition} :
    ofForm? form = some d ↔ ∃ label first second rest,
      form = .list label (first :: second :: rest) ∧ first.symbol? = some d.definer ∧
        d.definer ∈ definers ∧
        (if d.definer ∈ aliasers then markedSymbol? second else second.symbol?) = some d.name := by
  constructor
  · intro h
    match form with
    | .list label (first :: second :: rest) =>
      rw [ofForm?_list] at h
      obtain ⟨definer, hfirst, h⟩ := Option.bind_eq_some_iff.mp h
      split at h
      · next hdefiner =>
        obtain ⟨name, hname, rfl⟩ := Option.map_eq_some_iff.mp h
        exact ⟨label, first, second, rest, rfl, hfirst, hdefiner, hname⟩
      · cases h
    | .list _ [] | .list _ [_] | .atom _ _ | .dotted _ _ _ | .vector _ _ | .quoted _ _ _ => cases h
  · rintro ⟨label, first, second, rest, rfl, hfirst, hdefiner, hname⟩
    rw [ofForm?_list, hfirst, Option.bind_some, if_pos hdefiner, hname]
    rfl

theorem markedSymbol?_eq_some_iff {form : Form} {name : String} :
    markedSymbol? form = some name ↔
      ∃ label inner, form = .quoted label .quote (.atom inner (.symbol name)) := by
  constructor
  · intro h
    match form with
    | .quoted label .quote operand =>
      obtain ⟨inner, rfl⟩ := Form.symbol?_eq_some_iff.mp h
      exact ⟨label, inner, rfl⟩
  · rintro ⟨label, inner, rfl⟩
    rfl

theorem mem_definers_of_mem_namers {cls : NameClass} {definer : String}
    (h : definer ∈ namers cls) : definer ∈ definers ∧ definer ∉ aliasers := by
  revert definer h
  cases cls <;> decide

theorem mem_definers_of_mem_quotedNamers {cls : NameClass} {definer : String}
    (h : definer ∈ quotedNamers cls) : definer ∈ definers ∧ definer ∈ aliasers := by
  revert definer h
  cases cls <;> decide

theorem isOf_iff {cls : NameClass} {d : Definition} :
    d.isOf cls = true ↔ d.definer ∈ namers cls ∨ d.definer ∈ quotedNamers cls := by
  cases cls <;>
    simp [isOf, namers, quotedNamers, definesFunction, definesMacro, definesVariable]

theorem exists_isOf_of_mem_definers {d : Definition} (h : d.definer ∈ definers) :
    ∃ cls, d.isOf cls = true := by
  simp only [definers, aliasers, List.mem_append] at h
  rcases h with ((h | h) | h) | h | h
  · exact ⟨.functionName, isOf_iff.mpr (.inl h)⟩
  · exact ⟨.macroName, isOf_iff.mpr (.inl h)⟩
  · exact ⟨.variableName, isOf_iff.mpr (.inl h)⟩
  · exact ⟨.functionName, isOf_iff.mpr (.inr h)⟩
  · exact ⟨.variableName, isOf_iff.mpr (.inr h)⟩

/-- Whether a form defines a name of a class can be read off the definition that it makes. -/
theorem exists_ofForm?_iff {form : Form} {cls : NameClass} {name : String} :
    (∃ d, ofForm? form = some d ∧ d.isOf cls = true ∧ d.name = name) ↔ form.Defines cls name := by
  constructor
  · rintro ⟨d, hd, hof, rfl⟩
    obtain ⟨label, first, second, rest, rfl, hfirst, -, hname⟩ := ofForm?_eq_some_iff.mp hd
    obtain ⟨inner, rfl⟩ := Form.symbol?_eq_some_iff.mp hfirst
    rcases isOf_iff.mp hof with hnamer | hnamer
    · rw [if_neg (mem_definers_of_mem_namers hnamer).2] at hname
      obtain ⟨other, rfl⟩ := Form.symbol?_eq_some_iff.mp hname
      exact .named hnamer
    · rw [if_pos (mem_definers_of_mem_quotedNamers hnamer).2] at hname
      obtain ⟨other, operand, rfl⟩ := markedSymbol?_eq_some_iff.mp hname
      exact .quoted hnamer
  · intro h
    cases h with
    | named hnamer =>
      obtain ⟨hdefiner, halias⟩ := mem_definers_of_mem_namers hnamer
      refine ⟨⟨_, name⟩, ofForm?_eq_some_iff.mpr ⟨_, _, _, _, rfl, rfl, hdefiner, ?_⟩,
        isOf_iff.mpr (.inl hnamer), rfl⟩
      rw [if_neg halias]
      rfl
    | quoted hnamer =>
      obtain ⟨hdefiner, halias⟩ := mem_definers_of_mem_quotedNamers hnamer
      refine ⟨⟨_, name⟩, ofForm?_eq_some_iff.mpr ⟨_, _, _, _, rfl, rfl, hdefiner, ?_⟩,
        isOf_iff.mpr (.inr hnamer), rfl⟩
      rw [if_pos halias]
      rfl

theorem isDefinition_iff {form : Form} {trail : Trail} :
    isDefinition form trail = true ↔ ∃ cls name, form.Defines cls name := by
  rw [isDefinition, Option.isSome_iff_exists]
  constructor
  · rintro ⟨d, hd⟩
    obtain ⟨-, -, -, -, -, -, hdefiner, -⟩ := ofForm?_eq_some_iff.mp hd
    obtain ⟨cls, hof⟩ := exists_isOf_of_mem_definers hdefiner
    exact ⟨cls, d.name, exists_ofForm?_iff.mp ⟨d, hd, hof, rfl⟩⟩
  · rintro ⟨cls, name, hdefines⟩
    obtain ⟨d, hd, -⟩ := exists_ofForm?_iff.mpr hdefines
    exact ⟨d, hd⟩

/-- A form that makes a definition names its definer. -/
theorem definer_mem_symbolNames {form : Form} {d : Definition} (h : ofForm? form = some d) :
    d.definer ∈ definers ∧ d.definer ∈ form.symbolNames := by
  obtain ⟨label, first, second, rest, rfl, hfirst, hdefiner, -⟩ := ofForm?_eq_some_iff.mp h
  refine ⟨hdefiner, Form.mem_symbolNames_iff.mpr ⟨first, ?_, hfirst⟩⟩
  exact Form.mem_nodes_of_part List.mem_cons_self (Form.mem_nodes_self first)

end Definition

/-- The list at an address of a form defines a name of a class, and the forms around are code. -/
def Form.DefinesAt (form : Form) (cls : NameClass) (name : String) (address : Address) : Prop :=
  form.InCode address ∧ ∃ node, form.at? address = some node ∧ node.Defines cls name

theorem Form.mem_sites_isDefinition_iff {form : Form} {address : Address} :
    address ∈ form.sites Definition.isDefinition true ↔
      ∃ cls name, form.DefinesAt cls name address := by
  rw [mem_sites_true_iff]
  constructor
  · rintro ⟨hcode, hsat⟩
    obtain ⟨node, hnode⟩ := hcode.leads
    rw [satisfies_of_at? hnode] at hsat
    obtain ⟨cls, name, hdefines⟩ := Definition.isDefinition_iff.mp hsat
    exact ⟨cls, name, hcode, node, hnode, hdefines⟩
  · rintro ⟨cls, name, hcode, node, hnode, hdefines⟩
    rw [satisfies_of_at? hnode]
    exact ⟨hcode, Definition.isDefinition_iff.mpr ⟨cls, name, hdefines⟩⟩

theorem Harvest.mem_names_collect {table : NameTable} {ds : List Definition} {cls : NameClass}
    {name : String} :
    name ∈ (collect table ds).names cls ↔
      name ∈ table.names cls ∨ ∃ d ∈ ds, d.isOf cls = true ∧ d.name = name := by
  cases cls <;>
    simp [collect, NameTable.names, Definition.isOf, and_assoc]

section

variable [CharacterNames]

/-- Leaving out forms in which no definer occurs loses no definition. -/
theorem Definition.ofTop_eq {text : List Char} {top : TopForm}
    (h : top ∈ (Transcript.ofText text).tops) :
    ofTop top = ((top.form.walk isDefinition true .top).map (·.1)).filterMap ofForm? := by
  rw [ofTop, List.filterMap_map]
  split
  · rfl
  · next hskip =>
    symm
    apply List.filterMap_eq_nil_iff.mpr
    intro v hv
    rw [Function.comp_apply, Option.eq_none_iff_forall_ne_some]
    intro d hd
    obtain ⟨hdefiner, hnamed⟩ := definer_mem_symbolNames hd
    have hnode := (Form.mem_nodes_of_mem_walk hv).1
    have hname := (TopForm.mem_names_iff h).mpr (Form.mem_symbolNames_of_mem_nodes hnode hnamed)
    exact hskip (List.any_eq_true.mpr ⟨d.definer, hname, List.contains_iff_mem.mpr hdefiner⟩)

/-- A form has as many definitions as there are addresses of defining lists in its code. -/
theorem Definition.length_ofTop {text : List Char} {top : TopForm}
    (h : top ∈ (Transcript.ofText text).tops) :
    (ofTop top).length = (top.form.sites isDefinition true).length := by
  have hsites := congrArg List.length (top.form.map_at?_sites isDefinition true)
  rw [List.length_map, List.length_map] at hsites
  rw [hsites, ofTop_eq h, List.filterMap_length_eq_length]
  intro node hnode
  obtain ⟨v, hv, rfl⟩ := List.mem_map.mp hnode
  exact (Form.mem_nodes_of_mem_walk hv).2

namespace Document

/-- The forms that can be read from a document, up to its first fault. -/
def forms (document : Document) : List Form :=
  (Transcript.ofText document.text).tops.map (·.form)

/-- Some form of a document defines a name of a class. -/
def Defines (document : Document) (cls : NameClass) (name : String) : Prop :=
  ∃ form ∈ document.forms, ∃ address, form.DefinesAt cls name address

def definitions (document : Document) : List Definition :=
  (Transcript.ofText document.text).tops.flatMap Definition.ofTop

theorem exists_mem_definitions_iff {document : Document} {cls : NameClass} {name : String} :
    (∃ d ∈ document.definitions, d.isOf cls = true ∧ d.name = name) ↔
      document.Defines cls name := by
  constructor
  · rintro ⟨d, hd, hof, hname⟩
    obtain ⟨top, htop, hd⟩ := List.mem_flatMap.mp hd
    rw [Definition.ofTop_eq htop] at hd
    obtain ⟨node, hnode, hd⟩ := List.mem_filterMap.mp hd
    obtain ⟨address, hsite, hat⟩ := Form.mem_map_walk_iff.mp hnode
    have hdefines := Definition.exists_ofForm?_iff.mp ⟨d, hd, hof, hname⟩
    exact ⟨top.form, List.mem_map_of_mem htop, address, (Form.mem_sites_true_iff.mp hsite).1, node,
      hat, hdefines⟩
  · rintro ⟨form, hform, address, hcode, node, hat, hdefines⟩
    obtain ⟨top, htop, rfl⟩ := List.mem_map.mp hform
    obtain ⟨d, hd, hof, hname⟩ := Definition.exists_ofForm?_iff.mpr hdefines
    have hsite := Form.mem_sites_isDefinition_iff.mpr ⟨cls, name, hcode, node, hat, hdefines⟩
    refine ⟨d, List.mem_flatMap.mpr ⟨top, htop, ?_⟩, hof, hname⟩
    rw [Definition.ofTop_eq htop]
    exact List.mem_filterMap.mpr ⟨node, Form.mem_map_walk_iff.mpr ⟨address, hsite, hat⟩, hd⟩

/-- The places of the lists that define something: which form of the document, and where in it. -/
def definitionSites (document : Document) : List (Nat × Address) :=
  document.forms.zipIdx.flatMap fun e => (e.1.sites Definition.isDefinition true).map (e.2, ·)

theorem mem_definitionSites_iff {document : Document} {position : Nat} {address : Address} :
    (position, address) ∈ document.definitionSites ↔
      ∃ form, document.forms[position]? = some form ∧
        ∃ cls name, form.DefinesAt cls name address := by
  rw [definitionSites, List.mem_flatMap]
  constructor
  · rintro ⟨⟨form, index⟩, hform, hmem⟩
    obtain ⟨found, hsite, heq⟩ := List.mem_map.mp hmem
    cases heq
    exact ⟨form, List.mem_zipIdx_iff_getElem?.mp hform, Form.mem_sites_isDefinition_iff.mp hsite⟩
  · rintro ⟨form, hform, hdefines⟩
    exact ⟨(form, position), List.mem_zipIdx_iff_getElem?.mpr hform,
      List.mem_map_of_mem (Form.mem_sites_isDefinition_iff.mpr hdefines)⟩

theorem nodup_definitionSites (document : Document) : document.definitionSites.Nodup := by
  rw [definitionSites, List.Nodup, List.pairwise_flatMap]
  constructor
  · intro e _
    refine List.pairwise_map.mpr ((e.1.sites_increase Definition.isDefinition true).imp ?_)
    rintro a b hlt heq
    cases heq
    exact List.lt_irrefl _ hlt
  · refine (Form.zipIdx_positions_increase document.forms).imp ?_
    rintro e e' hlt _ ha _ hb rfl
    obtain ⟨a, -, rfl⟩ := List.mem_map.mp ha
    obtain ⟨b, -, heq⟩ := List.mem_map.mp hb
    have hposition : e'.2 = e.2 := congrArg Prod.fst heq
    omega

theorem length_definitions (document : Document) :
    document.definitions.length = document.definitionSites.length := by
  have hsites : document.definitionSites.length
      = (document.forms.map fun form => (form.sites Definition.isDefinition true).length).sum := by
    simp only [definitionSites, List.length_flatMap, List.length_map]
    conv_rhs => rw [← List.zipIdx_map_fst 0 document.forms, List.map_map]
    rfl
  rw [hsites, definitions, List.length_flatMap, forms, List.map_map]
  refine congrArg List.sum (List.map_congr_left fun top htop => ?_)
  exact Definition.length_ofTop htop

end Document

namespace Harvest

variable {harvest : Harvest} {documents : List Document}

/-- Adds documents one after another. -/
def addAll (harvest : Harvest) (documents : List Document) : Harvest :=
  documents.foldl (fun h d => (h.add d).1) harvest

/-- One document adds the names that it defines. -/
theorem mem_names_add {document : Document} {cls : NameClass} {name : String} :
    name ∈ (harvest.add document).1.table.names cls ↔
      name ∈ harvest.table.names cls ∨ document.Defines cls name := by
  rw [← Document.exists_mem_definitions_iff]
  exact mem_names_collect

theorem mem_names_addAll {cls : NameClass} {name : String} :
    name ∈ (harvest.addAll documents).table.names cls ↔
      name ∈ harvest.table.names cls ∨ ∃ document ∈ documents, document.Defines cls name := by
  induction documents generalizing harvest with
  | nil => simp [addAll]
  | cons document rest ih =>
    have hcons : harvest.addAll (document :: rest) = (harvest.add document).1.addAll rest := rfl
    rw [hcons, ih, mem_names_add]
    simp [or_assoc]

theorem errors_addAll :
    (harvest.addAll documents).errors = harvest.errors ++ documents.filterMap fun document =>
      (Transcript.ofText document.text).error.map (document.name, ·) := by
  induction documents generalizing harvest with
  | nil => simp [addAll]
  | cons document rest ih =>
    have hcons : harvest.addAll (document :: rest) = (harvest.add document).1.addAll rest := rfl
    rw [hcons, ih, List.filterMap_cons]
    cases herror : (Transcript.ofText document.text).error with
    | none => simp [add, herror]
    | some error => simp [add, herror]

theorem addAll_concat (document : Document) :
    harvest.addAll (documents ++ [document]) = ((harvest.addAll documents).add document).1 := by
  rw [addAll, List.foldl_append]
  rfl

/-- The names in a harvest depend only on which documents were added. -/
theorem table_addAll_congr {others : List Document}
    (h : ∀ document, document ∈ documents ↔ document ∈ others) :
    (harvest.addAll documents).table = (harvest.addAll others).table := by
  apply NameTable.eq_of_mem_iff
  intro cls name
  simp only [mem_names_addAll, h]

/-- A harvest that starts with some names and to which documents are added. It holds, class by
class, the names with which it started and those that some document defines. Adding a document,
to whatever harvest, counts the lists in it that define something, and the errors are those of
the unreadable documents in order. Forms may be left out by their names, documents may be
taken in another order, and adding one of them again changes no name. -/
theorem addAll_exact (functionNames macroNames variableNames : NameSet)
    (documents : List Document) :
    let before := start functionNames macroNames variableNames
    let after := before.addAll documents
    (∀ cls name, name ∈ after.table.names cls ↔
      name ∈ before.table.names cls ∨ ∃ document ∈ documents, document.Defines cls name) ∧
    (∀ document : Document, ∃ sites : List (Nat × Address), sites.Nodup ∧
      (∀ position address, (position, address) ∈ sites ↔
        ∃ form, document.forms[position]? = some form ∧
          ∃ cls name, form.DefinesAt cls name address) ∧
      ∀ harvest : Harvest, (harvest.add document).2 = sites.length) ∧
    after.errors = (documents.filterMap fun document =>
      (Transcript.ofText document.text).error.map (document.name, ·)) ∧
    (∀ text, ∀ top ∈ (Transcript.ofText text).tops, Definition.ofTop top =
      ((top.form.walk Definition.isDefinition true .top).map (·.1)).filterMap
        Definition.ofForm?) ∧
    (∀ others, documents.Perm others → (before.addAll others).table = after.table) ∧
    ∀ document ∈ documents, (after.add document).1.table = after.table := by
  refine ⟨?_, ?_, ?_, ?_, ?_, ?_⟩
  · intro cls name
    exact mem_names_addAll
  · intro document
    exact ⟨document.definitionSites, document.nodup_definitionSites,
      fun _ _ => Document.mem_definitionSites_iff, fun _ => document.length_definitions⟩
  · exact errors_addAll
  · intro text top htop
    exact Definition.ofTop_eq htop
  · intro others hperm
    exact table_addAll_congr fun _ => hperm.symm.mem_iff
  · intro document hdocument
    rw [← addAll_concat]
    apply table_addAll_congr
    intro other
    rw [List.mem_append, List.mem_singleton]
    constructor
    · rintro (hother | rfl)
      · exact hother
      · exact hdocument
    · exact .inl

end Harvest

end

open CharacterNames in
/-- A definition inside another one, and a second document that defines the same function. -/
theorem Harvest.addAll_exact_nested :
    let first : Document := ⟨"a.el", "(defun f () (defvar v))".toList⟩
    let second : Document := ⟨"b.el", "(defalias 'f 'g)".toList⟩
    let after := ofDocuments [first, second]
    "v" ∈ after.table.names .variableName ∧
    [first, second].Perm [second, first] ∧
    (ofDocuments [second, first]).table = after.table ∧
    first ∈ [first, second] ∧ (after.add first).1.table = after.table := by
  intro first second after
  let inner : Form :=
    .list ⟨⟨12, 22⟩, none⟩
      [.atom ⟨⟨13, 19⟩, none⟩ (.symbol "defvar"), .atom ⟨⟨20, 21⟩, none⟩ (.symbol "v")]
  let form : Form := .list ⟨⟨0, 23⟩, none⟩
    [.atom ⟨⟨1, 6⟩, none⟩ (.symbol "defun"), .atom ⟨⟨7, 8⟩, none⟩ (.symbol "f"),
      .list ⟨⟨9, 11⟩, none⟩ [], inner]
  have hread : readFrom 0 first.text [] [] = ⟨.form ⟨form, ["v", "defvar", "f", "defun"]⟩, 23⟩ := by
    with_unfolding_all rfl
  obtain ⟨hnames, -, -, -, hperm, hagain⟩ := addAll_exact ∅ ∅ ∅ [first, second]
  have hdefines : first.Defines .variableName "v" :=
    ⟨form, List.mem_map_of_mem (Transcript.mem_tops_of_readFrom hread), [3], by decide, _, rfl,
      .named (by decide)⟩
  have hmem : first ∈ [first, second] := List.mem_cons_self
  have hswap : [first, second].Perm [second, first] := .swap _ _ _
  exact ⟨(hnames _ _).mpr (.inr ⟨first, hmem, hdefines⟩), hswap, hperm _ hswap, hmem,
    hagain _ hmem⟩

end LispXref
