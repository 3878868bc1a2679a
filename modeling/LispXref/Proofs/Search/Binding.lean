import LispXref.Proofs.Form.Site
import LispXref.Proofs.Search.Matches

/-! Names that are used and names that are introduced. Which of the two a symbol or a list is
follows from the slots in which it and the forms around it stand, and the frames of its trail
tell these slots. A search finds exactly the uses in code without templates; in a template it
takes an unquoted form for a binder if its mark stands in a slot for one. -/
namespace LispXref

namespace Form

/-- The slot at one position of the lists that certain symbols head. -/
inductive HeadedSlot (heads : List String) (index : Nat) : Form → Nat → Prop where
  | intro {label first : Label} {head : String} {rest : List Form} : head ∈ heads →
      HeadedSlot heads index (.list label (.atom first (.symbol head) :: rest)) index

/-- The slot for the bindings of a let form. -/
def LetSlot : Form → Nat → Prop := HeadedSlot ["let", "let*"] 1

/-- The slots in which names are introduced: argument lists, and the bindings of let forms. -/
def BinderSlot (parent : Form) (position : Nat) : Prop :=
  HeadedSlot ["defun", "defsubst", "defmacro", "cl-defun"] 2 parent position ∨
    HeadedSlot ["lambda", "let", "let*"] 1 parent position

/-- A form that quotes a symbol, by a mark or written out as a list. -/
inductive QuotedName (symbol : String) : Form → Prop where
  | mark {label inner : Label} {mark : Quotation} : mark = .quote ∨ mark = .function →
      QuotedName symbol (.quoted label mark (.atom inner (.symbol symbol)))
  | list {label first second : Label} {head : String} : head = "quote" ∨ head = "function" →
      QuotedName symbol (.list label [.atom first (.symbol head), .atom second (.symbol symbol)])

/-- The lists that call a symbol, in whatever place. -/
inductive Calls (symbol : String) : Form → Prop where
  | direct {label first : Label} {rest : List Form} :
      Calls symbol (.list label (.atom first (.symbol symbol) :: rest))
  | indirect {label first : Label} {caller : String} {second : Form} {rest : List Form} :
      caller = "funcall" ∨ caller = "apply" → QuotedName symbol second →
      Calls symbol (.list label (.atom first (.symbol caller) :: second :: rest))

/-- A frame tells its slot, if its head cannot be that of a list abbreviated by a mark. -/
theorem frameFor_mem_map_iff {heads : List String} {index position : Nat} {parent : Form}
    (hheads : ∀ mark : Quotation, mark.head ∉ heads) :
    parent.frameFor position ∈ heads.map (fun head => (⟨some head, index⟩ : Frame)) ↔
      HeadedSlot heads index parent position := by
  constructor
  · intro h
    obtain ⟨head, hhead, hframe⟩ := List.mem_map.mp h
    cases parent with
    | atom | dotted | vector => cases hframe
    | quoted label mark operand =>
      obtain rfl : head = mark.head := Option.some.inj (congrArg Frame.head hframe)
      exact absurd hhead (hheads mark)
    | list label items =>
      have hindex : (index : Int) = position := congrArg Frame.index hframe
      obtain rfl : index = position := Int.ofNat.inj hindex
      cases items with
      | nil => cases hframe
      | cons first rest =>
        have hfirst : some head = first.symbol? := congrArg Frame.head hframe
        obtain ⟨inner, rfl⟩ := symbol?_eq_some_iff.mp hfirst.symm
        exact .intro hhead
  · intro h
    cases h with
    | intro hhead => exact List.mem_map.mpr ⟨_, hhead, rfl⟩

theorem frameFor_mem_letLists_iff {parent : Form} {position : Nat} :
    parent.frameFor position ∈ Reference.letLists ↔ parent.LetSlot position := by
  have hmap : Reference.letLists
      = ["let", "let*"].map fun head => ⟨some head, (1 : Nat)⟩ := rfl
  rw [hmap, frameFor_mem_map_iff]
  · rfl
  · intro mark
    cases mark <;> decide

theorem frameFor_mem_binderLists_iff {parent : Form} {position : Nat} :
    parent.frameFor position ∈ Reference.binderLists ↔ parent.BinderSlot position := by
  have hsplit : Reference.binderLists
      = ["defun", "defsubst", "defmacro", "cl-defun"].map (fun head => ⟨some head, (2 : Nat)⟩)
        ++ ["lambda", "let", "let*"].map (fun head => ⟨some head, (1 : Nat)⟩) := rfl
  rw [hsplit, List.mem_append, frameFor_mem_map_iff, frameFor_mem_map_iff]
  · rfl
  · intro mark
    cases mark <;> decide
  · intro mark
    cases mark <;> decide

end Form

namespace Reference

variable {symbol : String} {form node : Form} {address : Address} {trail : Trail}

theorem isQuotedSymbol_iff : isQuotedSymbol form symbol = true ↔ form.QuotedName symbol := by
  constructor
  · intro h
    unfold isQuotedSymbol at h
    split at h
    · next label first second =>
      simp only [Bool.and_eq_true, Bool.or_eq_true, Form.isSymbol_iff] at h
      obtain ⟨⟨inner, rfl⟩ | ⟨inner, rfl⟩, other, rfl⟩ := h
      · exact .list (.inl rfl)
      · exact .list (.inr rfl)
    · next label mark operand =>
      simp only [Bool.and_eq_true, Bool.or_eq_true, decide_eq_true_eq, Form.isSymbol_iff] at h
      obtain ⟨hmark, inner, rfl⟩ := h
      exact .mark hmark
    · cases h
  · intro h
    cases h with
    | mark hmark => simpa [isQuotedSymbol, Form.isSymbol, Form.symbol?] using hmark
    | list hhead => simpa [isQuotedSymbol, Form.isSymbol, Form.symbol?] using hhead

theorem isCall_iff :
    isCall symbol form trail = true ↔ form.Calls symbol ∧ bindsAsList trail = false := by
  constructor
  · intro h
    unfold isCall at h
    split at h
    · next label first rest =>
      simp only [Bool.and_eq_true, Bool.or_eq_true, Bool.not_eq_true'] at h
      obtain ⟨hbinds, hfirst | ⟨hcaller, hquoted⟩⟩ := h
      · obtain ⟨inner, rfl⟩ := Form.isSymbol_iff.mp hfirst
        exact ⟨.direct, hbinds⟩
      · obtain ⟨caller, hmem, hcaller⟩ := List.any_eq_true.mp hcaller
        obtain ⟨inner, rfl⟩ := Form.isSymbol_iff.mp hcaller
        cases rest with
        | nil => cases hquoted
        | cons second rest =>
          exact ⟨.indirect (by simpa [indirectCallers] using hmem) (isQuotedSymbol_iff.mp hquoted),
            hbinds⟩
    · cases h
  · rintro ⟨hcalls, hbinds⟩
    cases hcalls with
    | direct => simp [isCall, hbinds, Form.isSymbol, Form.symbol?]
    | indirect hcaller hquoted =>
      have hsecond := isQuotedSymbol_iff.mpr hquoted
      rcases hcaller with rfl | rfl
      · simp [isCall, hbinds, hsecond, indirectCallers, Form.isSymbol, Form.symbol?]
      · simp [isCall, hbinds, hsecond, indirectCallers, Form.isSymbol, Form.symbol?]

theorem frameIn_iff {frames : List Frame} (n : Nat)
    (h : form.placeAt? .top address = some (node, trail)) :
    frameIn frames trail n = true ↔
      form.StandsIn (fun parent position => parent.frameFor position ∈ frames)
        (Address.parent^[n] address) := by
  rw [frameIn, Form.any_frameAt?_iff _ n h]
  simp only [List.contains_iff_mem]

/-- Where a list introduces names. -/
theorem bindsAsList_iff (h : form.placeAt? .top address = some (node, trail)) :
    bindsAsList trail = true ↔
      form.StandsIn Form.BinderSlot address ∨ form.StandsIn Form.LetSlot address.parent := by
  rw [bindsAsList, Bool.or_eq_true, frameIn_iff 0 h, frameIn_iff 1 h]
  simp only [Form.frameFor_mem_binderLists_iff, Form.frameFor_mem_letLists_iff]
  rfl

/-- Where a symbol is introduced. -/
theorem bindsAsName_iff (h : form.placeAt? .top address = some (node, trail)) :
    bindsAsName trail = true ↔
      form.StandsIn Form.BinderSlot address ∨ form.StandsIn Form.BinderSlot address.parent ∨
        form.StandsIn (fun parent position => (parent.frameFor position).index = 0) address ∧
          form.StandsIn Form.LetSlot address.parent.parent := by
  rw [bindsAsName, Bool.or_eq_true, Bool.or_eq_true, Bool.and_eq_true, frameIn_iff 0 h,
    frameIn_iff 1 h, frameIn_iff 2 h, Form.any_frameAt?_iff _ 0 h, or_assoc]
  simp only [Form.frameFor_mem_binderLists_iff, Form.frameFor_mem_letLists_iff,
    decide_eq_true_eq]
  rfl

theorem satisfies_isVariable_iff :
    form.satisfies (isVariable symbol) .top address = true ↔
      (∃ label, form.at? address = some (.atom label (.symbol symbol))) ∧
        ¬ form.StandsIn Form.BinderSlot address ∧
        ¬ form.StandsIn Form.BinderSlot address.parent ∧
        ¬ (form.StandsIn (fun parent position => (parent.frameFor position).index = 0) address ∧
          form.StandsIn Form.LetSlot address.parent.parent) := by
  cases hnode : form.at? address with
  | none => simp [Form.satisfies, Form.placeAt?, hnode]
  | some node =>
    rw [Form.satisfies_of_at? hnode, isVariable, Bool.and_eq_true, Form.isSymbol_iff,
      Bool.not_eq_true', ← Bool.not_eq_true, bindsAsName_iff (Form.placeAt?_of_at? .top hnode),
      not_or, not_or]
    simp only [Option.some.injEq]

theorem satisfies_isCall_iff :
    form.satisfies (isCall symbol) .top address = true ↔
      (∃ node, form.at? address = some node ∧ node.Calls symbol) ∧
        ¬ form.StandsIn Form.BinderSlot address ∧ ¬ form.StandsIn Form.LetSlot address.parent := by
  cases hnode : form.at? address with
  | none => simp [Form.satisfies, Form.placeAt?, hnode]
  | some node =>
    rw [Form.satisfies_of_at? hnode, isCall_iff, ← Bool.not_eq_true,
      bindsAsList_iff (Form.placeAt?_of_at? .top hnode), not_or]
    simp only [Option.some.injEq, exists_eq_left']

/-- What is around a symbol is no symbol, so that a walk for uses comes to all of them. -/
theorem mem_sites_isVariable_iff :
    address ∈ form.sites (isVariable symbol) false ↔
      form.InCode address ∧ form.satisfies (isVariable symbol) .top address = true := by
  rw [Form.mem_sites_false_iff]
  constructor
  · rintro ⟨hcode, hsat, -⟩
    exact ⟨hcode, hsat⟩
  · rintro ⟨hcode, hsat⟩
    refine ⟨hcode, hsat, fun outer houter => ?_⟩
    obtain ⟨node, hnode, hholds⟩ := hcode.around outer houter
    rw [← Bool.not_eq_true, satisfies_isVariable_iff]
    rintro ⟨⟨label, hatom⟩, -⟩
    rw [hnode] at hatom
    cases hatom
    cases hholds

end Reference

namespace Form

variable {form : Form} {address : Address}

/-- No form inside is marked as a template or as unquoted. -/
def NoTemplate (form : Form) : Prop :=
  ∀ label mark operand, .quoted label mark operand ∈ form.nodes → mark = .quote ∨ mark = .function

/-- All forms around the one at an address are lists, and none of them is a written-out
quotation. -/
def InLists (form : Form) (address : Address) : Prop :=
  ∀ outer : Address, outer.Encloses address → ∃ label items,
    form.at? outer = some (.list label items) ∧
      (Form.list label items).head? ≠ some "quote" ∧ (Form.list label items).head? ≠ some "function"

theorem inCode_iff_inLists (hplain : form.NoTemplate) {node : Form}
    (hnode : form.at? address = some node) : form.InCode address ↔ form.InLists address := by
  constructor
  · intro h outer houter
    obtain ⟨around, haround, hholds⟩ := h.around outer houter
    cases hholds with
    | list hquote hfunction => exact ⟨_, _, haround, hquote, hfunction⟩
    | template htemplate =>
      rcases hplain _ _ _ (mem_nodes_of_at? haround) with rfl | rfl <;> simp at htemplate
  · intro h
    refine ⟨⟨node, hnode⟩, fun outer houter => ?_⟩
    obtain ⟨label, items, haround, hquote, hfunction⟩ := h outer houter
    exact ⟨_, haround, .list hquote hfunction⟩

/-- A symbol of a name in code, in a place where no name is introduced. -/
structure UsedAt (form : Form) (symbol : String) (address : Address) : Prop where
  named : ∃ label, form.at? address = some (.atom label (.symbol symbol))
  inLists : form.InLists address
  notBinder : ¬ form.StandsIn BinderSlot address
  notInBinder : ¬ form.StandsIn BinderSlot address.parent
  notInBinding : ¬ (form.StandsIn (fun _ position => position = 0) address ∧
    form.StandsIn LetSlot address.parent.parent)

/-- A list in code that calls a symbol, in a place where no list introduces names. -/
structure CalledAt (form : Form) (symbol : String) (address : Address) : Prop where
  calls : ∃ node, form.at? address = some node ∧ node.Calls symbol
  inLists : form.InLists address
  notBinder : ¬ form.StandsIn BinderSlot address
  notBinding : ¬ form.StandsIn LetSlot address.parent

/-- Among lists, the frame of the first item is the one with index zero. -/
theorem standsIn_index_zero_iff (h : form.InLists address) :
    form.StandsIn (fun parent position => (parent.frameFor position).index = 0) address ↔
      form.StandsIn (fun _ position => position = 0) address := by
  constructor
  · rintro ⟨outer, parent, position, rfl, hparent, hzero⟩
    obtain ⟨label, items, hlist, -⟩ := h outer (Address.encloses_concat outer position)
    rw [hlist] at hparent
    cases hparent
    exact ⟨outer, _, position, rfl, hlist, Int.ofNat.inj hzero⟩
  · rintro ⟨outer, parent, position, rfl, hparent, rfl⟩
    obtain ⟨label, items, hlist, -⟩ := h outer (Address.encloses_concat outer 0)
    exact ⟨outer, _, 0, rfl, hlist, rfl⟩

theorem mem_sites_isVariable_iff_usedAt {symbol : String} (hplain : form.NoTemplate) :
    address ∈ form.sites (Reference.isVariable symbol) false ↔ form.UsedAt symbol address := by
  rw [Reference.mem_sites_isVariable_iff, Reference.satisfies_isVariable_iff]
  constructor
  · rintro ⟨hcode, ⟨label, hnamed⟩, hbinder, hinBinder, hinBinding⟩
    have hlists := (inCode_iff_inLists hplain hnamed).mp hcode
    rw [standsIn_index_zero_iff hlists] at hinBinding
    exact ⟨⟨label, hnamed⟩, hlists, hbinder, hinBinder, hinBinding⟩
  · rintro ⟨⟨label, hnamed⟩, hlists, hbinder, hinBinder, hinBinding⟩
    rw [← standsIn_index_zero_iff hlists] at hinBinding
    exact ⟨(inCode_iff_inLists hplain hnamed).mpr hlists, ⟨label, hnamed⟩, hbinder, hinBinder,
      hinBinding⟩

theorem mem_sites_isCall_iff_calledAt {symbol : String} (hplain : form.NoTemplate) :
    address ∈ form.sites (Reference.isCall symbol) false ↔
      form.CalledAt symbol address ∧
        ∀ site ∈ form.sites (Reference.isCall symbol) false, ¬ site.Encloses address := by
  rw [mem_sites_false_iff_outermost, Reference.satisfies_isCall_iff, ← and_assoc]
  refine and_congr_left fun _ => ?_
  constructor
  · rintro ⟨hcode, ⟨node, hnode, hcalls⟩, hbinder, hbinding⟩
    exact ⟨⟨node, hnode, hcalls⟩, (inCode_iff_inLists hplain hnode).mp hcode, hbinder, hbinding⟩
  · rintro ⟨⟨node, hnode, hcalls⟩, hlists, hbinder, hbinding⟩
    exact ⟨(inCode_iff_inLists hplain hnode).mpr hlists, ⟨node, hnode, hcalls⟩, hbinder, hbinding⟩

end Form

namespace Search

/-- Addresses, in order of writing, at which a search finds its references in a form. -/
structure FindsAt (search : Search) (form : Form) (sites : List Address) : Prop where
  ordered : sites.Pairwise (· < ·)
  found : sites.map form.at? = (search.references form).map some

theorem findsAt_variableUse (symbol : String) (prefilter : Bool) (form : Form) :
    (Search.mk symbol .variableUse prefilter).FindsAt form
      (form.sites (Reference.isVariable symbol) false) :=
  ⟨form.sites_increase _ _, form.map_at?_sites _ _⟩

theorem findsAt_call (symbol : String) {kind : ReferenceKind} (hkind : kind.requiredClass? ≠ none)
    (prefilter : Bool) (form : Form) :
    (Search.mk symbol kind prefilter).FindsAt form
      (form.sites (Reference.isCall symbol) false) := by
  refine ⟨form.sites_increase _ _, ?_⟩
  cases kind with
  | functionCall | macroCall | specialCall => exact form.map_at?_sites _ _
  | variableUse | occurrence => exact absurd rfl hkind

/-- In a form without templates a search for variables finds the symbols that are used, and a
search for calls the outermost of the lists that call the symbol. -/
theorem binders_excluded_exactly (symbol : String) {form : Form} (hplain : form.NoTemplate)
    (prefilter : Bool) :
    (∃ uses, (Search.mk symbol .variableUse prefilter).FindsAt form uses ∧
      ∀ address, address ∈ uses ↔ form.UsedAt symbol address) ∧
    ∀ kind : ReferenceKind, kind.requiredClass? ≠ none →
      ∃ calls, (Search.mk symbol kind prefilter).FindsAt form calls ∧
        ∀ address, address ∈ calls ↔
          form.CalledAt symbol address ∧ ∀ outer ∈ calls, ¬ outer.Encloses address := by
  refine ⟨⟨_, findsAt_variableUse symbol prefilter form, ?_⟩, fun kind hkind =>
    ⟨_, findsAt_call symbol hkind prefilter form, ?_⟩⟩
  · intro address
    exact Form.mem_sites_isVariable_iff_usedAt hplain
  · intro address
    exact Form.mem_sites_isCall_iff_calledAt hplain

/-- The text `(let ((s s)) (s (s)))`: the first of the symbols is bound, the list around it
binds, and one call is inside the other. -/
theorem binders_excluded_exactly_let :
    let s (start : Nat) : Form := .atom ⟨⟨start, start + 1⟩, none⟩ (.symbol "s")
    let call : Form := .list ⟨⟨13, 20⟩, none⟩ [s 14, .list ⟨⟨16, 19⟩, none⟩ [s 17]]
    let form : Form := .list ⟨⟨0, 21⟩, none⟩ [.atom ⟨⟨1, 4⟩, none⟩ (.symbol "let"),
      .list ⟨⟨5, 12⟩, none⟩ [.list ⟨⟨6, 11⟩, none⟩ [s 7, s 9]], call]
    form.NoTemplate ∧
    (Search.mk "s" .variableUse true).references form = [s 9, s 14, s 17] ∧
    (Search.mk "s" .functionCall true).references form = [call] ∧
    (∃ uses, (Search.mk "s" .variableUse true).FindsAt form uses ∧
      ∀ address, address ∈ uses ↔ form.UsedAt "s" address) ∧
    ∃ calls, (Search.mk "s" .functionCall true).FindsAt form calls ∧
      ∀ address, address ∈ calls ↔
        form.CalledAt "s" address ∧ ∀ outer ∈ calls, ¬ outer.Encloses address := by
  intro s call form
  have hplain : form.NoTemplate := by
    intro label mark operand hmem
    simp [form, call, s, Form.nodes, Form.preorder, Form.preorderFrom, Form.preorderThen,
      Form.preorderItemsThen] at hmem
  obtain ⟨huses, hcalls⟩ := binders_excluded_exactly "s" hplain true
  refine ⟨hplain, ?_, ?_, huses, hcalls .functionCall (by decide)⟩
  · simp only [references, Form.walk_eq_filter]
    rfl
  · simp only [references, Form.walk_eq_filter]
    rfl

section

variable {form operand : Form} {address : Address} {label : Label} {mark : Quotation}

/-- Nothing stands in a slot of a mark that is a slot for binders. -/
theorem not_standsIn_binderSlot_of_mark
    (hat : form.at? address = some (.quoted label mark operand)) (position : Nat) :
    ¬ form.StandsIn Form.BinderSlot (address ++ [position]) := by
  rw [Form.standsIn_concat_iff hat]
  rintro (hslot | hslot) <;> cases hslot

/-- The symbol behind a mark is taken for a binder exactly if the mark stands in a slot for one.
The frame of the mark counts its operand from one, so the operand is never the name of a
binding. -/
theorem mem_sites_isVariable_of_mark {symbol : String} (hcode : form.InCode (address ++ [0]))
    (hat : form.at? address = some (.quoted label mark operand))
    (hsymbol : operand.isSymbol symbol = true) :
    address ++ [0] ∈ form.sites (Reference.isVariable symbol) false ↔
      ¬ form.StandsIn Form.BinderSlot address := by
  obtain ⟨inner, rfl⟩ := Form.isSymbol_iff.mp hsymbol
  have hindex : ¬ form.StandsIn
      (fun parent position => (parent.frameFor position).index = 0) (address ++ [0]) := by
    rw [Form.standsIn_concat_iff hat]
    exact Int.one_ne_zero
  rw [Reference.mem_sites_isVariable_iff, Reference.satisfies_isVariable_iff,
    Address.parent_concat]
  constructor
  · rintro ⟨-, -, -, hbinder, -⟩
    exact hbinder
  · intro hbinder
    exact ⟨hcode, ⟨inner, Form.at?_concat.mpr ⟨_, hat, rfl⟩⟩,
      not_standsIn_binderSlot_of_mark hat 0, hbinder, fun hboth => hindex hboth.1⟩

/-- A call behind a mark is taken for a binding exactly if the mark stands where the bindings of
a let form do. -/
theorem satisfies_isCall_of_mark {symbol : String}
    (hat : form.at? address = some (.quoted label mark operand)) (hcalls : operand.Calls symbol) :
    form.satisfies (Reference.isCall symbol) .top (address ++ [0]) = true ↔
      ¬ form.StandsIn Form.LetSlot address := by
  rw [Reference.satisfies_isCall_iff, Address.parent_concat]
  constructor
  · rintro ⟨-, -, hbinding⟩
    exact hbinding
  · intro hbinding
    exact ⟨⟨operand, Form.at?_concat.mpr ⟨_, hat, rfl⟩, hcalls⟩,
      not_standsIn_binderSlot_of_mark hat 0, hbinding⟩

/-- An unquoted form, or any other operand of a mark, to which a walk comes. If it is the symbol,
a search for variables finds it unless the mark stands in a slot for binders. If it is a list
that the symbol heads, a search for calls finds it or a call around it unless the mark stands
where a let form has its bindings, and does not find the list itself if it does. -/
theorem unquoted_found_unless_mark_in_slot (symbol : String) (prefilter : Bool)
    {kind : ReferenceKind} (hkind : kind.requiredClass? ≠ none)
    (hat : form.at? address = some (.quoted label mark operand))
    (hcode : form.InCode (address ++ [0])) :
    let uses := form.sites (Reference.isVariable symbol) false
    let calls := form.sites (Reference.isCall symbol) false
    (Search.mk symbol .variableUse prefilter).FindsAt form uses ∧
    (Search.mk symbol kind prefilter).FindsAt form calls ∧
    (operand.isSymbol symbol = true →
      (address ++ [0] ∈ uses ↔ ¬ form.StandsIn Form.BinderSlot address)) ∧
    ∀ inner first rest, operand = .list inner (.atom first (.symbol symbol) :: rest) →
      (¬ form.StandsIn Form.LetSlot address → ∃ site ∈ calls, site <+: address ++ [0]) ∧
      (form.StandsIn Form.LetSlot address → address ++ [0] ∉ calls) := by
  refine ⟨findsAt_variableUse symbol prefilter form, findsAt_call symbol hkind prefilter form,
    ?_, ?_⟩
  · intro hsymbol
    exact mem_sites_isVariable_of_mark hcode hat hsymbol
  · rintro inner first rest rfl
    have hcalls : (Form.list inner (.atom first (.symbol symbol) :: rest)).Calls symbol := .direct
    have hsat := satisfies_isCall_of_mark hat hcalls
    constructor
    · intro hbinding
      exact Form.exists_site_around hcode (hsat.mpr hbinding)
    · intro hbinding hmem
      obtain ⟨-, hfound, -⟩ := Form.mem_sites_false_iff.mp hmem
      exact hsat.mp hfound hbinding

end

/-- Where a mark stands inside a template decides: the text is "`(let ,s ,s)", and the second
of the two symbols is found. -/
theorem unquoted_found_unless_mark_in_slot_body :
    let form : Form := .quoted ⟨⟨0, 12⟩, none⟩ .backquote (.list ⟨⟨1, 12⟩, none⟩
      [.atom ⟨⟨2, 5⟩, none⟩ (.symbol "let"),
      .quoted ⟨⟨6, 8⟩, none⟩ .unquote (.atom ⟨⟨7, 8⟩, none⟩ (.symbol "s")),
      .quoted ⟨⟨9, 11⟩, none⟩ .unquote (.atom ⟨⟨10, 11⟩, none⟩ (.symbol "s"))])
    ReferenceKind.functionCall.requiredClass? ≠ none ∧
    form.at? [0, 2]
      = some (.quoted ⟨⟨9, 11⟩, none⟩ .unquote (.atom ⟨⟨10, 11⟩, none⟩ (.symbol "s"))) ∧
    form.InCode [0, 2, 0] ∧
    (Search.mk "s" .variableUse true).references form = [.atom ⟨⟨10, 11⟩, none⟩ (.symbol "s")] ∧
    [0, 2, 0] ∈ form.sites (Reference.isVariable "s") false := by
  intro form
  have hkind : ReferenceKind.functionCall.requiredClass? ≠ none := by decide
  have hat : form.at? [0, 2]
      = some (.quoted ⟨⟨9, 11⟩, none⟩ .unquote (.atom ⟨⟨10, 11⟩, none⟩ (.symbol "s"))) := rfl
  have hcode : form.InCode ([0, 2] ++ [0]) := by decide
  have hslot : ¬ form.StandsIn Form.BinderSlot ([0] ++ [2]) := by
    rw [Form.standsIn_concat_iff rfl]
    rintro (hslot | hslot)
    · cases hslot with
      | intro hhead => simp at hhead
    · cases hslot
  obtain ⟨-, -, huse, -⟩ := unquoted_found_unless_mark_in_slot "s" true hkind hat hcode
  exact ⟨hkind, hat, hcode, by with_unfolding_all rfl, (huse rfl).mpr hslot⟩

open CharacterNames in
/-- The arguments in "`(defun f ,s)" and the bindings in "`(let ,(s) 1)" are what the unquoted
forms yield; neither the variable nor the call is found. -/
theorem unquoted_in_binder_slot_missed :
    let s : Form := .atom ⟨⟨11, 12⟩, none⟩ (.symbol "s")
    let definition : Form := .quoted ⟨⟨0, 13⟩, none⟩ .backquote (.list ⟨⟨1, 13⟩, none⟩
      [.atom ⟨⟨2, 7⟩, none⟩ (.symbol "defun"), .atom ⟨⟨8, 9⟩, none⟩ (.symbol "f"),
        .quoted ⟨⟨10, 12⟩, none⟩ .unquote s])
    let call : Form := .list ⟨⟨7, 10⟩, none⟩ [.atom ⟨⟨8, 9⟩, none⟩ (.symbol "s")]
    let binding : Form := .quoted ⟨⟨0, 13⟩, none⟩ .backquote (.list ⟨⟨1, 13⟩, none⟩
      [.atom ⟨⟨2, 5⟩, none⟩ (.symbol "let"), .quoted ⟨⟨6, 10⟩, none⟩ .unquote call,
        .atom ⟨⟨11, 12⟩, none⟩ (.number (.integer 1))])
    (Transcript.ofText "`(defun f ,s)".toList).tops.map (·.form) = [definition] ∧
    definition.at? [0, 2] = some (.quoted ⟨⟨10, 12⟩, none⟩ .unquote s) ∧
    definition.InCode [0, 2, 0] ∧
    (Search.mk "s" .variableUse true).references definition = [] ∧
    (Transcript.ofText "`(let ,(s) 1)".toList).tops.map (·.form) = [binding] ∧
    binding.at? [0, 1] = some (.quoted ⟨⟨6, 10⟩, none⟩ .unquote call) ∧ binding.InCode [0, 1, 0] ∧
    (Search.mk "s" .functionCall true).references binding = [] := by
  intro s definition call binding
  have hdefinition : Transcript.ofText "`(defun f ,s)".toList
      = ⟨[⟨definition, ["s", "f", "defun"]⟩], none⟩ := by
    with_unfolding_all rfl
  have hbinding : Transcript.ofText "`(let ,(s) 1)".toList
      = ⟨[⟨binding, ["s", "let"]⟩], none⟩ := by
    with_unfolding_all rfl
  rw [hdefinition, hbinding]
  exact ⟨rfl, rfl, by decide, by with_unfolding_all rfl, rfl, rfl, by decide,
    by with_unfolding_all rfl⟩

end Search
end LispXref
