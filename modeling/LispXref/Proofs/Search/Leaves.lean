import LispXref.Proofs.Form.Site
import LispXref.Proofs.Search.Matches
import LispXref.Proofs.Search.Occurrences

/-! The leaves of a form, told by addresses: the symbols around which there is no improper list,
each once and in order of writing. A symbol that occurs in a form is found there unless all its
occurrences are inside improper lists. -/
namespace LispXref

namespace Form

/-- One of the forms around the one at an address is an improper list. -/
def InDotted (form : Form) (address : Address) : Prop :=
  ∃ outer : Address, outer.Encloses address ∧
    ∃ label items tail, form.at? outer = some (.dotted label items tail)

/-- At an address stands a symbol, and no improper list around it. -/
structure LeafAt (form : Form) (address : Address) (leaf : Form) : Prop where
  stands : form.at? address = some leaf
  symbol : leaf.kind = .symbol
  outside : ¬ form.InDotted address

section

variable {form leaf : Form} {address : Address}

theorem kind_eq_symbol_iff : form.kind = .symbol ↔ ∃ name, form.symbol? = some name := by
  unfold kind symbol?
  split <;> simp

theorem kind_eq_dotted_iff :
    form.kind = .dotted ↔ ∃ label items tail, form = .dotted label items tail := by
  unfold kind
  split <;> simp

theorem not_inDotted_nil : ¬ form.InDotted [] := by
  rintro ⟨outer, houter, -⟩
  exact Address.not_encloses_nil houter

theorem inDotted_cons_iff {part : Form} {i : Nat} {rest : Address}
    (hpart : form.parts[i]? = some part) :
    form.InDotted (i :: rest) ↔ form.kind = .dotted ∨ part.InDotted rest := by
  have hat (inner : Address) : form.at? (i :: inner) = part.at? inner := by
    rw [at?, hpart, Option.bind_some]
  constructor
  · rintro ⟨outer, houter, label, items, tail, hdotted⟩
    rcases Address.encloses_cons_iff.mp houter with rfl | ⟨inner, rfl, hinner⟩
    · exact .inl (kind_eq_dotted_iff.mpr ⟨label, items, tail, Option.some.inj hdotted⟩)
    · rw [hat] at hdotted
      exact .inr ⟨inner, hinner, label, items, tail, hdotted⟩
  · rintro (hkind | ⟨inner, hinner, label, items, tail, hdotted⟩)
    · obtain ⟨label, items, tail, rfl⟩ := kind_eq_dotted_iff.mp hkind
      exact ⟨[], Address.encloses_cons_iff.mpr (.inl rfl), label, items, tail, rfl⟩
    · exact ⟨i :: inner, Address.encloses_cons_iff.mpr (.inr ⟨inner, rfl, hinner⟩), label, items,
        tail, (hat inner).trans hdotted⟩

theorem leafAt_nil_iff : form.LeafAt [] leaf ↔ form = leaf ∧ form.kind = .symbol := by
  constructor
  · rintro ⟨hstands, hsymbol, -⟩
    obtain rfl : form = leaf := Option.some.inj hstands
    exact ⟨rfl, hsymbol⟩
  · rintro ⟨rfl, hsymbol⟩
    exact ⟨rfl, hsymbol, not_inDotted_nil⟩

theorem leafAt_cons_iff {i : Nat} {rest : Address} :
    form.LeafAt (i :: rest) leaf ↔
      form.kind ≠ .dotted ∧ ∃ part, form.parts[i]? = some part ∧ part.LeafAt rest leaf := by
  constructor
  · rintro ⟨hstands, hsymbol, houtside⟩
    obtain ⟨part, hpart, hstands⟩ := at?_cons_eq_some_iff.mp hstands
    rw [inDotted_cons_iff hpart, not_or] at houtside
    exact ⟨houtside.1, part, hpart, hstands, hsymbol, houtside.2⟩
  · rintro ⟨hkind, part, hpart, hstands, hsymbol, houtside⟩
    refine ⟨at?_cons_eq_some_iff.mpr ⟨part, hpart, hstands⟩, hsymbol, ?_⟩
    rw [inDotted_cons_iff hpart, not_or]
    exact ⟨hkind, houtside⟩

end

/-- Whether there is a leaf at an address, decided from the outside inwards. -/
def hasLeafAt (form : Form) : Address → Bool
  | [] => form.kind = .symbol
  | i :: rest => form.kind ≠ .dotted && form.parts[i]?.any (·.hasLeafAt rest)

theorem hasLeafAt_iff {form : Form} {address : Address} :
    form.hasLeafAt address = true ↔ ∃ leaf, form.LeafAt address leaf := by
  induction address generalizing form with
  | nil => simp [hasLeafAt, leafAt_nil_iff]
  | cons i rest ih =>
    simp only [hasLeafAt, leafAt_cons_iff, Bool.and_eq_true, Option.any_eq_true, ih,
      decide_eq_true_eq]
    constructor
    · rintro ⟨hkind, part, hpart, leaf, hleaf⟩
      exact ⟨leaf, hkind, part, hpart, hleaf⟩
    · rintro ⟨leaf, hkind, part, hpart, hleaf⟩
      exact ⟨hkind, part, hpart, leaf, hleaf⟩

/-- A symbol is its own leaf; any other form but an improper list has the leaves of its parts. -/
theorem leaves_eq (form : Form) :
    form.leaves = (if form.kind = .symbol then [form] else []) ++
      if form.kind = .dotted then [] else form.parts.flatMap leaves := by
  cases form with
  | atom label value => cases value <;> simp [kind, parts]
  | list label items => simp [kind, parts]
  | dotted label items tail => simp [kind]
  | vector label items => simp [kind, parts]
  | quoted label mark operand => cases mark <;> simp [kind, parts]

/-- Nothing inside an improper list is a leaf. -/
theorem hasLeafAt_cons_of_dotted {form : Form} (hkind : form.kind = .dotted) (i : Nat)
    (rest : Address) : form.hasLeafAt (i :: rest) = false := by
  simp [hasLeafAt, hkind]

/-- The leaves inside a part of any other form are those of the part. -/
theorem map_at?_hasLeafAt_part {form part : Form} {i : Nat} (hkind : form.kind ≠ .dotted)
    (hpart : form.parts[i]? = some part) :
    ((part.addresses.map (i :: ·)).filter form.hasLeafAt).map form.at?
      = (part.addresses.filter part.hasLeafAt).map part.at? := by
  have hleaf : form.hasLeafAt ∘ (i :: ·) = part.hasLeafAt := by
    funext rest
    simp [hasLeafAt, hkind, hpart]
  have hat : form.at? ∘ (i :: ·) = part.at? := by
    funext rest
    simp [at?, hpart]
  rw [List.filter_map, hleaf, List.map_map, hat]

/-- The leaves stand at the addresses that have one, in the order of these. -/
theorem map_at?_hasLeafAt (form : Form) :
    (form.addresses.filter form.hasLeafAt).map form.at? = form.leaves.map some := by
  induction form using induction_parts with
  | step form ih =>
    have hparts : ((form.parts.zipIdx.flatMap fun e => e.1.addresses.map (e.2 :: ·)).filter
        form.hasLeafAt).map form.at?
          = (if form.kind = .dotted then [] else form.parts.flatMap leaves).map some := by
      rw [List.filter_flatMap]
      split
      · next hkind =>
        rw [List.map_nil, List.map_eq_nil_iff, List.flatMap_eq_nil_iff]
        intro e _
        rw [List.filter_eq_nil_iff]
        intro address haddress
        obtain ⟨rest, -, rfl⟩ := List.mem_map.mp haddress
        rw [hasLeafAt_cons_of_dotted hkind]
        exact Bool.false_ne_true
      · next hkind =>
        rw [List.map_flatMap, List.map_flatMap, ← List.zipIdx_map_fst 0 form.parts,
          List.flatMap_map, List.zipIdx_map_fst]
        apply List.flatMap_congr
        rintro ⟨part, i⟩ he
        have hpart : form.parts[i]? = some part := List.mem_zipIdx_iff_getElem?.mp he
        exact (map_at?_hasLeafAt_part hkind hpart).trans (ih part (List.mem_of_getElem? hpart))
    rw [addresses_eq, leaves_eq, List.filter_cons, List.map_append, ← hparts]
    by_cases hsymbol : form.kind = .symbol <;> simp [hasLeafAt, hsymbol]

theorem mem_leaves_iff {form leaf : Form} :
    leaf ∈ form.leaves ↔ ∃ address, form.LeafAt address leaf := by
  have hmem : leaf ∈ form.leaves ↔
      some leaf ∈ (form.addresses.filter form.hasLeafAt).map form.at? := by
    rw [map_at?_hasLeafAt, List.mem_map]
    simp
  rw [hmem, List.mem_map]
  constructor
  · rintro ⟨address, haddress, hat⟩
    obtain ⟨found, hfound⟩ := hasLeafAt_iff.mp (List.mem_filter.mp haddress).2
    obtain rfl : found = leaf := Option.some.inj (hfound.stands.symm.trans hat)
    exact ⟨address, hfound⟩
  · rintro ⟨address, hleaf⟩
    refine ⟨address, List.mem_filter.mpr ⟨?_, hasLeafAt_iff.mpr ⟨leaf, hleaf⟩⟩, hleaf.stands⟩
    exact mem_addresses_iff.mpr ⟨leaf, hleaf.stands⟩

/-- The addresses of the leaves that satisfy `p`. -/
def leafAddresses (p : Form → Bool) (form : Form) : List Address :=
  form.addresses.filter fun address => (form.at? address).any p && form.hasLeafAt address

theorem leafAddresses_increase (p : Form → Bool) (form : Form) :
    (form.leafAddresses p).Pairwise (· < ·) :=
  form.addresses_increase.filter _

theorem mem_leafAddresses_iff {p : Form → Bool} {form : Form} {address : Address} :
    address ∈ form.leafAddresses p ↔ ∃ leaf, form.LeafAt address leaf ∧ p leaf = true := by
  rw [leafAddresses, List.mem_filter, Bool.and_eq_true, hasLeafAt_iff, Option.any_eq_true]
  constructor
  · rintro ⟨-, ⟨node, hnode, hp⟩, leaf, hleaf⟩
    obtain rfl : node = leaf := Option.some.inj (hnode.symm.trans hleaf.stands)
    exact ⟨node, hleaf, hp⟩
  · rintro ⟨leaf, hleaf, hp⟩
    exact ⟨mem_addresses_iff.mpr ⟨leaf, hleaf.stands⟩, ⟨leaf, hleaf.stands, hp⟩, leaf, hleaf⟩

theorem map_at?_leafAddresses (p : Form → Bool) (form : Form) :
    (form.leafAddresses p).map form.at? = (form.symbolsWhere p).map some := by
  have hfilter := congrArg (List.filter fun node => node.any p) form.map_at?_hasLeafAt
  rw [List.filter_map, List.filter_map, List.filter_filter] at hfilter
  rw [symbolsWhere_eq]
  exact hfilter

/-- A symbol of some name stands at an address. -/
def OccursAt (form : Form) (name : String) (address : Address) : Prop :=
  ∃ node, form.at? address = some node ∧ node.symbol? = some name

theorem leafAt_of_occursAt {form : Form} {name : String} {address : Address}
    (hoccurs : form.OccursAt name address) (houtside : ¬ form.InDotted address) :
    ∃ leaf, form.LeafAt address leaf ∧ leaf.isSymbol name = true := by
  obtain ⟨node, hstands, hname⟩ := hoccurs
  exact ⟨node, ⟨hstands, kind_eq_symbol_iff.mpr ⟨name, hname⟩, houtside⟩, decide_eq_true hname⟩

/-- A name is among those of a form if it occurs somewhere in it. -/
theorem exists_occursAt_of_mem_nodes {form node : Form} {name : String} (hnode : node ∈ form.nodes)
    (hname : node.symbol? = some name) : ∃ address, form.OccursAt name address := by
  induction form using induction_parts with
  | step form ih =>
    rcases mem_nodes_iff.mp hnode with rfl | ⟨part, hpart, hnode⟩
    · exact ⟨[], node, rfl, hname⟩
    · obtain ⟨address, inner, hinner, hname⟩ := ih part hpart hnode
      obtain ⟨i, hi⟩ := List.mem_iff_getElem?.mp hpart
      exact ⟨i :: address, inner, at?_cons_eq_some_iff.mpr ⟨part, hi, hinner⟩, hname⟩

end Form

/-- A search for all occurrences of a symbol finds none in a form exactly if all are inside
improper lists. -/
theorem Search.references_occurrence_eq_nil_iff (symbol : String) (prefilter : Bool) (form : Form) :
    (Search.mk symbol .occurrence prefilter).references form = [] ↔
      ∀ address, form.OccursAt symbol address → form.InDotted address := by
  rw [references, Form.symbolsWhere_eq, List.filter_eq_nil_iff]
  constructor
  · intro hnone address hoccurs
    by_contra houtside
    obtain ⟨leaf, hleaf, hsymbol⟩ := Form.leafAt_of_occursAt hoccurs houtside
    exact hnone leaf (Form.mem_leaves_iff.mpr ⟨address, hleaf⟩) hsymbol
  · intro hall leaf hmem hsymbol
    obtain ⟨address, hleaf⟩ := Form.mem_leaves_iff.mp hmem
    exact hleaf.outside (hall address ⟨leaf, hleaf.stands, of_decide_eq_true hsymbol⟩)

theorem Search.inTop_of_mem_names (search : Search) {top : TopForm}
    (h : search.symbol ∈ NameSet.ofList top.names) :
    search.inTop top = search.references top.form := by
  rw [inTop, passesOver_recorded, decide_eq_true (NameSet.mem_ofList.mp h), Bool.not_true,
    Bool.and_false]
  rfl

/-- The leaves of any form that satisfy `p` are the symbols accepted by it around which there is
no improper list, each once and in order of writing. In a form that was read, each ends before the
next one starts. If the names on record for such a form hold a symbol, the search for its
occurrences finds nothing there exactly if all of them are inside improper lists. -/
theorem Search.leaves_exact [CharacterNames] :
    (∀ (p : Form → Bool) (form : Form), ∃ addresses : List Address,
      addresses.Pairwise (· < ·) ∧
      (∀ address, address ∈ addresses ↔ ∃ leaf, form.LeafAt address leaf ∧ p leaf = true) ∧
      addresses.map form.at? = (form.symbolsWhere p).map some) ∧
    ∀ text place top after, Reader.next ⟨text, place⟩ = (.form top, after) →
      (∀ p : Form → Bool,
        (∀ leaf ∈ top.form.symbolsWhere p, leaf.start < leaf.stop) ∧
        (top.form.symbolsWhere p).Pairwise fun a b => a.stop ≤ b.start) ∧
      ∀ symbol names lexicon prefilter, top.recorded.label.names = some names → symbol ∈ names →
        (∃ address, top.form.OccursAt symbol address) ∧
        ∃ search, prepare symbol .occurrence lexicon prefilter = .ok search ∧
          (search.inTop top = [] ↔
            ∀ address, top.form.OccursAt symbol address → top.form.InDotted address) := by
  refine ⟨?_, ?_⟩
  · intro p form
    exact ⟨form.leafAddresses p, form.leafAddresses_increase p,
      fun _ => Form.mem_leafAddresses_iff, form.map_at?_leafAddresses p⟩
  · intro text place top after hnext
    refine ⟨?_, ?_⟩
    · intro p
      obtain ⟨stop, -, hreads⟩ := Reader.exists_reads_of_next hnext
      obtain ⟨-, -, htiled⟩ := hreads.tiles rfl
      rw [Form.symbolsWhere_eq]
      refine ⟨?_, (htiled.spread_leaves.sublist List.filter_sublist).ordered⟩
      intro leaf hleaf
      have hnode := Form.mem_nodes_of_mem_leaves (List.mem_filter.mp hleaf).1
      exact (htiled.of_mem_nodes hnode).within.1
    · intro symbol names lexicon prefilter hnames hsymbol
      rw [top.names_label_recorded] at hnames
      cases hnames
      have hmet : symbol ∈ top.form.symbolNames := by
        obtain ⟨stop, -, hreads⟩ := Reader.exists_reads_of_next hnext
        exact (hreads.mem_names Iff.rfl).mp (NameSet.mem_ofList.mp hsymbol)
      obtain ⟨node, hnode, hname⟩ := Form.mem_symbolNames_iff.mp hmet
      refine ⟨Form.exists_occursAt_of_mem_nodes hnode hname, ⟨symbol, .occurrence, prefilter⟩, rfl,
        ?_⟩
      rw [Search.inTop_of_mem_names _ hsymbol]
      exact Search.references_occurrence_eq_nil_iff symbol prefilter top.form

open CharacterNames in
/-- One symbol is in an improper list behind a mark only, and another in a vector as well. -/
theorem Search.leaves_exact_dotted :
    ∃ top after, Reader.next ⟨"(a '(x . y) [x])".toList, 0⟩ = (.form top, after) ∧
      ((top.form.symbolsWhere fun _ => true).Pairwise fun a b => a.stop ≤ b.start) ∧
      (∃ search, prepare "y" .occurrence none true = .ok search ∧ search.inTop top = [] ∧
        ∀ address, top.form.OccursAt "y" address → top.form.InDotted address) ∧
      ∃ search, prepare "x" .occurrence none true = .ok search ∧ search.inTop top ≠ [] ∧
        ¬ ∀ address, top.form.OccursAt "x" address → top.form.InDotted address := by
  let top : TopForm := ⟨.list ⟨⟨0, 16⟩, none⟩ [.atom ⟨⟨1, 2⟩, none⟩ (.symbol "a"),
    .quoted ⟨⟨3, 11⟩, none⟩ .quote
      (.dotted ⟨⟨4, 11⟩, none⟩ [.atom ⟨⟨5, 6⟩, none⟩ (.symbol "x")]
        (.atom ⟨⟨9, 10⟩, none⟩ (.symbol "y"))),
    .vector ⟨⟨12, 15⟩, none⟩ [.atom ⟨⟨13, 14⟩, none⟩ (.symbol "x")]], ["x", "y", "x", "a"]⟩
  have hread : readFrom 0 "(a '(x . y) [x])".toList [] [] = ⟨.form top, 16⟩ := by
    with_unfolding_all rfl
  have hnext : Reader.next ⟨"(a '(x . y) [x])".toList, 0⟩ = (.form top, _) :=
    Reader.next_of_readFrom hread
  have hhidden : Search.inTop ⟨"y", .occurrence, true⟩ top = [] := by
    rw [inTop_of_mem_names _ (NameSet.mem_ofList.mpr (by simp [top])), references,
      Form.symbolsWhere_eq]
    rfl
  have hfound : Search.inTop ⟨"x", .occurrence, true⟩ top
      = [.atom ⟨⟨13, 14⟩, none⟩ (.symbol "x")] := by
    rw [inTop_of_mem_names _ (NameSet.mem_ofList.mpr (by simp [top])), references,
      Form.symbolsWhere_eq]
    rfl
  obtain ⟨hspans, hnames⟩ := Search.leaves_exact.2 _ _ _ _ hnext
  obtain ⟨-, hidden, hprepared, hnone⟩ :=
    hnames "y" _ none true top.names_label_recorded (NameSet.mem_ofList.mpr (by simp [top]))
  obtain ⟨-, shown, hprepared', hsome⟩ :=
    hnames "x" _ none true top.names_label_recorded (NameSet.mem_ofList.mpr (by simp [top]))
  cases hprepared
  cases hprepared'
  refine ⟨top, _, hnext, (hspans _).2, ⟨_, rfl, hhidden, hnone.mp hhidden⟩, _, rfl, ?_, ?_⟩
  · rw [hfound]
    exact List.cons_ne_nil _ _
  · rw [← hsome, hfound]
    exact List.cons_ne_nil _ _

end LispXref
