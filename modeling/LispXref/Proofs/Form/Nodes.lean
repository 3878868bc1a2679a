import LispXref.Proofs.Form.Stack

/-! The forms inside a form, itself included. Whatever a walk looks at, and every leaf,
is one of them. -/
namespace LispXref.Form

theorem sizeOf_lt_of_mem_parts {part form : Form} (h : part ∈ form.parts) :
    sizeOf part < sizeOf form := by
  obtain ⟨before, after, hparts⟩ := List.append_of_mem h
  have hsize := totalSize_parts_lt form
  rw [hparts, totalSize_append, totalSize] at hsize
  omega

/-- What follows for a form from its parts holds of every form. -/
theorem induction_parts {motive : Form → Prop}
    (step : ∀ form : Form, (∀ part ∈ form.parts, motive part) → motive form) (form : Form) :
    motive form :=
  step form fun part _h => induction_parts step part
termination_by sizeOf form
decreasing_by exact sizeOf_lt_of_mem_parts _h

def nodes (form : Form) : List Form := form.preorder.map (·.2)

theorem map_preorderFrom (depth : Nat) (form : Form) :
    (preorderFrom depth form).map (·.2) = form.nodes := by
  induction form using induction_parts generalizing depth with
  | step form ih =>
    rw [nodes, preorder, preorderFrom_eq depth, preorderFrom_eq 0]
    simp only [List.map_cons, List.map_flatMap]
    rw [List.flatMap_def, List.flatMap_def]
    congr 2
    apply List.map_congr_left
    intro part hpart
    rw [ih part hpart (depth + 1), ih part hpart (0 + 1)]

theorem nodes_eq (form : Form) : form.nodes = form :: form.parts.flatMap nodes := by
  rw [nodes, preorder, preorderFrom_eq]
  simp only [List.map_cons, List.map_flatMap, map_preorderFrom]

theorem mem_nodes_iff {node form : Form} :
    node ∈ form.nodes ↔ node = form ∨ ∃ part ∈ form.parts, node ∈ part.nodes := by
  rw [nodes_eq, List.mem_cons, List.mem_flatMap]

theorem mem_nodes_self (form : Form) : form ∈ form.nodes := mem_nodes_iff.mpr (.inl rfl)

theorem mem_nodes_of_part {node part form : Form} (hp : part ∈ form.parts)
    (h : node ∈ part.nodes) : node ∈ form.nodes :=
  mem_nodes_iff.mpr (.inr ⟨part, hp, h⟩)

theorem forall_nodes_iff {p : Form → Prop} {form : Form} :
    (∀ node ∈ form.nodes, p node) ↔
      p form ∧ ∀ part ∈ form.parts, ∀ node ∈ part.nodes, p node := by
  constructor
  · intro h
    exact ⟨h form (mem_nodes_self form), fun part hp node hn => h node (mem_nodes_of_part hp hn)⟩
  · rintro ⟨hf, hp⟩ node hn
    rcases mem_nodes_iff.mp hn with rfl | ⟨part, hpart, hn⟩
    · exact hf
    · exact hp part hpart node hn

theorem mem_nodes_trans {a b c : Form} (hab : a ∈ b.nodes) (hbc : b ∈ c.nodes) :
    a ∈ c.nodes := by
  induction c using induction_parts with
  | step c ih =>
    rcases mem_nodes_iff.mp hbc with rfl | ⟨part, hpart, hb⟩
    · exact hab
    · exact mem_nodes_of_part hpart (ih part hpart hb)

theorem exists_mem_visits_of_mem_visitsItems {stops : Form → Trail → Bool} {trail : Trail}
    {head : Option String} {index : Int} {items : List Form} {v : Form × Trail}
    (h : v ∈ visitsItems stops trail head index items) :
    ∃ item ∈ items, ∃ inner, v ∈ visits stops inner item := by
  induction items generalizing index with
  | nil => simp at h
  | cons item rest ih =>
    rw [visitsItems_cons] at h
    rcases List.mem_append.mp h with h | h
    · exact ⟨item, List.mem_cons_self, _, h⟩
    · obtain ⟨other, hmem, inner, hv⟩ := ih h
      exact ⟨other, List.mem_cons_of_mem _ hmem, inner, hv⟩

/-- A walk looks at nodes only. -/
theorem mem_nodes_of_mem_visits {stops : Form → Trail → Bool} {trail : Trail} {form : Form}
    {v : Form × Trail} (h : v ∈ visits stops trail form) : v.1 ∈ form.nodes := by
  induction form using induction_parts generalizing trail with
  | step form ih =>
    cases form with
    | atom | dotted | vector =>
      obtain rfl := List.mem_singleton.mp h
      exact mem_nodes_self _
    | list label items =>
      rw [visits_list] at h
      rcases List.mem_cons.mp h with rfl | h
      · exact mem_nodes_self _
      · split at h
        · obtain ⟨item, hitem, inner, hv⟩ := exists_mem_visits_of_mem_visitsItems h
          exact mem_nodes_of_part hitem (ih item hitem hv)
        · simp at h
    | quoted label mark operand =>
      rw [visits_quoted] at h
      rcases List.mem_cons.mp h with rfl | h
      · exact mem_nodes_self _
      · split at h
        · have hop : operand ∈ (quoted label mark operand).parts := List.mem_singleton.mpr rfl
          exact mem_nodes_of_part hop (ih operand hop h)
        · simp at h

theorem mem_nodes_of_mem_leaves {leaf form : Form} (h : leaf ∈ form.leaves) :
    leaf ∈ form.nodes := by
  induction form using induction_parts with
  | step form ih =>
    cases form with
    | atom label value =>
      cases value with
      | symbol name =>
        obtain rfl := List.mem_singleton.mp h
        exact mem_nodes_self _
      | number value => simp at h
      | string value => simp at h
    | dotted label items tail => simp at h
    | list label items | vector label items =>
      obtain ⟨item, hitem, hl⟩ := List.mem_flatMap.mp (by simpa using h)
      exact mem_nodes_of_part hitem (ih item hitem hl)
    | quoted label mark operand =>
      have hop : operand ∈ (quoted label mark operand).parts := List.mem_singleton.mpr rfl
      exact mem_nodes_of_part hop (ih operand hop (by simpa using h))

/-- The names of all symbols in a form. -/
def symbolNames (form : Form) : List String := form.nodes.filterMap symbol?

theorem mem_symbolNames_iff {name : String} {form : Form} :
    name ∈ form.symbolNames ↔ ∃ node ∈ form.nodes, node.symbol? = some name :=
  List.mem_filterMap

theorem symbolNames_eq (form : Form) :
    form.symbolNames = form.symbol?.toList ++ form.parts.flatMap symbolNames := by
  rw [symbolNames, nodes_eq, List.filterMap_cons, List.filterMap_flatMap]
  cases form.symbol? <;> rfl

@[simp] theorem symbolNames_relabel (label : Label) (form : Form) :
    (form.relabel label).symbolNames = form.symbolNames := by
  have hsymbol : (form.relabel label).symbol? = form.symbol? := by
    cases form with
    | atom _ value => cases value <;> rfl
    | list | dotted | vector | quoted => rfl
  rw [symbolNames_eq, symbolNames_eq form, hsymbol, parts_relabel]

theorem mem_symbolNames_of_isSymbol {name : String} {node form : Form}
    (hn : node ∈ form.nodes) (h : node.isSymbol name = true) : name ∈ form.symbolNames :=
  mem_symbolNames_iff.mpr ⟨node, hn, of_decide_eq_true h⟩

end LispXref.Form
