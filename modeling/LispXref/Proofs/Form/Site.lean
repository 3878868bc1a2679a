import Mathlib.Logic.Function.Iterate
import LispXref.Proofs.Form.Walk

/-! Sites: the addresses at which a walk finds something. Around a site there is only code, and
what directly encloses it, at whatever distance, can be told from the trail. -/
namespace LispXref

/-- The address of the form directly around; nothing is around the outermost one. -/
def Address.parent (address : Address) : Address := address.dropLast

@[simp] theorem Address.parent_concat (outer : Address) (position : Nat) :
    Address.parent (outer ++ [position]) = outer := List.dropLast_concat

@[simp] theorem Address.parent_nil : Address.parent [] = [] := rfl

theorem Address.encloses_concat (outer : Address) (position : Nat) :
    outer.Encloses (outer ++ [position]) :=
  ⟨List.prefix_append _ _, by simp⟩

theorem Address.Encloses.length_lt {outer address : Address} (h : outer.Encloses address) :
    outer.length < address.length :=
  Nat.lt_of_le_of_ne h.1.length_le fun heq => h.2 (h.1.eq_of_length heq)

namespace Form

variable {form node : Form} {address : Address}

/-- There is a form at an address, and the parts of all forms around it are code. -/
structure InCode (form : Form) (address : Address) : Prop where
  leads : ∃ node, form.at? address = some node
  around : ∀ outer : Address, outer.Encloses address →
    ∃ node, form.at? outer = some node ∧ node.HoldsCode

theorem symbol?_eq_some_iff {name : String} :
    form.symbol? = some name ↔ ∃ label, form = .atom label (.symbol name) := by
  constructor
  · intro h
    match form with
    | .atom label (.symbol found) =>
      cases h
      exact ⟨label, rfl⟩
  · rintro ⟨label, rfl⟩
    rfl

theorem placeAt?_eq_some_iff {start trail : Trail} :
    form.placeAt? start address = some (node, trail) ↔
      form.at? address = some node ∧ form.trailAt start address = trail := by
  rw [placeAt?, Option.map_eq_some_iff]
  constructor
  · rintro ⟨found, hfound, heq⟩
    cases heq
    exact ⟨hfound, rfl⟩
  · rintro ⟨hnode, rfl⟩
    exact ⟨node, hnode, rfl⟩

theorem placeAt?_of_at? (start : Trail) (h : form.at? address = some node) :
    form.placeAt? start address = some (node, form.trailAt start address) :=
  placeAt?_eq_some_iff.mpr ⟨h, rfl⟩

theorem mem_nodes_of_at? (h : form.at? address = some node) : node ∈ form.nodes := by
  induction address generalizing form with
  | nil =>
    obtain rfl : form = node := Option.some.inj h
    exact mem_nodes_self form
  | cons position rest ih =>
    obtain ⟨part, hpart, hnode⟩ := at?_cons_eq_some_iff.mp h
    exact mem_nodes_of_part (List.mem_of_getElem? hpart) (ih hnode)

/-- A form inside is a part of the form directly around it, which adds a frame to its trail. -/
theorem placeAt?_concat {start trail : Trail} {position : Nat} :
    form.placeAt? start (address ++ [position]) = some (node, trail) ↔
      ∃ parent outer, form.placeAt? start address = some (parent, outer) ∧
        parent.parts[position]? = some node ∧ trail = outer.push (parent.frameFor position) := by
  induction address generalizing form start with
  | nil =>
    rw [List.nil_append, placeAt?_cons, placeAt?_nil]
    constructor
    · intro h
      obtain ⟨part, hpart, hplace⟩ := Option.bind_eq_some_iff.mp h
      rw [placeAt?_nil] at hplace
      cases hplace
      exact ⟨form, start, rfl, hpart, rfl⟩
    · rintro ⟨parent, outer, hplace, hpart, rfl⟩
      cases hplace
      rw [hpart, Option.bind_some, placeAt?_nil]
  | cons first rest ih =>
    rw [List.cons_append, placeAt?_cons, placeAt?_cons]
    cases form.parts[first]? with
    | none => simp
    | some part => exact ih

theorem at?_concat {position : Nat} :
    form.at? (address ++ [position]) = some node ↔
      ∃ parent, form.at? address = some parent ∧ parent.parts[position]? = some node := by
  constructor
  · intro h
    obtain ⟨parent, outer, hplace, hpart, -⟩ := placeAt?_concat.mp (placeAt?_of_at? .top h)
    exact ⟨parent, (placeAt?_eq_some_iff.mp hplace).1, hpart⟩
  · rintro ⟨parent, hparent, hpart⟩
    exact (placeAt?_eq_some_iff.mp
      (placeAt?_concat.mpr ⟨parent, _, placeAt?_of_at? .top hparent, hpart, rfl⟩)).1

theorem InCode.of_encloses {outer : Address} (h : form.InCode address)
    (houter : outer.Encloses address) : form.InCode outer := by
  obtain ⟨node, hnode, -⟩ := h.around outer houter
  exact ⟨⟨node, hnode⟩, fun further hfurther => h.around further (hfurther.trans houter)⟩

/-- A walk that descends into matches comes to everything around which there is only code. -/
theorem reached_true_iff {p : Form → Trail → Bool} {start : Trail} :
    form.Reached p true start address ↔ form.InCode address := by
  constructor
  · intro h
    refine ⟨h.leads, fun outer houter => ?_⟩
    obtain ⟨node, trail, hplace, hcode, -⟩ := h.entered outer houter
    exact ⟨node, (placeAt?_eq_some_iff.mp hplace).1, hcode⟩
  · intro h
    refine ⟨h.leads, fun outer houter => ?_⟩
    obtain ⟨node, hnode, hcode⟩ := h.around outer houter
    exact ⟨node, _, placeAt?_of_at? start hnode, hcode, fun hfalse => by cases hfalse⟩

instance (form : Form) (address : Address) : Decidable (form.InCode address) :=
  decidable_of_iff (form.reaches (fun _ _ => false) .top address = true)
    ((@reaches_iff (fun _ _ => false) true .top form address).trans reached_true_iff)

/-- The form at an address stands in a slot of the form directly around it. A slot is told by
that form and a position among its parts. -/
def StandsIn (form : Form) (slot : Form → Nat → Prop) (address : Address) : Prop :=
  ∃ outer parent position, address = outer ++ [position] ∧ form.at? outer = some parent ∧
    slot parent position

theorem not_standsIn_nil {slot : Form → Nat → Prop} : ¬ form.StandsIn slot [] := by
  rintro ⟨outer, parent, position, heq, -⟩
  simp at heq

theorem standsIn_concat_iff {slot : Form → Nat → Prop} {parent : Form} {position : Nat}
    (hparent : form.at? address = some parent) :
    form.StandsIn slot (address ++ [position]) ↔ slot parent position := by
  constructor
  · rintro ⟨outer, found, index, heq, hfound, hslot⟩
    obtain ⟨rfl, hindex⟩ := List.append_inj' heq rfl
    obtain rfl : position = index := (List.cons.inj hindex).1
    obtain rfl : parent = found := Option.some.inj (hparent.symm.trans hfound)
    exact hslot
  · intro hslot
    exact ⟨address, parent, position, rfl, hparent, hslot⟩

/-- What a trail says about the frame some levels out is said of the slot in which the form on
that level stands. -/
theorem any_frameAt?_iff {trail : Trail} (q : Frame → Bool) (n : Nat)
    (h : form.placeAt? .top address = some (node, trail)) :
    (trail.frameAt? n).any q = true ↔
      form.StandsIn (fun parent position => q (parent.frameFor position) = true)
        (Address.parent^[n] address) := by
  -- the last step of the address is the innermost frame, so it is the one to split off
  induction n generalizing address node trail with
  | zero =>
    rcases List.eq_nil_or_concat address with rfl | ⟨outer, position, rfl⟩
    · rw [placeAt?_nil] at h
      cases h
      simp [not_standsIn_nil]
    · rw [List.concat_eq_append] at h ⊢
      obtain ⟨parent, before, hplace, hpart, rfl⟩ := placeAt?_concat.mp h
      rw [Function.iterate_zero_apply, standsIn_concat_iff (placeAt?_eq_some_iff.mp hplace).1]
      rfl
  | succ n ih =>
    rw [Function.iterate_succ_apply]
    rcases List.eq_nil_or_concat address with rfl | ⟨outer, position, rfl⟩
    · rw [Address.parent_nil, ← ih h]
      rw [placeAt?_nil] at h
      cases h
      rfl
    · rw [List.concat_eq_append] at h ⊢
      obtain ⟨parent, before, hplace, hpart, rfl⟩ := placeAt?_concat.mp h
      rw [Address.parent_concat, ← ih hplace]
      rfl

section

variable (p : Form → Trail → Bool) (descend : Bool) (form)

/-- The addresses at which a walk from the top finds something, in order of writing. -/
def sites : List Address := (form.reachedAddresses p descend .top).filter (form.satisfies p .top)

theorem sites_increase : (form.sites p descend).Pairwise (· < ·) :=
  (form.addresses_increase.filter _).filter _

theorem map_placeAt?_sites :
    (form.sites p descend).map (form.placeAt? .top) = (form.walk p descend .top).map some := by
  rw [walk_eq_filter]
  exact map_filter_satisfies (map_placeAt?_reaches _ .top form)

theorem map_at?_sites :
    (form.sites p descend).map form.at? = ((form.walk p descend .top).map (·.1)).map some := by
  have hfst := congrArg (List.map (Option.map Prod.fst)) (form.map_placeAt?_sites p descend)
  rw [List.map_map, List.map_map] at hfst
  rw [List.map_map]
  refine Eq.trans (List.map_congr_left fun address _ => ?_) hfst
  rw [Function.comp_apply, placeAt?, Option.map_map]
  exact Option.map_id'.symm

end

section

variable {p : Form → Trail → Bool}

theorem mem_map_walk_iff {descend : Bool} :
    node ∈ (form.walk p descend .top).map (·.1) ↔
      ∃ address ∈ form.sites p descend, form.at? address = some node := by
  rw [← List.mem_map, map_at?_sites]
  generalize (form.walk p descend .top).map (·.1) = found
  simp

theorem satisfies_of_at? (h : form.at? address = some node) :
    form.satisfies p .top address = p node (form.trailAt .top address) := by
  rw [satisfies, placeAt?_of_at? .top h, Option.any_some]

theorem mem_sites_true_iff :
    address ∈ form.sites p true ↔ form.InCode address ∧ form.satisfies p .top address = true := by
  rw [sites, List.mem_filter, mem_reachedAddresses_iff, reached_true_iff]

theorem mem_sites_false_iff :
    address ∈ form.sites p false ↔
      form.InCode address ∧ form.satisfies p .top address = true ∧
        ∀ outer : Address, outer.Encloses address → form.satisfies p .top outer = false := by
  rw [sites, List.mem_filter, mem_reachedAddresses_iff, reached_false_iff]
  simp only [reached_true_iff]
  constructor
  · rintro ⟨⟨hcode, hnone⟩, hsat⟩
    exact ⟨hcode, hsat, fun outer houter => hnone outer houter (hcode.of_encloses houter)⟩
  · rintro ⟨hcode, hsat, hnone⟩
    exact ⟨⟨hcode, fun outer houter _ => hnone outer houter⟩, hsat⟩

/-- A walk that stops at matches finds, for every match in code, that one or one around it. -/
theorem exists_site_around (hcode : form.InCode address)
    (hsat : form.satisfies p .top address = true) :
    ∃ site ∈ form.sites p false, site <+: address := by
  -- a match around the one at hand is nearer to the top
  induction hlength : address.length using Nat.strongRecOn generalizing address with
  | _ length ih =>
    by_cases hnone : ∀ outer : Address, outer.Encloses address →
        form.satisfies p .top outer = false
    · exact ⟨address, mem_sites_false_iff.mpr ⟨hcode, hsat, hnone⟩, List.prefix_rfl⟩
    · simp only [not_forall, exists_prop, Bool.not_eq_false] at hnone
      obtain ⟨outer, houter, hmatch⟩ := hnone
      have hshorter : outer.length < length := hlength ▸ houter.length_lt
      obtain ⟨site, hsite, hle⟩ := ih _ hshorter (hcode.of_encloses houter) hmatch rfl
      exact ⟨site, hsite, hle.trans houter.1⟩

/-- What a walk that stops at matches finds are the matches in code that are not inside another
one that it finds. -/
theorem mem_sites_false_iff_outermost :
    address ∈ form.sites p false ↔
      form.InCode address ∧ form.satisfies p .top address = true ∧
        ∀ site ∈ form.sites p false, ¬ site.Encloses address := by
  constructor
  · intro h
    obtain ⟨hcode, hsat, hnone⟩ := mem_sites_false_iff.mp h
    refine ⟨hcode, hsat, fun site hsite hencloses => ?_⟩
    have hmatch := (mem_sites_false_iff.mp hsite).2.1
    rw [hnone site hencloses] at hmatch
    cases hmatch
  · rintro ⟨hcode, hsat, hnone⟩
    obtain ⟨site, hsite, hle⟩ := exists_site_around hcode hsat
    by_cases heq : site = address
    · exact heq ▸ hsite
    · exact absurd ⟨hle, heq⟩ (hnone site hsite)

end

end Form
end LispXref
