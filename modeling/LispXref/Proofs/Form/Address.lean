import LispXref.Proofs.Form.Nodes

/-! Addresses of the forms inside a form. In the order of addresses a form comes before the
forms inside it, and of two parts of a form the one that is written first comes first. -/
namespace LispXref

/-- The way to a form inside another: its position among the parts at each level, the
outermost level first. -/
abbrev Address := List Nat

/-- One address leads to a form around the one to which the other leads. -/
def Address.Encloses (outer address : Address) : Prop := outer <+: address ∧ outer ≠ address

instance (outer address : Address) : Decidable (outer.Encloses address) :=
  inferInstanceAs (Decidable (_ ∧ _))

theorem Address.encloses_cons_iff {outer rest : Address} {i : Nat} :
    outer.Encloses (i :: rest) ↔
      outer = [] ∨ ∃ inner : Address, outer = i :: inner ∧ inner.Encloses rest := by
  constructor
  · rintro ⟨hle, hne⟩
    rcases List.prefix_cons_iff.mp hle with rfl | ⟨inner, rfl, hinner⟩
    · exact .inl rfl
    · refine .inr ⟨inner, rfl, hinner, ?_⟩
      rintro rfl
      exact hne rfl
  · rintro (rfl | ⟨inner, rfl, hle, hne⟩)
    · exact ⟨List.nil_prefix, by simp⟩
    · refine ⟨List.cons_prefix_cons.mpr ⟨rfl, hle⟩, ?_⟩
      intro heq
      exact hne (List.cons.inj heq).2

theorem Address.not_encloses_nil {outer : Address} : ¬ outer.Encloses [] := by
  rintro ⟨hle, hne⟩
  exact hne (List.prefix_nil.mp hle)

theorem Address.Encloses.trans {a b c : Address} (hab : a.Encloses b) (hbc : b.Encloses c) :
    a.Encloses c := by
  refine ⟨hab.1.trans hbc.1, ?_⟩
  rintro rfl
  exact hab.2 (List.IsPrefix.eq_of_length_le hab.1 hbc.1.length_le)

namespace Form

/-- The form at an address, if there is one. -/
def at? (form : Form) : Address → Option Form
  | [] => some form
  | i :: rest => form.parts[i]?.bind fun part => part.at? rest

@[simp] theorem at?_nil (form : Form) : form.at? [] = some form := rfl

theorem at?_cons_eq_some_iff {form node : Form} {i : Nat} {rest : Address} :
    form.at? (i :: rest) = some node ↔
      ∃ part, form.parts[i]? = some part ∧ part.at? rest = some node :=
  Option.bind_eq_some_iff

mutual

/-- The addresses of the form itself and of all forms inside it. -/
def addresses : Form → List Address
  | .atom _ _ => [[]]
  | .list _ items => [] :: addressesFrom 0 items
  | .dotted _ items tail =>
    [] :: (addressesFrom 0 items ++ (addresses tail).map (items.length :: ·))
  | .vector _ items => [] :: addressesFrom 0 items
  | .quoted _ _ operand => [] :: (addresses operand).map (0 :: ·)

/-- The addresses in parts of which the first has the given position. -/
def addressesFrom (position : Nat) : List Form → List Address
  | [] => []
  | part :: rest => (addresses part).map (position :: ·) ++ addressesFrom (position + 1) rest

end

theorem addressesFrom_eq (position : Nat) (parts : List Form) :
    addressesFrom position parts
      = (parts.zipIdx position).flatMap fun e => e.1.addresses.map (e.2 :: ·) := by
  induction parts generalizing position with
  | nil => rfl
  | cons part rest ih => rw [addressesFrom, ih, List.zipIdx_cons, List.flatMap_cons]

/-- A form comes first, and then what its parts hold. -/
theorem addresses_eq (form : Form) :
    form.addresses
      = [] :: form.parts.zipIdx.flatMap fun e => e.1.addresses.map (e.2 :: ·) := by
  cases form with
  | atom label value => rfl
  | list label items => exact congrArg _ (addressesFrom_eq 0 items)
  | vector label items => exact congrArg _ (addressesFrom_eq 0 items)
  | quoted label mark operand => simp [addresses, parts]
  | dotted label items tail =>
    rw [addresses, addressesFrom_eq]
    simp [parts, List.zipIdx_append]

/-- Every address that leads to a form is listed, and no other. -/
theorem mem_addresses_iff {form : Form} {address : Address} :
    address ∈ form.addresses ↔ ∃ node, form.at? address = some node := by
  induction form using induction_parts generalizing address with
  | step form ih =>
    rw [addresses_eq, List.mem_cons, List.mem_flatMap]
    constructor
    · rintro (rfl | ⟨⟨part, i⟩, he, ha⟩)
      · exact ⟨form, rfl⟩
      · obtain ⟨rest, hrest, rfl⟩ := List.mem_map.mp ha
        have hpart := List.mem_zipIdx_iff_getElem?.mp he
        obtain ⟨node, hnode⟩ := (ih part (List.mem_of_getElem? hpart)).mp hrest
        exact ⟨node, at?_cons_eq_some_iff.mpr ⟨part, hpart, hnode⟩⟩
    · rintro ⟨node, hnode⟩
      cases address with
      | nil => exact .inl rfl
      | cons i rest =>
        obtain ⟨part, hpart, hnode⟩ := at?_cons_eq_some_iff.mp hnode
        have hrest := (ih part (List.mem_of_getElem? hpart)).mpr ⟨node, hnode⟩
        exact .inr ⟨(part, i), List.mem_zipIdx_iff_getElem?.mpr hpart,
          List.mem_map.mpr ⟨rest, hrest, rfl⟩⟩

theorem zipIdx_positions_increase (parts : List Form) :
    parts.zipIdx.Pairwise fun a b => a.2 < b.2 := by
  have h : (parts.zipIdx.map Prod.snd).Pairwise (· < ·) := by
    rw [List.zipIdx_map_snd]
    exact List.pairwise_lt_range'
  exact List.pairwise_map.mp h

/-- The addresses are listed in their order, so none is listed twice. -/
theorem addresses_increase (form : Form) : form.addresses.Pairwise (· < ·) := by
  induction form using induction_parts with
  | step form ih =>
    rw [addresses_eq]
    refine List.Pairwise.cons ?_ (List.pairwise_flatMap.mpr ⟨?_, ?_⟩)
    · intro address ha
      obtain ⟨e, -, ha⟩ := List.mem_flatMap.mp ha
      obtain ⟨rest, -, rfl⟩ := List.mem_map.mp ha
      exact List.nil_lt_cons _ _
    · rintro ⟨part, i⟩ he
      have hpart := List.mem_of_getElem? (List.mem_zipIdx_iff_getElem?.mp he)
      refine List.pairwise_map.mpr ((ih part hpart).imp ?_)
      intro a b hab
      exact List.cons_lt_cons_iff.mpr (.inr ⟨rfl, hab⟩)
    · refine (zipIdx_positions_increase form.parts).imp ?_
      rintro e e' hlt _ ha _ hb
      obtain ⟨a, -, rfl⟩ := List.mem_map.mp ha
      obtain ⟨b, -, rfl⟩ := List.mem_map.mp hb
      exact List.cons_lt_cons_iff.mpr (.inl hlt)

end Form
end LispXref
