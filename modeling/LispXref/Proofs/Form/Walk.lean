import Mathlib.Data.List.Basic
import LispXref.Proofs.Form.Address

/-! What a walk looks at, told by addresses: the forms around which there is only code, each
once and in order of writing, with the trail that its address gives. -/
namespace LispXref

namespace Form

/-- The forms whose parts are code: lists other than written-out quotations, and the marks of
a template. -/
inductive HoldsCode : Form → Prop where
  | list {label : Label} {items : List Form} :
      (Form.list label items).head? ≠ some "quote" →
      (Form.list label items).head? ≠ some "function" → HoldsCode (.list label items)
  | template {label : Label} {mark : Quotation} {operand : Form} :
      mark = .backquote ∨ mark = .unquote ∨ mark = .splice → HoldsCode (.quoted label mark operand)

theorem isEntered_iff {form : Form} : form.isEntered = true ↔ form.HoldsCode := by
  cases form with
  | atom | dotted | vector =>
    constructor
    · intro h
      cases h
    · intro h
      cases h
  | quoted label mark operand =>
    constructor
    · intro h
      exact .template (by simpa [isEntered, or_assoc] using h)
    · rintro ⟨⟩
      next h => simpa [isEntered, or_assoc] using h
  | list label items =>
    have hentered : (Form.list label items).isEntered = true ↔
        (Form.list label items).head? ≠ some "quote" ∧
          (Form.list label items).head? ≠ some "function" := by
      simp only [isEntered]
      cases (Form.list label items).head? with
      | none => simp
      | some head => simp [dataHeads]
    rw [hentered]
    constructor
    · rintro ⟨hquote, hfunction⟩
      exact .list hquote hfunction
    · rintro ⟨⟩
      next hquote hfunction => exact ⟨hquote, hfunction⟩

/-- The forms around the one at an address, outermost first, each with the position that the
address takes in it. -/
def enclosing (form : Form) : Address → List (Form × Nat)
  | [] => []
  | i :: rest => (form, i) :: form.parts[i]?.elim [] fun part => part.enclosing rest

/-- The frames around the form at an address, innermost first, and then those of the trail
from which the walk starts. -/
def trailAt (start : Trail) (form : Form) (address : Address) : Trail :=
  .ofFrames (((form.enclosing address).map fun e => e.1.frameFor e.2).reverse ++ start.frames)

/-- The form at an address together with its trail. -/
def placeAt? (start : Trail) (form : Form) (address : Address) : Option (Form × Trail) :=
  (form.at? address).map (·, form.trailAt start address)

@[simp] theorem placeAt?_nil (start : Trail) (form : Form) :
    form.placeAt? start [] = some (form, start) := by
  simp [placeAt?, trailAt, enclosing]

theorem placeAt?_cons (start : Trail) (form : Form) (i : Nat) (rest : Address) :
    form.placeAt? start (i :: rest) =
      form.parts[i]?.bind fun part => part.placeAt? (start.push (form.frameFor i)) rest := by
  unfold placeAt?
  rw [at?]
  cases hpart : form.parts[i]? with
  | none => rfl
  | some part =>
    have htrail : form.trailAt start (i :: rest)
        = part.trailAt (start.push (form.frameFor i)) rest := by
      simp [trailAt, enclosing, hpart]
    simp only [Option.bind_some, htrail]

theorem placeAt?_cons_of_part {start : Trail} {form part : Form} {i : Nat}
    (hpart : form.parts[i]? = some part) (rest : Address) :
    form.placeAt? start (i :: rest) = part.placeAt? (start.push (form.frameFor i)) rest := by
  rw [placeAt?_cons, hpart, Option.bind_some]

/-- A trail is longer than the one at the start by the depth of the form. -/
theorem depth_of_placeAt? {start trail : Trail} {form node : Form} {address : Address}
    (h : form.placeAt? start address = some (node, trail)) :
    trail.depth = start.depth + address.length := by
  induction address generalizing form start with
  | nil =>
    rw [placeAt?_nil] at h
    cases h
    rfl
  | cons i rest ih =>
    rw [placeAt?_cons] at h
    obtain ⟨part, -, hplace⟩ := Option.bind_eq_some_iff.mp h
    rw [List.length_cons, ih hplace, Trail.depth_push]
    omega

section

variable (p : Form → Trail → Bool) (descend : Bool) (start : Trail)

/-- A walk comes to an address if every form around holds code and, unless it is to descend
into matches, none of them satisfies `p`. -/
structure Reached (form : Form) (address : Address) : Prop where
  leads : ∃ node, form.at? address = some node
  entered : ∀ outer : Address, outer.Encloses address → ∃ node trail,
    form.placeAt? start outer = some (node, trail) ∧ node.HoldsCode ∧
      (descend = false → p node trail = false)

/-- The form at an address, with its trail, satisfies `p`. -/
def satisfies (form : Form) (address : Address) : Bool :=
  (form.placeAt? start address).any fun v => p v.1 v.2

end

section

variable {p : Form → Trail → Bool} {descend : Bool} {start : Trail} {form : Form}

theorem reached_nil : form.Reached p descend start [] :=
  ⟨⟨form, rfl⟩, fun _ houter => absurd houter Address.not_encloses_nil⟩

theorem reached_cons_iff {i : Nat} {rest : Address} :
    form.Reached p descend start (i :: rest) ↔
      form.HoldsCode ∧ (descend = false → p form start = false) ∧
        ∃ part, form.parts[i]? = some part ∧
          part.Reached p descend (start.push (form.frameFor i)) rest := by
  constructor
  · rintro ⟨⟨node, hnode⟩, hentered⟩
    obtain ⟨part, hpart, hnode⟩ := at?_cons_eq_some_iff.mp hnode
    obtain ⟨whole, trail, hwhole, hcode, hp⟩ :=
      hentered [] (Address.encloses_cons_iff.mpr (.inl rfl))
    rw [placeAt?_nil] at hwhole
    cases hwhole
    refine ⟨hcode, hp, part, hpart, ⟨node, hnode⟩, ?_⟩
    intro outer houter
    have hcons : Address.Encloses (i :: outer) (i :: rest) :=
      Address.encloses_cons_iff.mpr (.inr ⟨outer, rfl, houter⟩)
    obtain ⟨inner, trail, hinner, hrest⟩ := hentered (i :: outer) hcons
    rw [placeAt?_cons_of_part hpart] at hinner
    exact ⟨inner, trail, hinner, hrest⟩
  · rintro ⟨hcode, hp, part, hpart, ⟨node, hnode⟩, hentered⟩
    refine ⟨⟨node, at?_cons_eq_some_iff.mpr ⟨part, hpart, hnode⟩⟩, ?_⟩
    intro outer houter
    rcases Address.encloses_cons_iff.mp houter with rfl | ⟨inner, rfl, hinner⟩
    · exact ⟨form, start, placeAt?_nil start form, hcode, hp⟩
    · obtain ⟨node, trail, hplace, hrest⟩ := hentered inner hinner
      exact ⟨node, trail, by rw [placeAt?_cons_of_part hpart, hplace], hrest⟩

/-- Whatever a walk comes to, it came to the forms around. -/
theorem Reached.of_encloses {outer address : Address}
    (h : form.Reached p descend start address) (houter : outer.Encloses address) :
    form.Reached p descend start outer := by
  obtain ⟨node, trail, hplace, -⟩ := h.entered outer houter
  obtain ⟨found, hfound, -⟩ := Option.map_eq_some_iff.mp hplace
  exact ⟨⟨found, hfound⟩, fun further hfurther => h.entered further (hfurther.trans houter)⟩

/-- A walk that does not descend into matches comes to what the other one comes to, except
for what is inside a match of that one. -/
theorem reached_false_iff {address : Address} :
    form.Reached p false start address ↔
      form.Reached p true start address ∧ ∀ outer : Address, outer.Encloses address →
        form.Reached p true start outer → form.satisfies p start outer = false := by
  constructor
  · intro h
    refine ⟨⟨h.leads, ?_⟩, ?_⟩
    · intro outer houter
      obtain ⟨node, trail, hplace, hcode, -⟩ := h.entered outer houter
      exact ⟨node, trail, hplace, hcode, fun hfalse => by cases hfalse⟩
    · intro outer houter _
      obtain ⟨node, trail, hplace, -, hp⟩ := h.entered outer houter
      rw [satisfies, hplace]
      exact hp rfl
  · rintro ⟨h, hnone⟩
    refine ⟨h.leads, ?_⟩
    intro outer houter
    obtain ⟨node, trail, hplace, hcode, -⟩ := h.entered outer houter
    refine ⟨node, trail, hplace, hcode, fun _ => ?_⟩
    have hfalse := hnone outer houter (h.of_encloses houter)
    rw [satisfies, hplace] at hfalse
    exact hfalse

end

/-- Whether a walk that stops at some forms comes to an address, decided from the outside
inwards. -/
def reaches (stops : Form → Trail → Bool) (trail : Trail) (form : Form) : Address → Bool
  | [] => true
  | i :: rest => (form.isEntered && !stops form trail) &&
      form.parts[i]?.any fun part => part.reaches stops (trail.push (form.frameFor i)) rest

theorem reaches_iff {p : Form → Trail → Bool} {descend : Bool} {start : Trail} {form : Form}
    {address : Address} :
    form.reaches (fun f t => !descend && p f t) start address = true ↔
      form.Reached p descend start address := by
  induction address generalizing form start with
  | nil => exact ⟨fun _ => reached_nil, fun _ => rfl⟩
  | cons i rest ih =>
    rw [reached_cons_iff, reaches, Bool.and_eq_true, Bool.and_eq_true, isEntered_iff,
      Option.any_eq_true, and_assoc]
    simp only [ih]
    cases descend <;> simp

/-- What a walk finds: the form itself if it satisfies `p`, and then, if the walk goes on, what
it finds in the parts. -/
theorem walk_eq (p : Form → Trail → Bool) (descend : Bool) (trail : Trail) (form : Form) :
    form.walk p descend trail =
      (if p form trail then [(form, trail)] else []) ++
        if form.isEntered && !(!descend && p form trail) then
          form.parts.zipIdx.flatMap fun e => e.1.walk p descend (trail.push (form.frameFor e.2))
        else [] := by
  rw [walk_eq_filter, visits_eq, List.filter_cons]
  split <;> split <;> simp [walk_eq_filter, List.filter_flatMap]

/-- If walks find in the images of some parts the images of what they find in the parts, so
they do in all of them together. -/
theorem flatMap_walk_map {p : Form → Trail → Bool} {descend : Bool} {image : Form → Form}
    (frame : Nat → Frame) (trail : Trail) {parts : List Form}
    (h : ∀ part ∈ parts, ∀ inner, (image part).walk p descend inner
      = (part.walk p descend inner).map (Prod.map image id)) :
    ((parts.map image).zipIdx.flatMap fun e => e.1.walk p descend (trail.push (frame e.2)))
      = (parts.zipIdx.flatMap fun e => e.1.walk p descend (trail.push (frame e.2))).map
          (Prod.map image id) := by
  rw [List.zipIdx_map, List.flatMap_map, List.map_flatMap]
  apply List.flatMap_congr
  intro e he
  exact h e.1 (List.fst_mem_of_mem_zipIdx he) _

/-- The visits of a walk are the places of the addresses to which it comes. -/
theorem map_placeAt?_reaches (stops : Form → Trail → Bool) (trail : Trail) (form : Form) :
    (form.addresses.filter (form.reaches stops trail)).map (form.placeAt? trail)
      = (visits stops trail form).map some := by
  induction form using induction_parts generalizing trail with
  | step form ih =>
    rw [addresses_eq, visits_eq]
    rw [List.filter_cons_of_pos (by rfl), List.map_cons, List.map_cons, placeAt?_nil]
    refine congrArg _ ?_
    by_cases hgo : (form.isEntered && !stops form trail) = true
    · rw [if_pos hgo, List.filter_flatMap, List.map_flatMap, List.map_flatMap]
      rw [List.flatMap_def, List.flatMap_def]
      refine congrArg _ (List.map_congr_left ?_)
      rintro ⟨part, i⟩ he
      have hpart : form.parts[i]? = some part := List.mem_zipIdx_iff_getElem?.mp he
      have hreaches : form.reaches stops trail ∘ (i :: ·)
          = part.reaches stops (trail.push (form.frameFor i)) := by
        funext rest
        simp only [Function.comp_apply, reaches, hgo, hpart, Option.any_some, Bool.true_and]
      rw [List.filter_map, hreaches, List.map_map, ← ih part (List.mem_of_getElem? hpart)]
      refine List.map_congr_left ?_
      intro rest _
      exact placeAt?_cons_of_part hpart rest
    · rw [if_neg hgo, List.map_nil, List.map_eq_nil_iff, List.filter_eq_nil_iff]
      intro address ha
      obtain ⟨e, -, ha⟩ := List.mem_flatMap.mp ha
      obtain ⟨rest, -, rfl⟩ := List.mem_map.mp ha
      simp [reaches, hgo]

theorem map_filter_satisfies {p : Form → Trail → Bool} {start : Trail} {form : Form}
    {addresses : List Address} {visits : List (Form × Trail)}
    (h : addresses.map (form.placeAt? start) = visits.map some) :
    (addresses.filter (form.satisfies p start)).map (form.placeAt? start)
      = (visits.filter fun v => p v.1 v.2).map some := by
  have hfilter := congrArg (List.filter fun place => place.any fun v => p v.1 v.2) h
  rw [List.filter_map, List.filter_map] at hfilter
  exact hfilter

section

variable (p : Form → Trail → Bool) (descend : Bool) (start : Trail) (form : Form)

/-- The addresses to which a walk comes. -/
def reachedAddresses : List Address :=
  form.addresses.filter (form.reaches (fun f t => !descend && p f t) start)

variable {p descend start form} in
theorem mem_reachedAddresses_iff {address : Address} :
    address ∈ form.reachedAddresses p descend start ↔ form.Reached p descend start address := by
  rw [reachedAddresses, List.mem_filter, reaches_iff, mem_addresses_iff]
  exact ⟨fun h => h.2, fun h => ⟨h.leads, h⟩⟩

/-- The matches of a walk that does not descend into them are the outermost ones. -/
theorem filter_reachedAddresses_false :
    (form.reachedAddresses p false start).filter (form.satisfies p start)
      = ((form.reachedAddresses p true start).filter (form.satisfies p start)).filter
          fun address => ∀ outer ∈ (form.reachedAddresses p true start).filter
            (form.satisfies p start), ¬ outer.Encloses address := by
  have hmatched (outer : Address) :
      outer ∈ (form.reachedAddresses p true start).filter (form.satisfies p start) ↔
        form.Reached p true start outer ∧ form.satisfies p start outer = true := by
    rw [List.mem_filter, mem_reachedAddresses_iff]
  generalize hdef : (form.reachedAddresses p true start).filter (form.satisfies p start) = matched
    at hmatched ⊢
  rw [reachedAddresses, List.filter_filter] at hdef
  rw [reachedAddresses, List.filter_filter]
  conv => rhs; arg 2; rw [← hdef]
  rw [List.filter_filter]
  refine List.filter_congr ?_
  intro address _
  rw [Bool.eq_iff_iff]
  simp only [Bool.and_eq_true, decide_eq_true_eq, reaches_iff, reached_false_iff, hmatched]
  constructor
  · rintro ⟨hsat, hreached, hnone⟩
    refine ⟨?_, hsat, hreached⟩
    rintro outer ⟨hfound, houter⟩ hencloses
    rw [hnone outer hencloses hfound] at houter
    cases houter
  · rintro ⟨hnone, hsat, hreached⟩
    refine ⟨hsat, hreached, ?_⟩
    intro outer hencloses hfound
    rw [← Bool.not_eq_true]
    intro houter
    exact hnone outer ⟨hfound, houter⟩ hencloses

/-- A walk looks once, and in order of writing, at each form to which it comes, with the
trail that tells where the form stands, and finds those that satisfy `p`. If it does not
descend into matches, it finds the outermost of the forms that it would find otherwise. -/
theorem walk_exact :
    ∃ reached : Bool → List Address,
      (∀ descend, (reached descend).Pairwise (· < ·) ∧
        (∀ address, address ∈ reached descend ↔ form.Reached p descend start address) ∧
        (reached descend).map (form.placeAt? start)
          = (form.visited p descend start).map some ∧
        ((reached descend).filter (form.satisfies p start)).map (form.placeAt? start)
          = (form.walk p descend start).map some) ∧
      (∀ address node trail, form.placeAt? start address = some (node, trail) →
        trail.depth = start.depth + address.length) ∧
      (reached false).filter (form.satisfies p start)
        = ((reached true).filter (form.satisfies p start)).filter fun address =>
            ∀ outer ∈ (reached true).filter (form.satisfies p start),
              ¬ outer.Encloses address := by
  refine ⟨fun descend => form.reachedAddresses p descend start, ?_, ?_, ?_⟩
  · intro descend
    have hplaces := map_placeAt?_reaches (fun f t => !descend && p f t) start form
    have hincrease := form.addresses_increase.filter
      (form.reaches (fun f t => !descend && p f t) start)
    rw [visited_eq, walk_eq_filter]
    exact ⟨hincrease, fun address => mem_reachedAddresses_iff, hplaces,
      map_filter_satisfies hplaces⟩
  · intro address node trail hplace
    exact depth_of_placeAt? hplace
  · exact filter_reachedAddresses_false p start form

end

end Form
end LispXref
