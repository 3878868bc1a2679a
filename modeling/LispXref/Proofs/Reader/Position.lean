import LispXref.Proofs.Reader.Progress
import LispXref.Proofs.Reader.Shift

/-! Reading looks only ahead. What comes of an attempt at any place of a text, and of all the
attempts after it, is what the rest of the text gives by itself, further on. -/
namespace LispXref.Reader

section

variable {text : List Char} {p q : Nat}

/-- A reader of the rest of a text from offset `p` on, as a reader of the whole text. -/
def inside (text : List Char) (p : Nat) (reader : Reader) : Reader := ⟨text, reader.place + p⟩

theorem inside_drop (q : Nat) : inside text p ⟨text.drop p, q⟩ = ⟨text, (p + q : Nat)⟩ := by
  simp [inside, Int.add_comm]

variable [CharacterNames]

/-- A reader that stands in its text does so after an attempt. -/
theorem exists_next_place (hq : q ≤ text.length) :
    ∃ stop : Nat, stop ≤ text.length ∧ (next ⟨text, q⟩).2 = ⟨text, stop⟩ := by
  have hopen : Pending.StartIn q text.length [] := by simp [Pending.StartIn]
  have hwithin := readFrom_within [] (Nat.le_refl q) hq hopen
  rw [next_of_le hq]
  exact ⟨_, hwithin.le_high, rfl⟩

/-- One attempt. -/
theorem next_inside (h : p + q ≤ text.length) :
    next ⟨text, (p + q : Nat)⟩
      = ((next ⟨text.drop p, q⟩).1.shift p, (next ⟨text.drop p, q⟩).2.inside text p) := by
  have hrest : q ≤ (text.drop p).length := by
    rw [List.length_drop]
    omega
  have hshift := readFrom_shift p q ((text.drop p).drop q) [] []
  rw [List.map_nil, List.drop_drop, Nat.add_comm q p] at hshift
  rw [next_of_le h, next_of_le hrest, List.drop_drop, hshift]
  apply Prod.ext
  · rfl
  · simp [inside, ReadStep.shift]

/-- Any number of attempts. -/
theorem after_inside (h : p + q ≤ text.length) (count : Nat) :
    after ⟨text, (p + q : Nat)⟩ count = (after ⟨text.drop p, q⟩ count).inside text p := by
  induction count generalizing q with
  | zero => rw [after, after, inside_drop]
  | succ count ih =>
    have hrest : q ≤ (text.drop p).length := by
      rw [List.length_drop]
      omega
    obtain ⟨stop, hstop, hnext⟩ := exists_next_place hrest
    rw [List.length_drop] at hstop
    rw [after, after, next_inside h, hnext, inside_drop]
    exact ih (by omega)

theorem exists_after_place (hq : q ≤ text.length) (count : Nat) :
    ∃ stop : Nat, stop ≤ text.length ∧ after ⟨text, q⟩ count = ⟨text, stop⟩ := by
  induction count generalizing q with
  | zero => exact ⟨q, hq, rfl⟩
  | succ count ih =>
    obtain ⟨stop, hstop, hnext⟩ := exists_next_place hq
    rw [after, hnext]
    exact ih hstop

/-- What comes of an attempt after any number of others. -/
theorem reading_inside (h : p + q ≤ text.length) (count : Nat) :
    reading ⟨text, (p + q : Nat)⟩ count = (reading ⟨text.drop p, q⟩ count).shift p := by
  have hrest : q ≤ (text.drop p).length := by
    rw [List.length_drop]
    omega
  obtain ⟨stop, hstop, hafter⟩ := exists_after_place hrest count
  rw [List.length_drop] at hstop
  rw [reading, reading, after_inside h, hafter, inside_drop, next_inside (by omega)]

/-- An attempt at reading from any place of a text, be it inside a lexeme or a comment, gives what
an attempt on the rest of the text gives, with every offset larger by the distance: the same form
with the same symbols, the same fault, or the end. It leaves the reader at the same place, so
that the attempts after it agree as well. -/
theorem next_position_independent (hp : p ≤ text.length) :
    (next ⟨text, p⟩).1 = (next (ofText (text.drop p))).1.shift p ∧
    (next ⟨text, p⟩).2 = (next (ofText (text.drop p))).2.inside text p ∧
    ∀ count,
      reading ⟨text, p⟩ count = (reading (ofText (text.drop p)) count).shift p ∧
      after ⟨text, p⟩ count = (after (ofText (text.drop p)) count).inside text p := by
  have hnext := next_inside (q := 0) hp
  refine ⟨congrArg Prod.fst hnext, congrArg Prod.snd hnext, ?_⟩
  intro count
  exact ⟨reading_inside (q := 0) hp count, after_inside (q := 0) hp count⟩

end

open CharacterNames in
/-- From inside a string: what is a form there, and then a fault where the string ends. -/
theorem next_position_independent_in_string :
    let text := "\"a 'f\"".toList
    let rest := "'f\"".toList
    let form : Form := .quoted ⟨⟨0, 2⟩, none⟩ .quote (.atom ⟨⟨1, 2⟩, none⟩ (.symbol "f"))
    3 ≤ text.length ∧ text.drop 3 = rest ∧
    (next (ofText rest)).1 = .form ⟨form, ["f"]⟩ ∧
    (next ⟨text, (3 : Nat)⟩).1 = .form ⟨form.shift 3, ["f"]⟩ ∧
    reading (ofText rest) 1 = .malformed ⟨.unterminatedString, 2⟩ ∧
    reading ⟨text, (3 : Nat)⟩ 1 = .malformed ⟨.unterminatedString, 5⟩ := by
  have hfirst : next (ofText "'f\"".toList)
      = (.form ⟨.quoted ⟨⟨0, 2⟩, none⟩ .quote (.atom ⟨⟨1, 2⟩, none⟩ (.symbol "f")), ["f"]⟩,
          ⟨"'f\"".toList, (2 : Nat)⟩) := by
    with_unfolding_all rfl
  have hsecond : next ⟨"'f\"".toList, (2 : Nat)⟩
      = (.malformed ⟨.unterminatedString, 2⟩, ⟨"'f\"".toList, (2 : Nat)⟩) := by
    with_unfolding_all rfl
  intro text rest form
  have hp : 3 ≤ text.length := by decide
  have hrest : text.drop 3 = rest := by decide
  have hfault : reading (ofText rest) 1 = .malformed ⟨.unterminatedString, 2⟩ := by
    rw [reading, after, after, hfirst, hsecond]
  obtain ⟨hnext, -, hafter⟩ := next_position_independent hp
  rw [hrest] at hnext hafter
  refine ⟨hp, hrest, by rw [hfirst], ?_, hfault, ?_⟩
  · rw [hnext, hfirst]
    rfl
  · rw [(hafter 1).1, hfault]
    rfl

end LispXref.Reader
