import LispXref.Proofs.Lexeme.Numeral
import Mathlib.Data.List.Induction
import Mathlib.Data.Nat.Digits.Defs
import Mathlib.Tactic.Ring

/-! Numerals in any base. Taken in pieces or not, digits have the value that their places give
them; a text with anything else in it is refused, unless a piece opens with the mark of its base. -/
namespace LispXref

/-- One or more digits below a base. -/
structure IsNumeral (base : Nat) (digits : List Char) : Prop where
  ne_nil : digits ≠ []
  digit : ∀ c ∈ digits, ∃ d < base, radixDigit? c = some d

/-- A numeral that a sign may open. -/
inductive IsSignedNumeral (base : Nat) : List Char → Prop where
  | intro {sign digits : List Char} :
      IsSign sign → IsNumeral base digits → IsSignedNumeral base (sign ++ digits)

/-- The sum of all digits, each times the power of the base for its place. -/
def placeValue (base : Nat) (digits : List Char) : Nat :=
  Nat.ofDigits base (digits.reverse.map fun c => (radixDigit? c).getD 0)

def signedValue (base : Nat) (sign digits : List Char) : Int :=
  if sign = ['-'] then -(placeValue base digits : Int) else placeValue base digits

section

variable {base : Nat} {digits : List Char}

theorem isDigitBelow_iff {c : Char} :
    isDigitBelow base c = true ↔ ∃ d < base, radixDigit? c = some d := by
  unfold isDigitBelow digitBelow?
  cases radixDigit? c with
  | none => simp
  | some d => simp [Option.filter]

theorem digitsValue_concat (base : Nat) (digits : List Char) (c : Char) :
    digitsValue base (digits ++ [c]) = digitsValue base digits * base + (radixDigit? c).getD 0 := by
  rw [digitsValue, List.foldl_append]
  rfl

theorem digitsValue_append (base : Nat) (first second : List Char) :
    digitsValue base (first ++ second)
      = digitsValue base first * base ^ second.length + digitsValue base second := by
  induction second using List.reverseRecOn with
  | nil => simp [digitsValue]
  | append_singleton second c ih =>
    rw [← List.append_assoc, digitsValue_concat, ih, digitsValue_concat, List.length_append,
      List.length_singleton, Nat.pow_succ]
    ring

theorem digitsValue_eq_placeValue (base : Nat) (digits : List Char) :
    digitsValue base digits = placeValue base digits := by
  induction digits using List.reverseRecOn with
  | nil => rfl
  | append_singleton digits c ih =>
    rw [digitsValue_concat, ih, placeValue, placeValue, List.reverse_append, List.reverse_singleton,
      List.singleton_append, List.map_cons, Nat.ofDigits_cons]
    ring

end

namespace Integer

/-- The letters that stand for a base. -/
def baseLetters : List (Char × Nat) :=
  [('x', 16), ('X', 16), ('o', 8), ('O', 8), ('b', 2), ('B', 2)]

/-- A zero and the letter of a base before a numeral in it. -/
inductive IsMarked (base : Nat) : List Char → Prop where
  | intro {mark : Char} {digits : List Char} :
      (mark, base) ∈ baseLetters → IsNumeral base digits → IsMarked base ('0' :: mark :: digits)

section

variable {base : Nat} {piece digits : List Char}

theorem positional?_eq_some_iff {value : Nat} :
    positional? base digits = some value ↔
      IsNumeral base digits ∧ digitsValue base digits = value := by
  unfold positional?
  simp only [Option.ite_none_right_eq_some, List.all_eq_true, isDigitBelow_iff, Option.some.injEq]
  constructor
  · rintro ⟨⟨hne, hdigit⟩, hvalue⟩
    exact ⟨⟨hne, hdigit⟩, hvalue⟩
  · rintro ⟨h, hvalue⟩
    exact ⟨⟨h.ne_nil, h.digit⟩, hvalue⟩

theorem markedBase?_eq_some_iff {mark : Char} :
    markedBase? mark = some base ↔ (mark, base) ∈ baseLetters := by
  constructor
  · intro h
    unfold markedBase? at h
    split at h
    · next hx =>
      cases h
      rcases hx with rfl | rfl <;> decide
    · split at h
      · next ho =>
        cases h
        rcases ho with rfl | rfl <;> decide
      · split at h
        · next hb =>
          cases h
          rcases hb with rfl | rfl <;> decide
        · cases h
  · intro h
    have hall : ∀ pair ∈ baseLetters, markedBase? pair.1 = some pair.2 := by decide
    exact hall _ h

/-- The letter of a base is an ASCII letter, and no digit below the base. -/
theorem letter_of_mem_baseLetters {mark : Char} (h : (mark, base) ∈ baseLetters) :
    (radixDigit? mark).isSome = true ∧ ¬ ∃ d < base, radixDigit? mark = some d := by
  have hall : ∀ pair ∈ baseLetters,
      (radixDigit? pair.1).isSome = true ∧ isDigitBelow pair.2 pair.1 = false := by decide
  obtain ⟨hletter, hdigit⟩ := hall _ h
  refine ⟨hletter, ?_⟩
  rw [← isDigitBelow_iff, hdigit]
  exact Bool.false_ne_true

theorem pieceValue?_of_isNumeral (hbase : base ≠ 0) (h : IsNumeral base piece) :
    pieceValue? base piece = some (digitsValue base piece) := by
  have hvalue : unmarked? base piece = some (digitsValue base piece) := by
    rw [unmarked?, if_neg hbase]
    exact positional?_eq_some_iff.mpr ⟨h, rfl⟩
  unfold pieceValue?
  split
  · next mark rest =>
    split
    · next marked hmark =>
      have hother : ¬ (base = marked ∨ base = 0) := by
        rintro (rfl | hzero)
        · exact (letter_of_mem_baseLetters (markedBase?_eq_some_iff.mp hmark)).2
            (h.digit mark (by simp))
        · exact hbase hzero
      rw [if_neg hother, hvalue]
    · exact hvalue
  · exact hvalue

/-- The texts that are taken for one piece of an integer. -/
theorem isSome_pieceValue?_iff (hbase : base ≠ 0) :
    (pieceValue? base piece).isSome ↔ IsNumeral base piece ∨ IsMarked base piece := by
  constructor
  · intro h
    obtain ⟨value, hvalue⟩ := Option.isSome_iff_exists.mp h
    have hunmarked (hsome : unmarked? base piece = some value) : IsNumeral base piece := by
      rw [unmarked?, if_neg hbase] at hsome
      exact (positional?_eq_some_iff.mp hsome).1
    unfold pieceValue? at hvalue
    split at hvalue
    · next mark digits =>
      split at hvalue
      · next marked hmark =>
        split at hvalue
        · next hmarked =>
          obtain rfl := hmarked.resolve_right hbase
          exact .inr (.intro (markedBase?_eq_some_iff.mp hmark)
            (positional?_eq_some_iff.mp hvalue).1)
        · exact .inl (hunmarked hvalue)
      · exact .inl (hunmarked hvalue)
    · exact .inl (hunmarked hvalue)
  · rintro (h | ⟨hmark, hdigits⟩)
    · rw [pieceValue?_of_isNumeral hbase h]
      rfl
    · simp only [pieceValue?, markedBase?_eq_some_iff.mpr hmark, true_or, ↓reduceIte]
      rw [positional?_eq_some_iff.mpr ⟨hdigits, rfl⟩]
      rfl

theorem joinPieces_nil (base value : Nat) : joinPieces base value [] = .ok value := rfl

theorem joinPieces_cons (base value : Nat) (piece : List Char) (rest : List (List Char)) :
    joinPieces base value (piece :: rest) =
      match pieceValue? base piece with
      | some v => joinPieces base (value * base ^ piece.length + v) rest
      | none => .error piece := rfl

/-- Pieces that are numerals are joined to the value of all their digits. -/
theorem joinPieces_of_isNumeral (hbase : base ≠ 0) {parts : List (List Char)}
    (h : ∀ piece ∈ parts, IsNumeral base piece) (value : Nat) :
    joinPieces base value parts
      = .ok (value * base ^ parts.flatten.length + digitsValue base parts.flatten) := by
  induction parts generalizing value with
  | nil => simp [joinPieces_nil, digitsValue]
  | cons piece rest ih =>
    obtain ⟨hpiece, hrest⟩ := List.forall_mem_cons.mp h
    rw [joinPieces_cons, pieceValue?_of_isNumeral hbase hpiece]
    dsimp only
    rw [ih hrest, List.flatten_cons, digitsValue_append, List.length_append, Nat.pow_add]
    congr 1
    ring

theorem exists_joinPieces_iff (hbase : base ≠ 0) {parts : List (List Char)} {value : Nat} :
    (∃ total, joinPieces base value parts = .ok total) ↔
      ∀ piece ∈ parts, IsNumeral base piece ∨ IsMarked base piece := by
  induction parts generalizing value with
  | nil => simp [joinPieces_nil]
  | cons piece rest ih =>
    rw [List.forall_mem_cons, ← isSome_pieceValue?_iff hbase, joinPieces_cons]
    cases pieceValue? base piece with
    | none => simp
    | some v => simp [ih]

theorem ne_nil_of_mem_pieces {text : List Char} (h : piece ∈ pieces text) : piece ≠ [] := by
  fun_induction pieces text with
  | case1 => simp at h
  | case2 c rest ih =>
    rcases List.mem_cons.mp h with rfl | h
    · exact List.cons_ne_nil _ _
    · exact ih h

theorem pieces_of_length_le {text : List Char} (hne : text ≠ []) (h : text.length ≤ pieceSize) :
    pieces text = [text] := by
  obtain ⟨c, rest, rfl⟩ := List.exists_cons_of_ne_nil hne
  have hrest : rest.length ≤ pieceSize - 1 := Nat.le_sub_one_of_lt h
  rw [pieces, List.take_of_length_le hrest, List.drop_of_length_le hrest, pieces]

theorem isNumeral_of_mem_pieces (h : IsNumeral base digits) (hpiece : piece ∈ pieces digits) :
    IsNumeral base piece := by
  refine ⟨ne_nil_of_mem_pieces hpiece, fun c hc => h.digit c ?_⟩
  rw [← flatten_pieces digits]
  exact List.mem_flatten_of_mem hpiece hc

theorem isNumeral_of_pieces (hne : digits ≠ [])
    (h : ∀ piece ∈ pieces digits, IsNumeral base piece) : IsNumeral base digits := by
  refine ⟨hne, fun c hc => ?_⟩
  rw [← flatten_pieces digits] at hc
  obtain ⟨piece, hpiece, hc⟩ := List.mem_flatten.mp hc
  exact (h piece hpiece).digit c hc

/-- Every character of a piece that is taken is an ASCII digit or letter. -/
theorem isSome_radixDigit?_of_piece (h : IsNumeral base piece ∨ IsMarked base piece) :
    ∀ c ∈ piece, (radixDigit? c).isSome := by
  have hnumeral {digits : List Char} (hdigits : IsNumeral base digits) :
      ∀ c ∈ digits, (radixDigit? c).isSome := by
    intro c hc
    obtain ⟨d, -, hd⟩ := hdigits.digit c hc
    rw [hd]
    rfl
  rcases h with h | ⟨hmark, hdigits⟩
  · exact hnumeral h
  · refine List.forall_mem_cons.mpr ⟨rfl, List.forall_mem_cons.mpr ⟨?_, hnumeral hdigits⟩⟩
    exact (letter_of_mem_baseLetters hmark).1

theorem ne_sign_of_isSome_radixDigit? {c : Char} (h : (radixDigit? c).isSome) :
    c ≠ '+' ∧ c ≠ '-' := by
  refine ⟨?_, ?_⟩
  · rintro rfl
    revert h
    decide
  · rintro rfl
    revert h
    decide

/-- After its sign, a text of ASCII digits and letters is what its pieces come to. -/
theorem parse_append {sign body : List Char} (hbase : 2 ≤ base ∧ base ≤ 36) (hsign : IsSign sign)
    (hne : body ≠ []) (hbody : ∀ c ∈ body, (radixDigit? c).isSome) :
    parse base (sign ++ body) =
      match joinPieces base 0 (pieces body) with
      | .ok magnitude => .ok (applySign (decide (sign = ['-'])) magnitude)
      | .error piece => .error (.piece base piece) := by
  have hhead : ∀ c ∈ body.head?, c ≠ '+' ∧ c ≠ '-' := fun c hc =>
    ne_sign_of_isSome_radixDigit? (hbody c (List.mem_of_head? hc))
  have hshape : ¬ (body = [] ∨ (!body.all fun c => (radixDigit? c).isSome) = true) := by
    rw [List.all_eq_true.mpr hbody]
    simp [hne]
  have hrange : ¬ ((base : Int) ≠ 0 ∧ ¬ (2 ≤ (base : Int) ∧ (base : Int) ≤ 36)) := by omega
  unfold parse
  rw [splitSign_append hsign hhead]
  dsimp only
  rw [if_neg hshape]
  exact (if_neg hrange).trans rfl

/-- A body that fits into one piece is not cut. -/
theorem parse_of_length_le {sign body : List Char} (hbase : 2 ≤ base ∧ base ≤ 36)
    (hsign : IsSign sign) (hne : body ≠ []) (hbody : ∀ c ∈ body, (radixDigit? c).isSome)
    (hlength : body.length ≤ pieceSize) :
    parse base (sign ++ body) =
      match pieceValue? base body with
      | some magnitude => .ok (applySign (decide (sign = ['-'])) magnitude)
      | none => .error (.piece base body) := by
  rw [parse_append hbase hsign hne hbody, pieces_of_length_le hne hlength, joinPieces_cons]
  cases pieceValue? base body with
  | none => rfl
  | some magnitude => simp [joinPieces_nil]

theorem applySign_digitsValue (base : Nat) (sign digits : List Char) :
    applySign (decide (sign = ['-'])) (digitsValue base digits) = signedValue base sign digits := by
  rw [digitsValue_eq_placeValue]
  simp only [signedValue, applySign, decide_eq_true_eq]

/-- Signed digits below a base are taken for the number they spell by their places. -/
theorem parse_signed {sign : List Char} (hbase : 2 ≤ base ∧ base ≤ 36) (hsign : IsSign sign)
    (hdigits : IsNumeral base digits) :
    parse base (sign ++ digits) = .ok (signedValue base sign digits) := by
  have hnonzero : base ≠ 0 := by omega
  have hparts := joinPieces_of_isNumeral hnonzero
    (fun piece hpiece => isNumeral_of_mem_pieces hdigits hpiece) 0
  rw [flatten_pieces, Nat.zero_mul, Nat.zero_add] at hparts
  rw [parse_append hbase hsign hdigits.ne_nil (isSome_radixDigit?_of_piece (.inl hdigits)), hparts,
    ← applySign_digitsValue]

/-- The texts that are taken for an integer: after the sign every piece is a numeral or a marked
one. -/
theorem exists_parse_iff {text : List Char} (hbase : 2 ≤ base ∧ base ≤ 36) :
    (∃ value, parse base text = .ok value) ↔ ∃ sign body, text = sign ++ body ∧ IsSign sign ∧
      body ≠ [] ∧ ∀ piece ∈ pieces body, IsNumeral base piece ∨ IsMarked base piece := by
  have hnonzero : base ≠ 0 := by omega
  constructor
  · rintro ⟨value, hvalue⟩
    obtain ⟨sign, negative, body, hsplit, hsign, rfl⟩ := exists_splitSign text
    unfold parse at hvalue
    rw [hsplit] at hvalue
    dsimp only at hvalue
    split at hvalue
    · cases hvalue
    · next hshape =>
      split at hvalue
      · cases hvalue
      · split at hvalue
        · next total htotal =>
          refine ⟨sign, body, rfl, hsign, fun hnil => hshape (.inl hnil), ?_⟩
          exact (exists_joinPieces_iff hnonzero).mp ⟨total, htotal⟩
        · cases hvalue
  · rintro ⟨sign, body, rfl, hsign, hne, hpieces⟩
    have hbody : ∀ c ∈ body, (radixDigit? c).isSome := by
      intro c hc
      rw [← flatten_pieces body] at hc
      obtain ⟨piece, hpiece, hc⟩ := List.mem_flatten.mp hc
      exact isSome_radixDigit?_of_piece (hpieces piece hpiece) c hc
    obtain ⟨total, htotal⟩ : ∃ total, joinPieces base 0 (pieces body) = .ok total :=
      (exists_joinPieces_iff hnonzero).mpr hpieces
    rw [parse_append hbase hsign hne hbody, htotal]
    exact ⟨_, rfl⟩

/-- After the sign every piece is a numeral or a marked one, and one of them is marked. -/
def HasMarkedPiece (base : Nat) (text : List Char) : Prop :=
  ∃ sign body, text = sign ++ body ∧ IsSign sign ∧ (∃ piece ∈ pieces body, IsMarked base piece) ∧
    ∀ piece ∈ pieces body, IsNumeral base piece ∨ IsMarked base piece

/-- A character that is neither a sign nor a digit below the base tells. -/
theorem not_isSignedNumeral {token : List Char} {c : Char} (hc : c ∈ token)
    (hother : c ≠ '+' ∧ c ≠ '-' ∧ isDigitBelow base c = false) : ¬ IsSignedNumeral base token := by
  rintro ⟨hsign, hdigits⟩
  rcases List.mem_append.mp hc with hc | hc
  · rcases hsign with rfl | rfl | rfl
    · cases hc
    · exact hother.1 (List.mem_singleton.mp hc)
    · exact hother.2.1 (List.mem_singleton.mp hc)
  · have hdigit := isDigitBelow_iff.mpr (hdigits.digit c hc)
    rw [hother.2.2] at hdigit
    cases hdigit

/-- A base without a letter has no mark. -/
theorem not_hasMarkedPiece (h : ∀ mark, (mark, base) ∉ baseLetters) (text : List Char) :
    ¬ HasMarkedPiece base text := by
  rintro ⟨sign, body, -, -, ⟨piece, -, hmark, -⟩, -⟩
  exact h _ hmark

/-- Only marks make a text an integer that is no signed numeral. -/
theorem exists_parse_iff_hasMarkedPiece {text : List Char} (hbase : 2 ≤ base ∧ base ≤ 36)
    (h : ¬ IsSignedNumeral base text) :
    (∃ value, parse base text = .ok value) ↔ HasMarkedPiece base text := by
  rw [exists_parse_iff hbase]
  constructor
  · rintro ⟨sign, body, rfl, hsign, hne, hpieces⟩
    refine ⟨sign, body, rfl, hsign, ?_, hpieces⟩
    by_contra hmarked
    refine h (.intro hsign (isNumeral_of_pieces hne fun piece hpiece => ?_))
    exact (hpieces piece hpiece).resolve_right fun hmark => hmarked ⟨piece, hpiece, hmark⟩
  · rintro ⟨sign, body, rfl, hsign, ⟨piece, hpiece, -⟩, hpieces⟩
    refine ⟨sign, body, rfl, hsign, ?_, hpieces⟩
    rintro rfl
    simp [pieces] at hpiece

end

end Integer
end LispXref
