import LispXref.Proofs.Lexeme.Layout
import LispXref.Proofs.Numeral.Positional

/-! Integers with a radix. The base is found whatever follows its announcement, and the word
after it is taken as a whole: as an integer or as a fault. -/
namespace LispXref

/-- What may stand between the sharp and the digits of an integer: the letter of its base, or
the base in decimal, with any number of zeros before it, and the letter r. -/
inductive Announces : List Char → Nat → Prop where
  | letter {mark : Char} {base : Nat} : (mark, base) ∈ Integer.baseLetters → Announces [mark] base
  | written {digits : List Char} {letter : Char} :
      IsNumeral 10 digits → 2 ≤ placeValue 10 digits → placeValue 10 digits ≤ 36 →
      letter = 'r' ∨ letter = 'R' → Announces (digits ++ [letter]) (placeValue 10 digits)

theorem Announces.base_range {announcement : List Char} {base : Nat}
    (h : Announces announcement base) : 2 ≤ base ∧ base ≤ 36 := by
  cases h with
  | letter hmark =>
    have hall : ∀ pair ∈ Integer.baseLetters, 2 ≤ pair.2 ∧ pair.2 ≤ 36 := by decide
    exact hall _ hmark
  | written hdigits htwo hlimit hletter => exact ⟨htwo, hlimit⟩

theorem isDigit_iff {c : Char} : c.isDigit = true ↔ ∃ d < 10, radixDigit? c = some d := by
  have hrange : c.isDigit = true ↔ '0' ≤ c ∧ c ≤ '9' := by
    simp [Char.isDigit, Char.le_def]
  rw [hrange]
  unfold radixDigit?
  constructor
  · intro h
    refine ⟨c.toNat - '0'.toNat, ?_, if_pos h⟩
    have hle : c.toNat ≤ '9'.toNat := h.2
    have hnine : '9'.toNat = 57 := rfl
    have hzero : '0'.toNat = 48 := rfl
    omega
  · rintro ⟨d, hd, hvalue⟩
    split at hvalue
    · next h => exact h
    · split at hvalue
      · cases hvalue
        omega
      · split at hvalue
        · cases hvalue
          omega
        · cases hvalue

/-- An announcement opens with a digit or with the letter of a base. -/
theorem Announces.exists_cons {announcement : List Char} {base : Nat}
    (h : Announces announcement base) : ∃ c more, announcement = c :: more ∧
      c ∉ ['\'', '(', '[', 's', '#', ':', '_', '!'] := by
  cases h with
  | @letter mark base hmark =>
    have hall : ∀ pair ∈ Integer.baseLetters,
        pair.1 ∉ ['\'', '(', '[', 's', '#', ':', '_', '!'] := by decide
    exact ⟨mark, [], rfl, hall _ hmark⟩
  | @written digits letter hdigits htwo hlimit hletter =>
    obtain ⟨c, more, rfl⟩ := List.exists_cons_of_ne_nil hdigits.ne_nil
    have hdigit := isDigit_iff.mpr (hdigits.digit c List.mem_cons_self)
    refine ⟨c, more ++ [letter], rfl, fun hmem => ?_⟩
    have hall : ['\'', '(', '[', 's', '#', ':', '_', '!'].all (!·.isDigit) = true := by decide
    have hother := List.all_eq_true.mp hall c hmem
    rw [hdigit] at hother
    cases hother

theorem IsNumeral.allDigits {digits : List Char} (h : IsNumeral 10 digits) : AllDigits digits :=
  fun c hc => isDigit_iff.mpr (h.digit c hc)

section

variable {base : Nat}

theorem digitsValue_cons (base : Nat) (c : Char) (digits : List Char) :
    digitsValue base (c :: digits)
      = (radixDigit? c).getD 0 * base ^ digits.length + digitsValue base digits := by
  have hfirst : digitsValue base [c] = (radixDigit? c).getD 0 := by simp [digitsValue]
  rw [← hfirst, ← digitsValue_append, List.singleton_append]

/-- Leading zeros do not count. -/
theorem digitsValue_dropWhile_zero (base : Nat) (digits : List Char) :
    digitsValue base (digits.dropWhile (· = '0')) = digitsValue base digits := by
  induction digits with
  | nil => rfl
  | cons c digits ih =>
    by_cases hc : c = '0'
    · subst hc
      rw [List.dropWhile_cons_of_pos (by decide), ih, digitsValue_cons]
      show _ = 0 * _ + _
      rw [Nat.zero_mul, Nat.zero_add]
    · rw [List.dropWhile_cons_of_neg (by simpa using hc)]

/-- A numeral that does not open with a zero is at least the power of its other places. -/
theorem pow_le_digitsValue {c : Char} {digits : List Char} (hc : c ≠ '0')
    (hdigit : c.isDigit = true) : base ^ digits.length ≤ digitsValue base (c :: digits) := by
  have hpos : 0 < (radixDigit? c).getD 0 :=
    char_of_toNat_le (P := fun c => c.isDigit = true → c ≠ '0' → 0 < (radixDigit? c).getD 0)
      (by decide) (toNat_le_of_isDigit hdigit) hdigit hc
  rw [digitsValue_cons]
  calc base ^ digits.length
      ≤ (radixDigit? c).getD 0 * base ^ digits.length := Nat.le_mul_of_pos_left _ hpos
    _ ≤ _ := Nat.le_add_right _ _

/-- A decimal numeral below a hundred has at most two places after its zeros. -/
theorem length_dropWhile_zero_le {digits : List Char} (hdigits : AllDigits digits)
    (hlimit : digitsValue 10 digits < 100) : (digits.dropWhile (· = '0')).length ≤ 2 := by
  cases hsignificant : digits.dropWhile (· = '0') with
  | nil => simp
  | cons c more =>
    have hc : c ≠ '0' := by
      have hhead := List.head?_dropWhile_not (· = '0') digits
      rw [hsignificant] at hhead
      simpa using hhead
    have hmem : c ∈ digits := by
      apply (List.dropWhile_suffix (· = '0')).subset
      rw [hsignificant]
      exact List.mem_cons_self
    have hpow : 10 ^ more.length ≤ digitsValue 10 (c :: more) :=
      pow_le_digitsValue hc (hdigits c hmem)
    rw [← hsignificant, digitsValue_dropWhile_zero] at hpow
    have hlength : more.length < 2 := by
      by_contra hlong
      have := Nat.pow_le_pow_right (show 0 < 10 by decide) (Nat.le_of_not_lt hlong)
      omega
    rw [List.length_cons]
    omega

end

namespace Sharp

/-- The base that is written before the letter r is found. -/
theorem writtenRadix_append {digits : List Char} {letter : Char} (rest : List Char)
    (hdigits : IsNumeral 10 digits) (htwo : 2 ≤ placeValue 10 digits)
    (hlimit : placeValue 10 digits ≤ 36) (hletter : letter = 'r' ∨ letter = 'R') :
    writtenRadix (digits ++ letter :: rest) = .ok ⟨placeValue 10 digits, digits.length + 1⟩ := by
  rw [← digitsValue_eq_placeValue] at htwo hlimit ⊢
  have hspan := takeWhile_isDigit_append (letter :: rest) hdigits.allDigits (by
    rcases hletter with rfl | rfl <;> simp)
  have hlength := length_dropWhile_zero_le hdigits.allDigits (by omega)
  have hvalue := digitsValue_dropWhile_zero 10 digits
  have hsignificant : digits.dropWhile (· = '0') ≠ [] := by
    intro hnil
    rw [hnil] at hvalue
    have hzero : digitsValue 10 [] = 0 := rfl
    omega
  have hhead : (letter :: rest).head? = some 'r' ∨ (letter :: rest).head? = some 'R' := by
    rcases hletter with rfl | rfl <;> simp
  unfold writtenRadix
  simp only [hspan.1, hspan.2]
  split
  · next hnil => simp at hnil
  · rw [if_pos ⟨hdigits.ne_nil, hhead⟩, if_neg hsignificant, if_pos hlength, hvalue,
      if_pos ⟨htwo, hlimit⟩]

theorem radix_of_announces {announcement : List Char} {base : Nat}
    (h : Announces announcement base) (rest : List Char) :
    radix (announcement ++ rest) = .ok ⟨base, announcement.length⟩ := by
  cases h with
  | @letter mark base hmark =>
    have hbase : ([mark] ++ rest).head?.bind Integer.markedBase? = some base :=
      Integer.markedBase?_eq_some_iff.mpr hmark
    rw [radix, hbase]
    rfl
  | @written digits letter hdigits htwo hlimit hletter =>
    obtain ⟨c, more, rfl⟩ := List.exists_cons_of_ne_nil hdigits.ne_nil
    have hnone : (c :: more ++ [letter] ++ rest).head?.bind Integer.markedBase? = none := by
      refine Option.eq_none_iff_forall_ne_some.mpr fun base hbase => ?_
      have hall : ∀ pair ∈ Integer.baseLetters, pair.1.isDigit = false := by decide
      have hdigit := hdigits.allDigits c List.mem_cons_self
      rw [hall _ (Integer.markedBase?_eq_some_iff.mp hbase)] at hdigit
      cases hdigit
    rw [radix, hnone, List.append_assoc, List.singleton_append, List.length_append,
      List.length_singleton]
    exact writtenRadix_append rest hdigits htwo hlimit hletter

/-- What follows the announcement of a base is one word, read in that base. -/
theorem integer_of_announces {announcement token rest : List Char} {base : Nat}
    (h : Announces announcement base) (hne : token ≠ [])
    (hwhole : Word.width (token ++ rest) = token.length) :
    integer (announcement ++ (token ++ rest)) =
      match Integer.parse base token with
      | .ok value =>
        .ok ⟨.atom (.number (.integer value)), announcement.length + token.length⟩
      | .error _ => .error (.invalidInteger base) := by
  have hlength : token.length ≠ 0 := fun hzero => hne (List.length_eq_zero_iff.mp hzero)
  unfold integer
  simp only [radix_of_announces h, bind, Except.bind, List.drop_left, hwhole, List.take_left]
  exact (if_neg hlength).trans rfl

/-- The announcement of a base opens nothing else that may follow a sharp. -/
theorem scan_eq_integer {announcement : List Char} {base : Nat} (h : Announces announcement base)
    (rest : List Char) : scan (announcement ++ rest) = integer (announcement ++ rest) := by
  obtain ⟨c, more, rfl, hc⟩ := h.exists_cons
  unfold scan
  split
  case h_8 => rfl
  all_goals
    next heq =>
      obtain ⟨rfl, -⟩ := List.cons.inj heq
      exact absurd hc (by decide)

end Sharp

/-- In any text, an integer with a radix is one lexeme, or a fault. -/
theorem Lexeme.scan_of_announces [CharacterNames] {announcement token rest : List Char} {base : Nat}
    (h : Announces announcement base) (hne : token ≠ [])
    (hwhole : Word.width (token ++ rest) = token.length) :
    Lexeme.scan '#' (announcement ++ (token ++ rest)) =
      match Integer.parse base token with
      | .ok value =>
        .ok ⟨.atom (.number (.integer value)), announcement.length + token.length⟩
      | .error _ => .error (.invalidInteger base) := by
  show Sharp.scan (announcement ++ (token ++ rest)) = _
  rw [Sharp.scan_eq_integer h, Sharp.integer_of_announces h hne hwhole]

end LispXref
