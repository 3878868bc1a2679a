import LispXref.Lexeme.Word

/-! The shapes of decimal numbers, said as texts. A word of no such shape is taken for no
number, and the decimal digits of an integer are taken for that integer. -/
namespace LispXref

/-- A sign that may stand before digits, or none. -/
def IsSign (text : List Char) : Prop := text = [] ∨ text = ['+'] ∨ text = ['-']

def AllDigits (text : List Char) : Prop := ∀ c ∈ text, c.isDigit = true

/-- The letter e before a number of its own. -/
inductive IsExponent : List Char → Prop where
  | intro {sign digits : List Char} :
      IsSign sign → AllDigits digits → digits ≠ [] → IsExponent ('e' :: (sign ++ digits))

/-- Decimal digits, which a sign may open and a point may end. -/
inductive IsDecimalInteger : List Char → Prop where
  | intro {sign digits point : List Char} :
      IsSign sign → AllDigits digits → digits ≠ [] → point = [] ∨ point = ['.'] →
      IsDecimalInteger (sign ++ (digits ++ point))

/-- Decimal digits with digits after a point, an exponent, or both. -/
inductive IsDecimalFraction : List Char → Prop where
  | point {sign whole fraction : List Char} :
      IsSign sign → AllDigits whole → AllDigits fraction → fraction ≠ [] →
      IsDecimalFraction (sign ++ (whole ++ '.' :: fraction))
  | scaledPoint {sign whole fraction exponent : List Char} :
      IsSign sign → AllDigits whole → AllDigits fraction → whole ++ fraction ≠ [] →
      IsExponent exponent → IsDecimalFraction (sign ++ (whole ++ '.' :: (fraction ++ exponent)))
  | scaled {sign whole exponent : List Char} :
      IsSign sign → AllDigits whole → whole ≠ [] → IsExponent exponent →
      IsDecimalFraction (sign ++ (whole ++ exponent))

theorem allDigits_takeWhile (text : List Char) : AllDigits (text.takeWhile Char.isDigit) := by
  intro c hc
  exact List.all_eq_true.mp List.all_takeWhile c hc

theorem takeWhile_isDigit_append {digits : List Char} (rest : List Char)
    (hdigits : AllDigits digits) (hrest : ∀ c ∈ rest.head?, c.isDigit = false) :
    (digits ++ rest).takeWhile Char.isDigit = digits ∧
      (digits ++ rest).dropWhile Char.isDigit = rest := by
  rw [List.takeWhile_append_of_pos hdigits, List.dropWhile_append_of_pos hdigits]
  cases rest with
  | nil => simp
  | cons c rest =>
    have hc : c.isDigit = false := hrest c rfl
    simp [hc]

theorem digitsValue_toDigits (n : Nat) : digitsValue 10 (Nat.toDigits 10 n) = n := by
  have hdigit {c : Char} (hc : c.isDigit = true) :
      (radixDigit? c).getD 0 = c.toNat - '0'.toNat := by
    have hrange : '0' ≤ c ∧ c ≤ '9' := by
      simpa [Char.isDigit, Char.le_def] using hc
    simp [radixDigit?, hrange]
  have hfold (digits : List Char) (value : Nat) (h : AllDigits digits) :
      digits.foldl (fun value c => value * 10 + (radixDigit? c).getD 0) value
        = Nat.ofDigitChars 10 digits value := by
    induction digits generalizing value with
    | nil => rfl
    | cons c rest ih =>
      rw [List.foldl_cons, Nat.ofDigitChars_cons, hdigit (h c List.mem_cons_self),
        ih _ fun d hd => h d (List.mem_cons_of_mem c hd), Nat.mul_comm]
  unfold digitsValue
  rw [hfold _ 0 fun c hc => Nat.isDigit_of_mem_toDigits (by decide) (by decide) hc]
  exact Nat.ofDigitChars_toDigits (by decide) (by decide)

namespace Integer

theorem exists_splitSign (text : List Char) : ∃ sign negative body,
    splitSign text = (negative, body) ∧ IsSign sign ∧ text = sign ++ body := by
  unfold splitSign
  split
  · exact ⟨['-'], _, _, rfl, .inr (.inr rfl), rfl⟩
  · exact ⟨['+'], _, _, rfl, .inr (.inl rfl), rfl⟩
  · exact ⟨[], _, _, rfl, .inl rfl, rfl⟩

theorem splitSign_append {sign body : List Char} (hsign : IsSign sign)
    (hbody : ∀ c ∈ body.head?, c ≠ '+' ∧ c ≠ '-') :
    splitSign (sign ++ body) = (decide (sign = ['-']), body) := by
  rcases hsign with rfl | rfl | rfl
  · show splitSign body = (false, body)
    unfold splitSign
    split
    · exact absurd rfl (hbody '-' rfl).2
    · exact absurd rfl (hbody '+' rfl).1
    · rfl
  · rfl
  · rfl

theorem head_ne_sign {digits : List Char} (rest : List Char) (hdigits : AllDigits digits)
    (hrest : ∀ c ∈ rest.head?, c ≠ '+' ∧ c ≠ '-') :
    ∀ c ∈ (digits ++ rest).head?, c ≠ '+' ∧ c ≠ '-' := by
  cases digits with
  | nil => exact hrest
  | cons d digits =>
    rintro c ⟨⟩
    have hd : d.isDigit = true := hdigits d List.mem_cons_self
    refine ⟨?_, ?_⟩
    · rintro rfl
      revert hd
      decide
    · rintro rfl
      revert hd
      decide

/-- An integer as it is written in decimal. -/
def decimal : Int → List Char
  | .ofNat n => Nat.toDigits 10 n
  | .negSucc n => '-' :: Nat.toDigits 10 (n + 1)

end Integer

namespace Word

theorem isDecimalInteger_of_integer? {word : List Char} {value : Int}
    (h : integer? word = some value) : IsDecimalInteger word := by
  obtain ⟨sign, negative, body, hsplit, hsign, rfl⟩ := Integer.exists_splitSign word
  unfold integer? at h
  rw [hsplit] at h
  dsimp only at h
  split at h
  · next hshape =>
    rw [← List.takeWhile_append_dropWhile (p := Char.isDigit) (l := body)]
    exact .intro hsign (allDigits_takeWhile _) hshape.1 hshape.2
  · cases h

theorem isExponent_of_exponent? {text : List Char} {value : Int}
    (h : exponent? text = some value) : IsExponent ('e' :: text) := by
  obtain ⟨sign, negative, digits, hsplit, hsign, rfl⟩ := Integer.exists_splitSign text
  unfold exponent? at h
  rw [hsplit] at h
  dsimp only at h
  split at h
  · next hshape =>
    exact .intro hsign (fun c hc => List.all_eq_true.mp hshape.2 c hc) hshape.1
  · cases h

theorem isDecimalFraction_of_real? {word : List Char} {value : Binary64}
    (h : real? word = some value) : IsDecimalFraction word := by
  obtain ⟨sign, negative, body, hsplit, hsign, rfl⟩ := Integer.exists_splitSign word
  have hwhole := allDigits_takeWhile body
  unfold real? at h
  rw [hsplit] at h
  dsimp only at h
  rw [← List.takeWhile_append_dropWhile (p := Char.isDigit) (l := body)]
  split at h
  · next rest hrest =>
    have hfraction := allDigits_takeWhile rest
    rw [hrest, ← List.takeWhile_append_dropWhile (p := Char.isDigit) (l := rest)]
    split at h
    · next hend =>
      rw [hend, List.append_nil]
      split at h
      · cases h
      · next hne => exact .point hsign hwhole hfraction hne
    · next tail hend =>
      rw [hend]
      split at h
      · cases h
      · next hne =>
        obtain ⟨e, he, _⟩ := Option.map_eq_some_iff.mp h
        exact .scaledPoint hsign hwhole hfraction hne (isExponent_of_exponent? he)
    · cases h
  · next tail htail =>
    rw [htail]
    split at h
    · cases h
    · next hne =>
      obtain ⟨e, he, _⟩ := Option.map_eq_some_iff.mp h
      exact .scaled hsign hwhole hne (isExponent_of_exponent? he)
  · cases h

/-- Signed digits, with or without a point at the end, are the integer they say. -/
theorem integer?_append {sign digits point : List Char} (hsign : IsSign sign)
    (hdigits : AllDigits digits) (hne : digits ≠ []) (hpoint : point = [] ∨ point = ['.']) :
    integer? (sign ++ (digits ++ point))
      = some (Integer.applySign (decide (sign = ['-'])) (digitsValue 10 digits)) := by
  have hnosign : ∀ c ∈ point.head?, c ≠ '+' ∧ c ≠ '-' := by
    rcases hpoint with rfl | rfl <;> simp
  have hspan := takeWhile_isDigit_append point hdigits (by
    rcases hpoint with rfl | rfl <;> simp)
  unfold integer?
  rw [Integer.splitSign_append hsign (Integer.head_ne_sign point hdigits hnosign)]
  simp only [hspan.1, hspan.2]
  rw [if_pos ⟨hne, hpoint⟩]

theorem isSome_exponent?_append {sign digits : List Char} (hsign : IsSign sign)
    (hdigits : AllDigits digits) (hne : digits ≠ []) : (exponent? (sign ++ digits)).isSome := by
  have hnosign := Integer.head_ne_sign [] hdigits (by simp)
  rw [List.append_nil] at hnosign
  unfold exponent?
  rw [Integer.splitSign_append hsign hnosign]
  simp only
  rw [if_pos ⟨hne, List.all_eq_true.mpr hdigits⟩]
  rfl

theorem isSome_real?_of_isDecimalFraction {word : List Char} (h : IsDecimalFraction word) :
    (real? word).isSome := by
  unfold real?
  cases h with
  | @point sign whole fraction hsign hwhole hfraction hne =>
    have hspan := takeWhile_isDigit_append ('.' :: fraction) hwhole (by simp)
    have hfspan := takeWhile_isDigit_append [] hfraction (by simp)
    rw [List.append_nil] at hfspan
    rw [Integer.splitSign_append hsign (Integer.head_ne_sign _ hwhole (by simp))]
    simp only [hspan.1, hspan.2, hfspan.1, hfspan.2, hne, ↓reduceIte, Option.isSome_some]
  | @scaledPoint sign whole fraction exponent hsign hwhole hfraction hne hexponent =>
    obtain ⟨hesign, hedigits, hene⟩ := hexponent
    next esign edigits =>
    have hspan := takeWhile_isDigit_append
      ('.' :: (fraction ++ 'e' :: (esign ++ edigits))) hwhole (by simp)
    have hfspan := takeWhile_isDigit_append ('e' :: (esign ++ edigits)) hfraction (by simp)
    rw [Integer.splitSign_append hsign (Integer.head_ne_sign _ hwhole (by simp))]
    simp only [hspan.1, hspan.2, hfspan.1, hfspan.2, hne, ↓reduceIte, Option.isSome_map]
    exact isSome_exponent?_append hesign hedigits hene
  | @scaled sign whole exponent hsign hwhole hne hexponent =>
    obtain ⟨hesign, hedigits, hene⟩ := hexponent
    next esign edigits =>
    have hspan := takeWhile_isDigit_append ('e' :: (esign ++ edigits)) hwhole (by simp)
    rw [Integer.splitSign_append hsign (Integer.head_ne_sign _ hwhole (by simp))]
    simp only [hspan.1, hspan.2, hne, ↓reduceIte, Option.isSome_map]
    exact isSome_exponent?_append hesign hedigits hene

theorem isSome_integer?_iff {word : List Char} :
    (integer? word).isSome ↔ IsDecimalInteger word := by
  constructor
  · intro h
    obtain ⟨value, hvalue⟩ := Option.isSome_iff_exists.mp h
    exact isDecimalInteger_of_integer? hvalue
  · rintro ⟨hsign, hdigits, hne, hpoint⟩
    rw [integer?_append hsign hdigits hne hpoint]
    rfl

theorem isSome_real?_iff {word : List Char} : (real? word).isSome ↔ IsDecimalFraction word := by
  constructor
  · intro h
    obtain ⟨value, hvalue⟩ := Option.isSome_iff_exists.mp h
    exact isDecimalFraction_of_real? hvalue
  · exact isSome_real?_of_isDecimalFraction

theorem integer?_decimal (value : Int) : integer? (Integer.decimal value) = some value := by
  have hdigits (n : Nat) : AllDigits (Nat.toDigits 10 n) :=
    fun c hc => Nat.isDigit_of_mem_toDigits (by decide) (by decide) hc
  cases value with
  | ofNat n =>
    have := integer?_append (.inl rfl) (hdigits n) Nat.toDigits_ne_nil (.inl rfl)
    rw [List.append_nil, digitsValue_toDigits] at this
    exact this
  | negSucc n =>
    have := integer?_append (.inr (.inr rfl)) (hdigits (n + 1)) Nat.toDigits_ne_nil (.inl rfl)
    rw [List.append_nil, digitsValue_toDigits] at this
    exact this

end Word

instance (word : List Char) : Decidable (IsDecimalInteger word) :=
  decidable_of_iff _ Word.isSome_integer?_iff

instance (word : List Char) : Decidable (IsDecimalFraction word) :=
  decidable_of_iff _ Word.isSome_real?_iff

end LispXref
