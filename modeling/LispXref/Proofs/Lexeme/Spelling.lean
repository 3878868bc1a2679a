import LispXref.Lexeme.Scan

/-! How tokens are spelled, and that a lexeme which was scanned takes exactly the
characters of such a spelling. -/
namespace LispXref

def Quotation.spelling : Quotation → List Char
  | .quote => ['\'']
  | .backquote => ['\x60']
  | .unquote => [',']
  | .splice => [',', '@']
  | .function => ['#', '\'']

/-- The spellings that open a vector. -/
inductive VectorOpening where
  | square | sharpRound | sharpSquare | record
  deriving DecidableEq, Repr

namespace VectorOpening

def spelling : VectorOpening → List Char
  | .square => ['[']
  | .sharpRound => ['#', '(']
  | .sharpSquare => ['#', '[']
  | .record => ['#', 's', '(']

def bracket : VectorOpening → Bracket
  | .square | .sharpSquare => .square
  | .sharpRound | .record => .round

end VectorOpening

/-- The texts that spell a token, except that nothing is said about the text of an atom
but that there is one. -/
def Token.Spelled : Token → List Char → Prop
  | .opening .list, chars => chars = ['(']
  | .opening (.vector bracket), chars =>
    ∃ opening : VectorOpening, opening.bracket = bracket ∧ chars = opening.spelling
  | .closing bracket, chars => chars = [bracket.closing]
  | .mark quotation, chars => chars = quotation.spelling
  | .dot, chars => chars = ['.']
  | .atom _, chars => chars ≠ []

theorem exists_of_map_eq_ok {ε α β : Type} {x : Except ε α} {f : α → β} {b : β}
    (h : x.map f = .ok b) : ∃ a, x = .ok a ∧ f a = b := by
  cases x with
  | error e => cases h
  | ok a => exact ⟨a, rfl, Except.ok.inj h⟩

theorem stringWidth_le {text : List Char} {w : Nat} (h : stringWidth text = some w) :
    w ≤ text.length := by
  fun_induction stringWidth text generalizing w with
  | case1 => simp at h
  | case2 => simp at h
  | case3 c rest ih =>
    obtain ⟨v, hv, rfl⟩ := Option.map_eq_some_iff.mp h
    have := ih hv
    simp only [List.length_cons]
    omega
  | case4 rest => simp_all
  | case5 c rest _ _ hc ih =>
    obtain ⟨v, hv, rfl⟩ := Option.map_eq_some_iff.mp h
    have := ih hv
    simp only [List.length_cons]
    omega

theorem Word.width_le (text : List Char) : Word.width text ≤ text.length := by
  fun_induction Word.width text with
  | case1 c rest ih => simp only [List.length_cons]; omega
  | case2 c rest _ hc ih => simp only [List.length_cons]; omega
  | case3 c rest _ hc => exact Nat.zero_le _
  | case4 => exact Nat.le_refl _

namespace CharacterLiteral

theorem escapeWidth_le {c : Char} {rest : List Char} {w : Nat}
    (h : escapeWidth c rest = .ok w) : w ≤ rest.length + 1 := by
  unfold escapeWidth at h
  split at h
  · next hname =>
    split at h
    · next i hi =>
      have hlt := (List.findIdx?_eq_some_iff_findIdx_eq.mp hi).1
      cases h
      omega
    · cases h
  · split at h
    · cases h
      have := (List.takeWhile_prefix isHexDigit (l := rest)).length_le
      omega
    · split at h
      · cases h
        have := (List.takeWhile_prefix isOctalDigit (l := rest.take 2)).length_le
        have := List.length_take_le 2 rest
        rw [List.length_take] at *
        omega
      · cases h
        omega

theorem width_le {text : List Char} {w : Nat} (h : width text = .ok w) : w ≤ text.length := by
  fun_induction width text generalizing w with
  | case1 => cases h
  | case2 => cases h
  | case3 rest ih =>
    obtain ⟨v, hv, rfl⟩ := exists_of_map_eq_ok h
    have := ih hv
    simp only [List.length_cons]
    omega
  | case4 c rest _ hm ih =>
    obtain ⟨v, hv, rfl⟩ := exists_of_map_eq_ok h
    have := ih hv
    simp only [List.length_cons]
    omega
  | case5 c rest _ hm =>
    obtain ⟨v, hv, rfl⟩ := exists_of_map_eq_ok h
    have := escapeWidth_le hv
    simp only [List.length_cons] at *
    omega
  | case6 c rest =>
    obtain ⟨v, hv, rfl⟩ := exists_of_map_eq_ok h
    have := escapeWidth_le hv
    simp only [List.length_cons]
    omega
  | case7 c rest =>
    cases h
    simp only [List.length_cons]
    omega

end CharacterLiteral

namespace Sharp

theorem writtenRadix_width_le {text : List Char} {r : Radix} (h : writtenRadix text = .ok r) :
    r.width ≤ text.length := by
  unfold writtenRadix at h
  split at h
  · cases h
  · next c tail =>
    extract_lets digits significant shown base at h
    split at h
    · next hletter =>
      split at h
      · cases h
        -- the letter after the digits is one more character
        have hsum : digits.length + ((c :: tail).dropWhile Char.isDigit).length
            = (c :: tail).length := by
          rw [← List.length_append, List.takeWhile_append_dropWhile]
        have hpos : 0 < ((c :: tail).dropWhile Char.isDigit).length := by
          apply List.length_pos_iff.mpr
          intro hnil
          simp [hnil] at hletter
        show digits.length + 1 ≤ (c :: tail).length
        omega
      · cases h
    · cases h

theorem radix_width_le {text : List Char} {r : Radix} (h : radix text = .ok r) :
    r.width ≤ text.length := by
  unfold radix at h
  split at h
  · next base hb =>
    cases h
    cases text with
    | nil => simp at hb
    | cons c rest => simp
  · exact writtenRadix_width_le h

theorem integer_spec {text : List Char} {lexeme : Lexeme} (h : integer text = .ok lexeme) :
    lexeme.tail ≤ text.length ∧ ∃ value, lexeme.token = .atom value := by
  unfold integer at h
  cases hr : radix text with
  | error fault => rw [hr] at h; cases h
  | ok r =>
    rw [hr] at h
    have hw := radix_width_le hr
    have := Word.width_le (text.drop r.width)
    simp only [bind, Except.bind] at h
    split at h
    · cases h
    · split at h
      · cases h
        rw [List.length_drop] at this
        exact ⟨by simp only; omega, _, rfl⟩
      · cases h

theorem bareSymbol_tail_le (rest : List Char) : (bareSymbol rest).tail ≤ rest.length + 1 :=
  Nat.succ_le_succ (Word.width_le rest)

/-- A lexeme that begins with a sharp takes a character after it, and is spelled so. -/
theorem scan_spec {text : List Char} {lexeme : Lexeme} (h : scan text = .ok lexeme) :
    lexeme.tail ≤ text.length ∧ lexeme.token.Spelled ('#' :: text.take lexeme.tail) := by
  unfold scan at h
  split at h
  · cases h
    exact ⟨by simp, rfl⟩
  · cases h
    exact ⟨by simp, .sharpRound, rfl, rfl⟩
  · cases h
    exact ⟨by simp, .sharpSquare, rfl, rfl⟩
  · cases h
    exact ⟨by simp, .record, rfl, rfl⟩
  · cases h
    exact ⟨by simp, List.cons_ne_nil _ _⟩
  · cases h
    exact ⟨bareSymbol_tail_le _, List.cons_ne_nil _ _⟩
  · cases h
    exact ⟨bareSymbol_tail_le _, List.cons_ne_nil _ _⟩
  · obtain ⟨hle, value, hvalue⟩ := integer_spec h
    refine ⟨hle, ?_⟩
    rw [hvalue]
    exact List.cons_ne_nil _ _

end Sharp

theorem scanWord_spec {c : Char} {rest : List Char} {lexeme : Lexeme}
    (h : scanWord (c :: rest) = .ok lexeme) :
    lexeme.tail ≤ rest.length ∧ lexeme.token.Spelled (c :: rest.take lexeme.tail) := by
  unfold scanWord at h
  dsimp only at h
  split at h
  · cases h
  · next hw =>
    have hle := Word.width_le (c :: rest)
    obtain ⟨w, hsucc⟩ := Nat.exists_eq_succ_of_ne_zero hw
    rw [hsucc] at h hle
    rw [List.take_succ_cons] at h
    cases h
    refine ⟨by simpa using hle, ?_⟩
    show (if c :: rest.take w = ['.'] then Token.dot
      else .atom (Word.atom (c :: rest.take w))).Spelled (c :: rest.take w)
    split
    · next hdot => exact hdot
    · exact List.cons_ne_nil _ _

variable [CharacterNames]

/-- A lexeme takes characters that are there, and they spell its token. -/
theorem Lexeme.scan_spec {c : Char} {rest : List Char} {lexeme : Lexeme}
    (h : Lexeme.scan c rest = .ok lexeme) :
    lexeme.tail ≤ rest.length ∧ lexeme.token.Spelled (c :: rest.take lexeme.tail) := by
  unfold Lexeme.scan at h
  split at h
  · cases h; exact ⟨Nat.zero_le _, rfl⟩
  · cases h; exact ⟨Nat.zero_le _, .square, rfl, rfl⟩
  · cases h; exact ⟨Nat.zero_le _, rfl⟩
  · cases h; exact ⟨Nat.zero_le _, rfl⟩
  · cases h; exact ⟨Nat.zero_le _, rfl⟩
  · cases h; exact ⟨Nat.zero_le _, rfl⟩
  · cases h
    split
    · next hat =>
      obtain ⟨tail, rfl⟩ := List.head?_eq_some_iff.mp hat
      exact ⟨by simp, rfl⟩
    · exact ⟨Nat.zero_le _, rfl⟩
  · unfold scanString at h
    split at h
    · next w hw =>
      cases h
      exact ⟨stringWidth_le hw, List.cons_ne_nil _ _⟩
    · cases h
  · unfold scanCharacter at h
    obtain ⟨w, hw, rfl⟩ := exists_of_map_eq_ok h
    exact ⟨CharacterLiteral.width_le hw, List.cons_ne_nil _ _⟩
  · exact Sharp.scan_spec h
  · exact scanWord_spec h

end LispXref
