import LispXref.Proofs.Gap
import LispXref.Proofs.Lexeme.Checked
import LispXref.Proofs.Reader.Run

/-! A reader that any misuse of a primitive would stop never stops so: wherever it stands in
whatever text, it gives the form, the end or the fault that the reader gives. -/
namespace LispXref

section

variable [CharacterNames]

namespace Checked

/-- Reads on as the reader does, with a scan that may fail by misuse. -/
def readFrom (cursor : Nat) (text : List Char) (stack : List Pending) (names : List String) :
    Except Misuse ReadStep :=
  let start := cursor + Gap.width text
  match _h : text.drop (Gap.width text) with
  | [] => .ok ⟨.endOfText, start⟩
  | c :: rest =>
    match scan c rest with
    | .error (.misuse misuse) => .error misuse
    | .error (.fault fault) => .ok ⟨.malformed ⟨fault, start⟩, cursor⟩
    | .ok lexeme =>
      let stop := start + lexeme.width
      let names := lexeme.token.addName names
      match Pending.absorb stack ⟨start, stop⟩ lexeme.token with
      | .error refusal => .ok ⟨.malformed refusal.error, if refusal.taken then stop else cursor⟩
      | .ok (.finished form) => .ok ⟨.form ⟨form, names⟩, stop⟩
      | .ok (.pending stack) => readFrom stop (rest.drop lexeme.tail) stack names
termination_by text.length
decreasing_by
  have hlen := congrArg List.length _h
  simp only [List.length_drop, List.length_cons] at hlen ⊢
  omega

def next (reader : Reader) : Except Misuse (Reading × Reader) := do
  let step ← readFrom reader.offset (reader.text.drop reader.offset) [] []
  let moved : Reader := { reader with place := step.cursor }
  match step.reading with
  | .malformed error =>
    .ok (.malformed error, if step.cursor = reader.offset then reader else moved)
  | reading => .ok (reading, moved)

section

variable {text rest : List Char} {c : Char}

theorem scan_after_gap (hdrop : text.drop (Gap.width text) = c :: rest) :
    scan c rest = (Lexeme.scan c rest).mapError .fault := by
  apply scan_eq
  rw [← hdrop]
  exact Gap.width_drop_width text

theorem scanned_of_ok {lexeme : Lexeme} (hdrop : text.drop (Gap.width text) = c :: rest)
    (h : scan c rest = .ok lexeme) : Lexeme.scan c rest = .ok lexeme := by
  rw [scan_after_gap hdrop] at h
  cases hscan : Lexeme.scan c rest with
  | error fault =>
    rw [hscan] at h
    cases h
  | ok scanned =>
    rw [hscan] at h
    cases h
    rfl

theorem faulty_of_error {failure : Failure} (hdrop : text.drop (Gap.width text) = c :: rest)
    (h : scan c rest = .error failure) :
    ∃ fault, failure = .fault fault ∧ Lexeme.scan c rest = .error fault := by
  rw [scan_after_gap hdrop] at h
  cases hscan : Lexeme.scan c rest with
  | error fault =>
    rw [hscan] at h
    cases h
    exact ⟨fault, rfl, rfl⟩
  | ok scanned =>
    rw [hscan] at h
    cases h

end

theorem readFrom_eq (cursor : Nat) (text : List Char) (stack : List Pending)
    (names : List String) :
    readFrom cursor text stack names = .ok (LispXref.readFrom cursor text stack names) := by
  fun_induction readFrom cursor text stack names with
  | case1 cursor text stack names start hdrop => rw [readFrom_of_end hdrop]
  | case2 cursor text stack names c rest hdrop misuse hscan =>
    obtain ⟨fault, hfailure, -⟩ := faulty_of_error hdrop hscan
    cases hfailure
  | case3 cursor text stack names start c rest hdrop fault hscan =>
    obtain ⟨fault', hfailure, hfault⟩ := faulty_of_error hdrop hscan
    cases hfailure
    rw [readFrom_of_fault hdrop hfault]
  | case4 cursor text stack names start c rest hdrop lexeme hscan stop refusal habsorb =>
    change Pending.absorb stack (lexeme.spanAt start) lexeme.token = _ at habsorb
    rw [readFrom_of_lexeme hdrop (scanned_of_ok hdrop hscan) rfl, habsorb]
  | case5 cursor text stack names start c rest hdrop lexeme hscan stop names' form habsorb =>
    change Pending.absorb stack (lexeme.spanAt start) lexeme.token = _ at habsorb
    rw [readFrom_of_lexeme hdrop (scanned_of_ok hdrop hscan) rfl, habsorb]
  | case6 cursor text stack names start c rest hdrop lexeme hscan stop names' stack' habsorb ih =>
    change Pending.absorb stack (lexeme.spanAt start) lexeme.token = _ at habsorb
    rw [readFrom_of_lexeme hdrop (scanned_of_ok hdrop hscan) rfl, habsorb]
    exact ih

theorem next_eq (reader : Reader) : next reader = .ok reader.next := by
  rw [next, readFrom_eq, Reader.next]
  simp only [bind, Except.bind]
  cases (LispXref.readFrom reader.offset (reader.text.drop reader.offset) [] []).reading <;> rfl

end Checked

/-- Wherever a reader stands, it fails by faults of the text only, though each of its primitives
refuses what lies outside of its domain. A character literal without a backslash is one character.
A decimal integer without its point is a numeral of base ten. A radix is a base of numerals, and
digits that are refused in it are a fault. An escape that is refused stays as it was written. What
marks are spelled with is in their table. Where a word is looked for there is one, except for a
backslash that ends the text. -/
theorem Reader.fails_by_fault_only :
    (∀ reader : Reader, Checked.next reader = .ok reader.next) ∧
    (∀ text w, CharacterLiteral.width text = .ok w → (text.take w).head? ≠ some '\\' →
      ∃ c, text.take w = [c]) ∧
    (∀ word, IsDecimalInteger word →
      ∃ value, Primitive.integer 10 (word.rdropWhile (· = '.')) = .ok value ∧
        Word.integer? word = some value) ∧
    (∀ text r, Sharp.radix text = .ok r → 2 ≤ r.base ∧ r.base ≤ 36 ∧
      ∀ misuse, Word.width (text.drop r.width) ≠ 0 →
        Primitive.integer r.base ((text.drop r.width).take (Word.width (text.drop r.width)))
          = .error misuse →
        Sharp.integer text = .error (.invalidInteger r.base)) ∧
    (∀ c rest misuse, Checked.attempt (Escape.written c rest) = .error misuse →
      (Escape.meaning c rest).codes = ('\\' :: Escape.written c rest).map CodePoint.ofChar) ∧
    (∀ c rest, c = '\'' ∨ c = '\x60' ∨ c = ',' →
      ∃ quotation, Primitive.quotation (Checked.markSpelling c rest) = .ok quotation) ∧
    (∀ (text rest : List Char) c, text.drop (Gap.width text) = c :: rest → c ∉ Lexeme.openers →
      (Word.width (c :: rest) = 0 ↔ c = '\\' ∧ rest = [])) := by
  refine ⟨Checked.next_eq, ?_, ?_, ?_, ?_, ?_, ?_⟩
  · intro text w hwidth hplain
    exact CharacterLiteral.take_width hwidth hplain
  · intro word hword
    exact Checked.integer_of_isDecimalInteger hword
  · intro text r hradix
    obtain ⟨hlow, hhigh⟩ := Sharp.radix_base_range hradix
    exact ⟨hlow, hhigh, fun misuse hdigits h => Checked.integer_of_misuse hradix hdigits h⟩
  · intro c rest misuse h
    exact Checked.codes_of_attempt_error h
  · intro c rest hc
    obtain ⟨quotation, hspelling, -⟩ := Checked.exists_markSpelling hc rest
    exact ⟨quotation, hspelling ▸ Checked.quotation_spelling quotation⟩
  · intro text rest c hdrop hc
    have hgap := Gap.width_drop_width text
    rw [hdrop] at hgap
    exact Word.width_eq_zero_iff hgap hc

end

open CharacterNames in
/-- An escape past the last code point is kept, `12.` is an integer, and the digits that are refused
in `#x1_0` are a fault of the text. -/
theorem Reader.fails_by_fault_only_refused :
    let reader := Reader.ofText "(\"\\x110000\" 12. ,@?a #x1_0)".toList
    Checked.next reader = .ok (.malformed ⟨.invalidInteger 16, 21⟩, ⟨reader.text, 20⟩) ∧
    Checked.attempt "x110000".toList = .error .noCodePoint ∧
    (Escape.meaning 'x' "110000".toList).codes = "\\x110000".toList.map CodePoint.ofChar ∧
    Primitive.integer 16 "1_0".toList = .error .notNumeral ∧
    Sharp.integer "x1_0)".toList = .error (.invalidInteger 16) ∧
    (∃ value, Primitive.integer 10 "12".toList = .ok value ∧
      Word.integer? "12.".toList = some value) ∧
    (∃ c, "a".toList = [c]) ∧
    (∃ quotation, Primitive.quotation [',', '@'] = .ok quotation) ∧
    Word.width ['\\'] = 0 := by
  intro reader
  obtain ⟨hnext, hcharacter, hinteger, hradix, hescape, hmark, hword⟩ := fails_by_fault_only
  have hread : reader.next = (.malformed ⟨.invalidInteger 16, 21⟩, ⟨reader.text, 20⟩) := by
    with_unfolding_all rfl
  have hkept : Checked.attempt "x110000".toList = .error .noCodePoint := by
    with_unfolding_all rfl
  have hdigits : Primitive.integer 16 "1_0".toList = .error .notNumeral := by
    with_unfolding_all rfl
  have htwelve : IsDecimalInteger "12.".toList := by decide
  refine ⟨hread ▸ hnext reader, hkept, hescape 'x' "110000".toList _ hkept, hdigits, ?_, ?_, ?_, ?_,
    ?_⟩
  · exact (hradix "x1_0)".toList ⟨16, 1⟩ rfl).2.2 _ (by decide) hdigits
  · exact hinteger "12.".toList htwelve
  · exact hcharacter "a)".toList 1 rfl (by decide)
  · exact hmark ',' "@?a".toList (.inr (.inr rfl))
  · exact (hword "; b\n\\".toList [] '\\' rfl (by decide)).mpr ⟨rfl, rfl⟩

end LispXref
