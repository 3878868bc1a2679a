import LispXref.Lexeme.Scan
import LispXref.Proofs.Lexeme.Radix
import LispXref.Proofs.Lexeme.Spelling
import Mathlib.Data.List.DropRight

/-! Scanning out of primitives that refuse what lies outside of their domains. Escapes and
integers with a radix answer for some refusals. Any other would end the scan, but none comes up, so
that scanning fails by faults of the text only. -/
namespace LispXref

/-- Why a primitive refuses what it is given. -/
inductive Misuse where
  | notOneCharacter
  | notNumeral
  | badBase
  | noCodePoint
  | unknownName
  | unknownMark
  | noWord
  deriving DecidableEq, Repr

/-- What a primitive gives, or why it gives nothing. -/
def Misuse.orRefuse {α : Type} (misuse : Misuse) : Option α → Except Misuse α
  | some value => .ok value
  | none => .error misuse

/-- What can end a scan: a fault of the text, or the misuse of a primitive. -/
inductive Failure where
  | fault (fault : Fault)
  | misuse (misuse : Misuse)
  deriving DecidableEq, Repr

namespace Primitive

/-- The number of a text that is one character. -/
def code : CodeText → Except Misuse Nat
  | [c] => .ok c.val
  | _ => .error .notOneCharacter

def codePoint (n : Nat) : Except Misuse CodePoint :=
  Misuse.noCodePoint.orRefuse (CodePoint.ofNat? n)

def named [CharacterNames] (name : List Char) : Except Misuse CodeText :=
  Misuse.unknownName.orRefuse (CharacterNames.codes? name)

/-- The value of an unsigned numeral of a few digits. -/
def natural (base : Nat) (digits : List Char) : Except Misuse Nat :=
  Misuse.notNumeral.orRefuse (Integer.pieceValue? base digits)

/-- The value of a signed numeral of any length. -/
def integer (base : Nat) (text : List Char) : Except Misuse Int :=
  if 2 ≤ base ∧ base ≤ 36 then (Integer.parse base text).mapError fun _ => .notNumeral
  else .error .badBase

def fraction (text : List Char) : Except Misuse Binary64 :=
  Misuse.notNumeral.orRefuse (Word.real? text)

/-- The marks by their spellings. -/
def marks : List (List Char × Quotation) :=
  [(['\''], .quote), (['\x60'], .backquote), ([','], .unquote), ([',', '@'], .splice),
    (['#', '\''], .function)]

def quotation (spelling : List Char) : Except Misuse Quotation :=
  Misuse.unknownMark.orRefuse (marks.lookup spelling)

end Primitive

instance (word : List Char) : Decidable (IsDecimalInteger word) :=
  decidable_of_iff _ Word.isSome_integer?_iff

instance (word : List Char) : Decidable (IsDecimalFraction word) :=
  decidable_of_iff _ Word.isSome_real?_iff

/-- The characters of an escape after its backslash, the first of which is `c`. -/
def Escape.written (c : Char) (rest : List Char) : List Char :=
  match c with
  | 'x' => c :: rest.takeWhile isHexDigit
  | 'u' => c :: (fixedHex? 4 rest).getD []
  | 'U' => c :: (fixedHex? 8 rest).getD []
  | 'N' =>
    match rest with
    | '\x7b' :: inner =>
      if '\x7d' ∈ inner then c :: '\x7b' :: (inner.takeWhile (· ≠ '\x7d') ++ ['\x7d']) else [c]
    | _ => [c]
  | _ => if isOctalDigit c then c :: (rest.take 2).takeWhile isOctalDigit else [c]

namespace Checked

variable [CharacterNames]

/-- The character with a number that is written in digits. -/
def numbered (base : Nat) (digits : List Char) : Except Misuse CodeText := do
  let value ← Primitive.natural base digits
  let code ← Primitive.codePoint value
  .ok [code]

/-- What an escape stands for, unless a primitive refuses it. -/
def attempt (written : List Char) : Except Misuse CodeText :=
  match written with
  | [] => .ok []
  | c :: more =>
    if more ≠ [] ∧ (c = 'x' ∨ c = 'u' ∨ c = 'U') then numbered 16 more
    else if more ≠ [] ∧ c = 'N' then Primitive.named (more.drop 1).dropLast
    else if isOctalDigit c then numbered 8 written
    else if more ≠ [] then .ok (written.map CodePoint.ofChar)
    else .ok (Escape.plain c).codes

/-- An escape for which there is no numeral, code point or name stays as it was written. -/
def escape (written : List Char) : Except Misuse CodeText :=
  match attempt written with
  | .ok codes => .ok codes
  | .error misuse =>
    if misuse ∈ [.notNumeral, .noCodePoint, .unknownName] then
      .ok (('\\' :: written).map CodePoint.ofChar)
    else .error misuse

def decode : List Char → Except Misuse CodeText
  | [] => .ok []
  | [c] => .ok [CodePoint.ofChar c]
  | c :: d :: rest =>
    if c = '\\' then do
      let written := Escape.written d rest
      let codes ← escape written
      let others ← decode (rest.drop (written.length - 1))
      .ok (codes ++ others)
    else do
      let others ← decode (d :: rest)
      .ok (CodePoint.ofChar c :: others)
termination_by text => text.length
decreasing_by
  · simp only [List.length_drop, List.length_cons]
    omega
  · simp only [List.length_cons]
    omega

def scanString (rest : List Char) : Except Failure Lexeme :=
  match stringWidth rest with
  | some w => do
    let codes ← (decode (rest.take (w - 1))).mapError .misuse
    .ok ⟨.atom (.string codes), w⟩
  | none => .error (.fault .unterminatedString)

def characterValue (body : List Char) : Except Misuse Number :=
  let spelled := Number.spelled (String.ofList body)
  if body.head? = some '\\' then
    if CharacterLiteral.startsWithModifier body then .ok spelled
    else do
      let codes ← decode body
      if codes.length = 1 then (Primitive.code codes).map fun n => .integer n else .ok spelled
  else (Primitive.code (body.map CodePoint.ofChar)).map fun n => .integer n

def scanCharacter (rest : List Char) : Except Failure Lexeme := do
  let w ← (CharacterLiteral.width rest).mapError .fault
  let number ← (characterValue (rest.take w)).mapError .misuse
  .ok ⟨.atom (.number number), w⟩

def wordAtom (word : List Char) : Except Misuse Atom :=
  if '\\' ∈ word then .ok (.symbol (String.ofList (Escape.unescape word)))
  else if IsDecimalInteger word then
    (Primitive.integer 10 (word.rdropWhile (· = '.'))).map fun value => .number (.integer value)
  else if IsDecimalFraction word then
    (Primitive.fraction word).map fun value => .number (.real value)
  else .ok (.symbol (String.ofList word))

/-- Only a backslash with nothing after it is no word. -/
def scanWord (text : List Char) : Except Failure Lexeme :=
  let w := Word.width text
  if w = 0 then
    .error (if text = ['\\'] then .fault .endAfterBackslash else .misuse .noWord)
  else
    let word := text.take w
    if word = ['.'] then .ok ⟨.dot, w - 1⟩
    else do
      let atom ← (wordAtom word).mapError .misuse
      .ok ⟨.atom atom, w - 1⟩

def mark (spelling : List Char) : Except Failure Lexeme := do
  let quotation ← (Primitive.quotation spelling).mapError .misuse
  .ok ⟨.mark quotation, spelling.length - 1⟩

/-- The base that the digits of a radix give. No base has three digits. -/
def shownBase (shown : List Char) : Except Misuse Nat :=
  if shown.length ≤ 2 then Primitive.natural 10 shown else .ok 0

def writtenRadix (text : List Char) : Except Failure Sharp.Radix :=
  let digits := text.takeWhile Char.isDigit
  match text, text.dropWhile Char.isDigit with
  | [], _ => .error (.fault .endAfterSharp)
  | c :: _, rest =>
    if digits ≠ [] ∧ (rest.head? = some 'r' ∨ rest.head? = some 'R') then do
      let significant := digits.dropWhile (· = '0')
      let shown := if significant = [] then ['0'] else significant
      let base ← (shownBase shown).mapError .misuse
      if 2 ≤ base ∧ base ≤ 36 then .ok ⟨base, digits.length + 1⟩
      else .error (.fault (.invalidRadix shown))
    else .error (.fault (.unknownSharp c))

def radix (text : List Char) : Except Failure Sharp.Radix :=
  match text.head?.bind Integer.markedBase? with
  | some base => .ok ⟨base, 1⟩
  | none => writtenRadix text

/-- Digits that are no numeral of the base are a fault of the text. -/
def integer (text : List Char) : Except Failure Lexeme := do
  let r ← radix text
  let rest := text.drop r.width
  let w := Word.width rest
  if w = 0 then .error (.fault .missingDigits)
  else match Primitive.integer r.base (rest.take w) with
    | .ok value => .ok ⟨.atom (.number (.integer value)), r.width + w⟩
    | .error .notNumeral => .error (.fault (.invalidInteger r.base))
    | .error misuse => .error (.misuse misuse)

def scanSharp (text : List Char) : Except Failure Lexeme :=
  match text with
  | '\'' :: _ => mark ['#', '\'']
  | '(' :: _ => .ok ⟨.opening (.vector .round), 1⟩
  | '[' :: _ => .ok ⟨.opening (.vector .square), 1⟩
  | 's' :: '(' :: _ => .ok ⟨.opening (.vector .round), 2⟩
  | '#' :: _ => .ok ⟨.atom (.symbol ""), 1⟩
  | ':' :: rest => .ok (Sharp.bareSymbol rest)
  | '_' :: rest => .ok (Sharp.bareSymbol rest)
  | _ => integer text

/-- The spelling of a mark that begins with `c`. -/
def markSpelling (c : Char) (rest : List Char) : List Char :=
  if c = ',' ∧ rest.head? = some '@' then [',', '@'] else [c]

def scan (c : Char) (rest : List Char) : Except Failure Lexeme :=
  match c with
  | '(' => .ok ⟨.opening .list, 0⟩
  | '[' => .ok ⟨.opening (.vector .square), 0⟩
  | ')' => .ok ⟨.closing .round, 0⟩
  | ']' => .ok ⟨.closing .square, 0⟩
  | '\'' | '\x60' | ',' => mark (markSpelling c rest)
  | '"' => scanString rest
  | '?' => scanCharacter rest
  | '#' => scanSharp rest
  | _ => scanWord (c :: rest)

end Checked

/-! ### Escapes -/

theorem Primitive.natural_of_isNumeral {base : Nat} {digits : List Char} (hbase : base ≠ 0)
    (h : IsNumeral base digits) : natural base digits = .ok (digitsValue base digits) := by
  rw [natural, Integer.pieceValue?_of_isNumeral hbase h, Misuse.orRefuse]

theorem isNumeral_of_all {base : Nat} {digits : List Char} (hne : digits ≠ [])
    (h : ∀ c ∈ digits, isDigitBelow base c = true) : IsNumeral base digits :=
  ⟨hne, fun c hc => isDigitBelow_iff.mp (h c hc)⟩

theorem isNumeral_takeWhile {base : Nat} {text : List Char}
    (h : text.takeWhile (isDigitBelow base) ≠ []) :
    IsNumeral base (text.takeWhile (isDigitBelow base)) :=
  isNumeral_of_all h fun c hc => List.all_eq_true.mp List.all_takeWhile c hc

namespace Checked

variable [CharacterNames]

/-- What is written for an escape is read as its meaning, kept for want of a code point or not, and
takes as many characters. -/
structure Means (written : List Char) (meaning : Escape.Meaning) : Prop where
  codes : escape written = .ok meaning.codes
  length : written.length = meaning.tail + 1

theorem means_numbered {base : Nat} {written letter digits : List Char} {tail : Nat}
    (hattempt : attempt written = numbered base digits) (hwritten : written = letter ++ digits)
    (hbase : base ≠ 0) (hdigits : IsNumeral base digits) (htail : written.length = tail + 1) :
    Means written (Escape.numeric base letter digits tail) := by
  have hescape : escape written = .ok (Escape.numeric base letter digits tail).codes := by
    rw [escape, hattempt, numbered, Primitive.natural_of_isNumeral hbase hdigits]
    simp only [bind, Except.bind, Primitive.codePoint, Misuse.orRefuse, Escape.numeric]
    cases CodePoint.ofNat? (digitsValue base digits) with
    | some code => rfl
    | none => simp [hwritten]
  refine ⟨hescape, htail.trans ?_⟩
  unfold Escape.numeric
  split <;> rfl

theorem means_plain {c : Char} (hoctal : isOctalDigit c = false) : Means [c] (Escape.plain c) := by
  refine ⟨by simp [escape, attempt, hoctal], ?_⟩
  unfold Escape.plain
  split <;> rfl

theorem means_hex {c : Char} {digits : List Char} (hc : c = 'x' ∨ c = 'u' ∨ c = 'U')
    (hdigits : IsNumeral 16 digits) :
    Means (c :: digits) (Escape.numeric 16 [c] digits digits.length) := by
  have hattempt : attempt (c :: digits) = numbered 16 digits := if_pos ⟨hdigits.ne_nil, hc⟩
  exact means_numbered hattempt rfl (by decide) hdigits rfl

/-- As many hexadecimal digits as the letter asks for, or the letter alone. -/
theorem means_fixedHex {c : Char} {count : Nat} (hc : c = 'u' ∨ c = 'U') (hcount : count ≠ 0)
    (rest : List Char) :
    Means (c :: (Escape.fixedHex? count rest).getD [])
      (match Escape.fixedHex? count rest with
        | some digits => Escape.numeric 16 [c] digits count
        | none => Escape.plain c) := by
  cases hfixed : Escape.fixedHex? count rest with
  | none =>
    refine means_plain ?_
    rcases hc with rfl | rfl <;> rfl
  | some digits =>
    simp only [Escape.fixedHex?, Option.ite_none_right_eq_some, Option.some.injEq] at hfixed
    obtain ⟨hlength, rfl⟩ := hfixed
    have hdigits : IsNumeral 16 ((rest.take count).takeWhile isHexDigit) :=
      isNumeral_takeWhile fun hnil => hcount (hlength.symm.trans (congrArg List.length hnil))
    have := means_hex (.inr hc) hdigits
    rwa [hlength] at this

theorem means_octal {c : Char} (hc : isOctalDigit c = true) (rest : List Char) :
    Means (c :: (rest.take 2).takeWhile isOctalDigit)
      (Escape.numeric 8 [] (c :: (rest.take 2).takeWhile isOctalDigit)
        ((rest.take 2).takeWhile isOctalDigit).length) := by
  have hother : ∀ letter, isOctalDigit letter = false → c ≠ letter := by
    rintro letter hletter rfl
    rw [hc] at hletter
    cases hletter
  refine means_numbered ?_ rfl (by decide) (isNumeral_of_all (by simp) ?_) rfl
  · simp [attempt, hc, hother 'x' rfl, hother 'u' rfl, hother 'U' rfl, hother 'N' rfl]
  · intro d hd
    rcases List.mem_cons.mp hd with rfl | hd
    · exact hc
    · exact List.all_eq_true.mp List.all_takeWhile d hd

/-- A name in braces stands for its characters, or stays if nothing has that name. -/
theorem means_named {name : List Char} (after : List Char) :
    Means ('N' :: '\x7b' :: (name ++ ['\x7d']))
      (match CharacterNames.codes? name with
        | some codes => ⟨codes, name.length + 2⟩
        | none => ⟨('\\' :: 'N' :: ('\x7b' :: (name ++ '\x7d' :: after)).take (name.length + 2)).map
            CodePoint.ofChar, name.length + 2⟩) := by
  have hattempt : attempt ('N' :: '\x7b' :: (name ++ ['\x7d'])) = Primitive.named name := by
    simp [attempt]
  cases hnamed : CharacterNames.codes? name with
  | some codes =>
    refine ⟨?_, by simp⟩
    rw [escape, hattempt, Primitive.named, hnamed, Misuse.orRefuse]
  | none =>
    refine ⟨?_, by simp⟩
    rw [escape, hattempt, Primitive.named, hnamed, Misuse.orRefuse]
    have htake : (name ++ '\x7d' :: after).take (name.length + 1) = name ++ ['\x7d'] := by
      rw [List.append_cons]
      exact List.take_left' (by simp)
    rw [List.take_succ_cons, htake]
    rfl

theorem means_written (c : Char) (rest : List Char) :
    Means (Escape.written c rest) (Escape.meaning c rest) := by
  unfold Escape.written
  split
  · rw [Escape.meaning]
    by_cases hdigits : rest.takeWhile isHexDigit = []
    · simp only [hdigits, ↓reduceIte]
      exact means_plain rfl
    · simp only [hdigits, ↓reduceIte]
      exact means_hex (.inl rfl) (isNumeral_takeWhile hdigits)
  · exact means_fixedHex (.inl rfl) (by decide) rest
  · exact means_fixedHex (.inr rfl) (by decide) rest
  · split
    · next inner =>
      rw [Escape.meaning]
      by_cases hbrace : '\x7d' ∈ inner
      · obtain ⟨name, after, rfl, hname⟩ := List.eq_append_cons_of_mem hbrace
        have htake : (name ++ '\x7d' :: after).takeWhile (· ≠ '\x7d') = name := by
          have hinside : ∀ c ∈ name, decide (c ≠ '\x7d') = true := fun c hc =>
            decide_eq_true fun h => hname (h ▸ hc)
          rw [List.takeWhile_append_of_pos hinside]
          simp
        simp only [hbrace, ↓reduceIte, htake]
        exact means_named after
      · simp only [hbrace, ↓reduceIte]
        exact means_plain rfl
    · next hopening =>
      rw [Escape.meaning]
      · exact means_plain rfl
      · exact hopening
  · next hx hu hU hN =>
    rw [Escape.meaning]
    · by_cases hoctal : isOctalDigit c = true
      · simp only [hoctal, ↓reduceIte]
        exact means_octal hoctal rest
      · simp only [hoctal]
        exact means_plain (Bool.eq_false_iff.mpr hoctal)
    · exact hx
    · exact hu
    · exact hU
    · exact hN

/-- An escape that a primitive refuses stays as it was written. -/
theorem codes_of_attempt_error {c : Char} {rest : List Char} {misuse : Misuse}
    (h : attempt (Escape.written c rest) = .error misuse) :
    (Escape.meaning c rest).codes = ('\\' :: Escape.written c rest).map CodePoint.ofChar := by
  have hcodes := (means_written c rest).codes
  rw [escape, h] at hcodes
  dsimp only at hcodes
  split at hcodes
  · exact (Except.ok.inj hcodes).symm
  · cases hcodes

theorem decode_eq (text : List Char) : decode text = .ok (Escape.decode text) := by
  fun_induction Escape.decode text with
  | case1 => simp [decode]
  | case2 c => simp [decode]
  | case3 d rest meaning ih =>
    have hmeans := means_written d rest
    rw [decode, if_pos rfl]
    simp only [hmeans.codes, hmeans.length, Nat.add_sub_cancel]
    rw [ih]
    rfl
  | case4 c d rest hc ih =>
    rw [decode, if_neg hc, ih]
    rfl

theorem scanString_eq (rest : List Char) :
    scanString rest = (LispXref.scanString rest).mapError .fault := by
  unfold scanString LispXref.scanString
  cases stringWidth rest with
  | none => rfl
  | some w =>
    simp only [decode_eq]
    rfl

end Checked

/-! ### Characters and words -/

/-- A literal that no backslash opens is one character. -/
theorem CharacterLiteral.take_width {text : List Char} {w : Nat} (h : width text = .ok w)
    (hplain : (text.take w).head? ≠ some '\\') : ∃ c, text.take w = [c] := by
  fun_induction width text with
  | case1 => cases h
  | case2 => cases h
  | case7 c rest =>
    cases h
    exact ⟨c, rfl⟩
  | _ =>
    obtain ⟨v, -, rfl⟩ := exists_of_map_eq_ok h
    exact absurd rfl hplain

/-- Characters with which something else than a word begins. -/
def Lexeme.openers : List Char := ['(', '[', ')', ']', '\'', '\x60', ',', '"', '?', '#']

/-- Where neither a gap nor another lexeme begins there is a word, except for a backslash that ends
the text. -/
theorem Word.width_eq_zero_iff {c : Char} {rest : List Char} (hgap : Gap.width (c :: rest) = 0)
    (hc : c ∉ Lexeme.openers) : width (c :: rest) = 0 ↔ c = '\\' ∧ rest = [] := by
  constructor
  · intro h
    by_cases hbackslash : c = '\\'
    · subst hbackslash
      cases rest with
      | nil => exact ⟨rfl, rfl⟩
      | cons d rest => simp [width] at h
    · have hsharp : c ≠ '#' := by
        rintro rfl
        exact hc (by decide)
      rw [Gap.width_cons fun h => absurd h hsharp] at hgap
      obtain ⟨hblank, hcomment⟩ : isBlank c = false ∧ c ≠ ';' := by
        split at hgap
        · omega
        · next hblank =>
          split at hgap
          · omega
          · next hcomment => exact ⟨Bool.eq_false_iff.mpr hblank, hcomment⟩
      have hdelimiter : c ∉ delimiters := by
        simp only [Lexeme.openers, delimiters, List.mem_cons, List.not_mem_nil, or_false, not_or]
          at hc ⊢
        tauto
      have hconstituent : isConstituent c = true := by simp [isConstituent, hblank, hdelimiter]
      rw [width_cons_of_isConstituent rest hconstituent] at h
      cases h
  · rintro ⟨rfl, rfl⟩
    rfl

namespace Checked

/-- A decimal integer without its point is a numeral. -/
theorem integer_of_isDecimalInteger {word : List Char} (h : IsDecimalInteger word) :
    ∃ value, Primitive.integer 10 (word.rdropWhile (· = '.')) = .ok value ∧
      Word.integer? word = some value := by
  cases h with
  | @intro sign digits point hsign hdigits hne hpoint =>
    have hnumeral : IsNumeral 10 digits := ⟨hne, fun c hc => isDigit_iff.mp (hdigits c hc)⟩
    have hstripped : (sign ++ (digits ++ point)).rdropWhile (· = '.') = sign ++ digits := by
      have hself : (sign ++ digits).rdropWhile (· = '.') = sign ++ digits := by
        rw [List.rdropWhile_eq_self_iff]
        intro hnil
        have hlast := hdigits _ (List.getLast_mem hne)
        rw [List.getLast_append_of_ne_nil hnil hne, decide_eq_true_eq]
        intro hpoint
        rw [hpoint] at hlast
        cases hlast
      rcases hpoint with rfl | rfl
      · rw [List.append_nil, hself]
      · rw [← List.append_assoc, List.rdropWhile_concat_pos _ _ _ (by simp), hself]
    refine ⟨_, ?_, Word.integer?_append hsign hdigits hne hpoint⟩
    rw [hstripped, Primitive.integer, if_pos (by decide)]
    rw [Integer.parse_signed (by decide) hsign hnumeral, Integer.applySign_digitsValue]
    rfl

theorem wordAtom_eq (word : List Char) : wordAtom word = .ok (Word.atom word) := by
  unfold wordAtom Word.atom
  by_cases hbackslash : '\\' ∈ word
  · rw [if_pos hbackslash, if_pos hbackslash]
  · rw [if_neg hbackslash, if_neg hbackslash]
    by_cases hinteger : IsDecimalInteger word
    · obtain ⟨value, hvalue, hsome⟩ := integer_of_isDecimalInteger hinteger
      rw [if_pos hinteger, hvalue, hsome]
      rfl
    · have hnone : Word.integer? word = none :=
        Option.not_isSome_iff_eq_none.mp (mt Word.isSome_integer?_iff.mp hinteger)
      rw [if_neg hinteger, hnone]
      by_cases hfraction : IsDecimalFraction word
      · obtain ⟨value, hvalue⟩ :=
          Option.isSome_iff_exists.mp (Word.isSome_real?_iff.mpr hfraction)
        rw [if_pos hfraction, Primitive.fraction, hvalue]
        rfl
      · have hnone : Word.real? word = none :=
          Option.not_isSome_iff_eq_none.mp (mt Word.isSome_real?_iff.mp hfraction)
        rw [if_neg hfraction, hnone]

theorem scanWord_eq {text : List Char} (h : Word.width text = 0 → text = ['\\']) :
    scanWord text = (LispXref.scanWord text).mapError .fault := by
  unfold scanWord LispXref.scanWord
  by_cases hw : Word.width text = 0
  · rw [if_pos hw, if_pos hw, if_pos (h hw)]
    rfl
  · simp only [hw, ↓reduceIte, wordAtom_eq]
    split
    · rfl
    · rfl

variable [CharacterNames]

theorem characterValue_eq {text : List Char} {w : Nat} (h : CharacterLiteral.width text = .ok w) :
    characterValue (text.take w) = .ok (CharacterLiteral.value (text.take w)) := by
  by_cases hbackslash : (text.take w).head? = some '\\'
  · obtain ⟨more, hbody⟩ := List.head?_eq_some_iff.mp hbackslash
    simp only [characterValue, CharacterLiteral.value, hbody, List.head?_cons, ↓reduceIte,
      decode_eq]
    split
    · rfl
    · cases Escape.decode ('\\' :: more) with
      | nil => rfl
      | cons first others =>
        cases others with
        | nil => rfl
        | cons second others => simp [bind, Except.bind]
  · obtain ⟨c, hbody⟩ := CharacterLiteral.take_width h hbackslash
    have hc : c ≠ '\\' := by
      rintro rfl
      exact hbackslash (congrArg List.head? hbody)
    simp only [characterValue, hbody, List.head?_cons, Option.some.injEq, hc, ↓reduceIte]
    unfold CharacterLiteral.value
    split
    · next heq => exact absurd (List.cons.inj heq).1 hc
    · next heq =>
      cases heq
      rfl
    · next hother => exact (hother c rfl).elim

theorem scanCharacter_eq (rest : List Char) :
    scanCharacter rest = (LispXref.scanCharacter rest).mapError .fault := by
  unfold scanCharacter LispXref.scanCharacter
  cases hwidth : CharacterLiteral.width rest with
  | error fault => rfl
  | ok w =>
    have hvalue := characterValue_eq hwidth
    simp only [Except.mapError, bind, Except.bind, hvalue]
    rfl

end Checked

/-! ### Marks and radices -/

/-- Every radix that is announced is a base of numerals. -/
theorem Sharp.radix_base_range {text : List Char} {r : Radix} (h : radix text = .ok r) :
    2 ≤ r.base ∧ r.base ≤ 36 := by
  unfold radix at h
  split at h
  · next base hbase =>
    cases h
    obtain ⟨c, -, hmarked⟩ := Option.bind_eq_some_iff.mp hbase
    exact (Announces.letter (Integer.markedBase?_eq_some_iff.mp hmarked)).base_range
  · unfold writtenRadix at h
    split at h
    · cases h
    · extract_lets digits significant shown base at h
      split at h
      · split at h
        · next hrange =>
          cases h
          exact hrange
        · cases h
      · cases h

namespace Checked

/-- The digits of a radix, without the zeros before them, are a numeral. -/
theorem shownBase_eq {digits : List Char} (hdigits : AllDigits digits) :
    let significant := digits.dropWhile (· = '0')
    let shown := if significant = [] then ['0'] else significant
    shownBase shown = .ok (if shown.length ≤ 2 then digitsValue 10 shown else 0) := by
  intro significant shown
  have hnumeral : IsNumeral 10 shown := by
    by_cases hnil : significant = []
    · simp only [shown, if_pos hnil]
      exact isNumeral_of_all (List.cons_ne_nil _ _) (List.forall_mem_singleton.mpr rfl)
    · simp only [shown, if_neg hnil]
      refine ⟨hnil, fun c hc => isDigit_iff.mp (hdigits c ?_)⟩
      exact (List.dropWhile_sublist _).subset hc
  rw [shownBase, Primitive.natural_of_isNumeral (by decide) hnumeral]
  split <;> rfl

theorem writtenRadix_eq (text : List Char) :
    writtenRadix text = (Sharp.writtenRadix text).mapError .fault := by
  have hbase := shownBase_eq (allDigits_takeWhile text)
  unfold writtenRadix Sharp.writtenRadix
  cases text with
  | nil => rfl
  | cons c rest =>
    dsimp only at hbase ⊢
    rw [hbase]
    split
    · rw [apply_ite (Except.mapError Failure.fault)]
      rfl
    · rfl

theorem radix_eq (text : List Char) : radix text = (Sharp.radix text).mapError .fault := by
  unfold radix Sharp.radix
  cases text.head?.bind Integer.markedBase? with
  | some base => rfl
  | none => exact writtenRadix_eq text

theorem integer_eq (text : List Char) : integer text = (Sharp.integer text).mapError .fault := by
  unfold integer Sharp.integer
  rw [radix_eq]
  cases hradix : Sharp.radix text with
  | error fault => rfl
  | ok r =>
    have hrange := Sharp.radix_base_range hradix
    simp only [Except.mapError, bind, Except.bind]
    split
    · rfl
    · simp only [Primitive.integer, if_pos hrange]
      cases Integer.parse r.base _ with
      | error fault => rfl
      | ok value => rfl

/-- Digits that are refused in the base of their radix are a fault of the text. -/
theorem integer_of_misuse {text : List Char} {r : Sharp.Radix} {misuse : Misuse}
    (hradix : Sharp.radix text = .ok r) (hdigits : Word.width (text.drop r.width) ≠ 0)
    (h : Primitive.integer r.base ((text.drop r.width).take (Word.width (text.drop r.width)))
      = .error misuse) :
    Sharp.integer text = .error (.invalidInteger r.base) := by
  rw [Primitive.integer, if_pos (Sharp.radix_base_range hradix)] at h
  simp only [Sharp.integer, hradix, bind, Except.bind, hdigits, ↓reduceIte]
  cases hparse : Integer.parse r.base _ with
  | error fault => rfl
  | ok value =>
    rw [hparse] at h
    cases h

theorem quotation_spelling (quotation : Quotation) :
    Primitive.quotation quotation.spelling = .ok quotation := by
  cases quotation <;> rfl

theorem mark_spelling (quotation : Quotation) :
    mark quotation.spelling = .ok ⟨.mark quotation, quotation.spelling.length - 1⟩ := by
  rw [mark, quotation_spelling]
  rfl

theorem scanSharp_eq (text : List Char) : scanSharp text = (Sharp.scan text).mapError .fault := by
  unfold scanSharp
  split
  · exact mark_spelling .function
  · rfl
  · rfl
  · rfl
  · rfl
  · rfl
  · rfl
  · rw [Sharp.scan]
    · exact integer_eq text
    all_goals assumption

variable [CharacterNames]

/-- What a mark is spelled with is always in the table. -/
theorem exists_markSpelling {c : Char} (hc : c = '\'' ∨ c = '\x60' ∨ c = ',') (rest : List Char) :
    ∃ quotation : Quotation, markSpelling c rest = quotation.spelling ∧
      Lexeme.scan c rest = .ok ⟨.mark quotation, quotation.spelling.length - 1⟩ := by
  rcases hc with rfl | rfl | rfl
  · exact ⟨.quote, rfl, rfl⟩
  · exact ⟨.backquote, rfl, rfl⟩
  · by_cases hsplice : rest.head? = some '@'
    · exact ⟨.splice, by simp [markSpelling, hsplice, Quotation.spelling],
        by simp [Lexeme.scan, hsplice, Quotation.spelling]⟩
    · exact ⟨.unquote, by simp [markSpelling, hsplice, Quotation.spelling],
        by simp [Lexeme.scan, hsplice, Quotation.spelling]⟩

theorem mark_eq {c : Char} (hc : c = '\'' ∨ c = '\x60' ∨ c = ',') (rest : List Char) :
    mark (markSpelling c rest) = (Lexeme.scan c rest).mapError .fault := by
  obtain ⟨quotation, hspelling, hscan⟩ := exists_markSpelling hc rest
  rw [hspelling, mark_spelling, hscan]
  rfl

/-- Scanning one lexeme fails by faults of the text only. -/
theorem scan_eq {c : Char} {rest : List Char} (hgap : Gap.width (c :: rest) = 0) :
    scan c rest = (Lexeme.scan c rest).mapError .fault := by
  unfold scan
  split
  · rfl
  · rfl
  · rfl
  · rfl
  · exact mark_eq (.inl rfl) rest
  · exact mark_eq (.inr (.inl rfl)) rest
  · exact mark_eq (.inr (.inr rfl)) rest
  · exact scanString_eq rest
  · exact scanCharacter_eq rest
  · exact scanSharp_eq rest
  · have hc : c ∉ Lexeme.openers := by
      simp only [Lexeme.openers, List.mem_cons, List.not_mem_nil, or_false, not_or]
      and_intros <;> assumption
    rw [Lexeme.scan]
    · refine scanWord_eq fun hw => ?_
      obtain ⟨rfl, rfl⟩ := (Word.width_eq_zero_iff hgap hc).mp hw
      rfl
    all_goals assumption

end Checked

end LispXref
