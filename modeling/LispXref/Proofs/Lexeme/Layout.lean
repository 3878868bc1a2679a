import LispXref.Lexeme.Scan
import LispXref.Proofs.Lexeme.Numeral
import LispXref.Proofs.Lexeme.Spelling

/-! Tokens and separators as they are laid out in a text. A token that is followed by a
separator, or by nothing, is scanned back as that token and no further. -/
namespace LispXref

/-- A blank character or a whole line: a comment, or a line for an interpreter. -/
inductive GapPiece where
  | blank (c : Char) (isBlank : isBlank c = true)
  | comment (body : List Char) (oneLine : '\n' ∉ body)
  | interpreter (body : List Char) (oneLine : '\n' ∉ body)

def GapPiece.text : GapPiece → List Char
  | .blank c _ => [c]
  | .comment body _ => ';' :: (body ++ ['\n'])
  | .interpreter body _ => '#' :: '!' :: (body ++ ['\n'])

def gapText (pieces : List GapPiece) : List Char := pieces.flatMap GapPiece.text

/-- A blank character and whatever else may stand between two tokens after it. -/
structure Separator where
  first : Char
  isBlank_first : isBlank first = true
  more : List GapPiece

def Separator.pieces (separator : Separator) : List GapPiece :=
  .blank separator.first separator.isBlank_first :: separator.more

def Separator.text (separator : Separator) : List Char := gapText separator.pieces

namespace Gap

theorem widthInComment_body_append {body : List Char} (rest : List Char) (h : '\n' ∉ body) :
    widthInComment (body ++ rest) = body.length + widthInComment rest := by
  induction body with
  | nil => simp
  | cons c body ih =>
    have hc : c ≠ '\n' := fun hc => h (hc ▸ List.mem_cons_self)
    rw [List.cons_append, widthInComment, if_neg hc,
      ih fun hmem => h (List.mem_cons_of_mem c hmem), List.length_cons]
    omega

theorem widthInComment_append {body : List Char} (rest : List Char) (h : '\n' ∉ body) :
    widthInComment (body ++ '\n' :: rest) = body.length + 1 + width rest := by
  rw [widthInComment_body_append _ h, widthInComment, if_pos rfl]
  omega

theorem width_cons {c : Char} {rest : List Char} (hline : c = '#' → rest.head? ≠ some '!') :
    width (c :: rest) =
      if isBlank c then width rest + 1 else if c = ';' then widthInComment rest + 1 else 0 := by
  rw [width]
  rintro more hc rfl
  exact hline hc rfl

theorem width_piece_append (piece : GapPiece) (rest : List Char) :
    width (piece.text ++ rest) = piece.text.length + width rest := by
  cases piece with
  | blank c hblank =>
    have hsharp : c ≠ '#' := by rintro rfl; revert hblank; decide
    show width (c :: rest) = 1 + width rest
    rw [width_cons fun hc => absurd hc hsharp, if_pos hblank, Nat.add_comm]
  | comment body hline =>
    have hblank : ¬ isBlank ';' = true := by decide
    simp only [GapPiece.text, List.cons_append, List.append_assoc, List.nil_append]
    rw [width_cons (by simp), if_neg hblank, if_pos rfl, widthInComment_append rest hline]
    simp only [List.length_cons, List.length_append, List.length_nil]
    omega
  | interpreter body hline =>
    simp only [GapPiece.text, List.cons_append, List.append_assoc, List.nil_append, width,
      widthInComment_append rest hline, List.length_cons, List.length_append, List.length_nil]
    omega

theorem width_gapText_append (pieces : List GapPiece) (rest : List Char) :
    width (gapText pieces ++ rest) = (gapText pieces).length + width rest := by
  induction pieces with
  | nil => simp [gapText]
  | cons piece pieces ih =>
    have hcons : gapText (piece :: pieces) = piece.text ++ gapText pieces := rfl
    rw [hcons, List.append_assoc, width_piece_append, ih, List.length_append, Nat.add_assoc]

theorem width_eq_zero {c : Char} {rest : List Char} (hblank : isBlank c = false)
    (hcomment : c ≠ ';') (hline : c = '#' → rest.head? ≠ some '!') :
    width (c :: rest) = 0 := by
  simp [width_cons hline, hblank, hcomment]

end Gap

/-- The text ends here or goes on with a blank character. -/
def Boundary (rest : List Char) : Prop := ∀ c ∈ rest.head?, isBlank c = true

theorem boundary_nil : Boundary [] := by
  intro c hc
  simp at hc

theorem Separator.boundary (separator : Separator) (rest : List Char) :
    Boundary (separator.text ++ rest) := by
  intro c hc
  obtain rfl : separator.first = c := by
    simpa [Separator.text, Separator.pieces, gapText, GapPiece.text] using hc
  exact separator.isBlank_first

theorem Separator.boundary_append (separator : Separator) (chars rest : List Char) :
    Boundary ((separator.text ++ chars) ++ rest) := by
  rw [List.append_assoc]
  exact separator.boundary _

namespace Word

theorem ne_of_isConstituent {c d : Char} (hc : isConstituent c = true)
    (hd : isConstituent d = false) : c ≠ d := by
  rintro rfl
  rw [hc] at hd
  cases hd

theorem width_cons_of_isConstituent {c : Char} (rest : List Char) (hc : isConstituent c = true) :
    width (c :: rest) = width rest + 1 := by
  rw [width, if_pos hc]
  intro _ _ hbackslash
  exact absurd hbackslash (ne_of_isConstituent hc (by decide))

theorem width_append {word : List Char} (rest : List Char)
    (h : ∀ c ∈ word, isConstituent c = true) : width (word ++ rest) = word.length + width rest := by
  induction word with
  | nil => simp
  | cons c word ih =>
    rw [List.cons_append, width_cons_of_isConstituent _ (h c List.mem_cons_self),
      ih fun d hd => h d (List.mem_cons_of_mem c hd), List.length_cons]
    omega

theorem width_of_boundary {rest : List Char} (h : Boundary rest) : width rest = 0 := by
  cases rest with
  | nil => rfl
  | cons c rest =>
    have hblank : isBlank c = true := h c rfl
    have hbackslash : c ≠ '\\' := by rintro rfl; revert hblank; decide
    rw [width]
    · simp [isConstituent, hblank]
    · intro _ _ hc
      exact absurd hc hbackslash

/-- A name with a backslash before every character. -/
def escaped (name : List Char) : List Char := name.flatMap fun c => ['\\', c]

theorem width_escaped_append (name rest : List Char) :
    width (escaped name ++ rest) = (escaped name).length + width rest := by
  induction name with
  | nil => simp [escaped]
  | cons c name ih =>
    show width (escaped name ++ rest) + 2 = (escaped name).length + 1 + 1 + width rest
    omega

theorem unescape_escaped (name : List Char) : Escape.unescape (escaped name) = name := by
  induction name with
  | nil => rfl
  | cons c name ih => exact congrArg (c :: ·) ih

end Word

/-- A word is scanned to its end if it reaches as far as it is said to. -/
theorem scanWord_append {c : Char} {more rest : List Char}
    (hwidth : Word.width (c :: (more ++ rest)) = more.length + 1) :
    scanWord (c :: (more ++ rest)) = .ok
      ⟨if c :: more = ['.'] then .dot else .atom (Word.atom (c :: more)), more.length⟩ := by
  have htake : (c :: (more ++ rest)).take (more.length + 1) = c :: more := by simp
  unfold scanWord
  simp only [hwidth, htake, Nat.add_eq_zero_iff, Nat.one_ne_zero, and_false, ↓reduceIte,
    Nat.add_sub_cancel]

/-- A word of constituent characters that does not open a character literal. -/
structure IsWord (word : List Char) : Prop where
  ne_nil : word ≠ []
  constituents : ∀ c ∈ word, Word.isConstituent c = true
  head_ne : word.head? ≠ some '?'

theorem IsWord.backslash_not_mem {word : List Char} (h : IsWord word) : '\\' ∉ word := by
  intro hmem
  exact Word.ne_of_isConstituent (h.constituents _ hmem) (by decide) rfl

/-- A name that may be written as it is: the word is no dot and has the shape of no
number. -/
structure IsPlainName (name : List Char) : Prop extends IsWord name where
  ne_dot : name ≠ ['.']
  not_integer : ¬ IsDecimalInteger name
  not_fraction : ¬ IsDecimalFraction name

instance (name : List Char) : Decidable (IsPlainName name) :=
  decidable_of_iff
    ((name ≠ [] ∧ name.all Word.isConstituent = true ∧ name.head? ≠ some '?') ∧
      name ≠ ['.'] ∧ ¬ IsDecimalInteger name ∧ ¬ IsDecimalFraction name)
    ⟨fun h => ⟨⟨h.1.1, List.all_eq_true.mp h.1.2.1, h.1.2.2⟩, h.2.1, h.2.2.1, h.2.2.2⟩,
      fun h => ⟨⟨h.ne_nil, List.all_eq_true.mpr h.constituents, h.head_ne⟩,
        h.ne_dot, h.not_integer, h.not_fraction⟩⟩

theorem Word.atom_of_isPlainName {name : List Char} (h : IsPlainName name) :
    Word.atom name = .symbol (String.ofList name) := by
  have hinteger : Word.integer? name = none :=
    Option.not_isSome_iff_eq_none.mp fun hsome =>
      h.not_integer (Word.isSome_integer?_iff.mp hsome)
  have hreal : Word.real? name = none :=
    Option.not_isSome_iff_eq_none.mp fun hsome =>
      h.not_fraction (Word.isSome_real?_iff.mp hsome)
  simp only [Word.atom, h.backslash_not_mem, ↓reduceIte, hinteger, hreal]

/-- What was checked code by code holds of the characters with these codes. -/
theorem char_of_toNat_le {P : Char → Prop} {bound : Nat} (h : ∀ n ≤ bound, P (Char.ofNat n))
    {c : Char} (hc : c.toNat ≤ bound) : P c := by
  have := h c.toNat hc
  rwa [Char.ofNat_toNat] at this

theorem toNat_le_of_isDigit {c : Char} (h : c.isDigit = true) : c.toNat ≤ 57 := by
  have hrange : 48 ≤ c.toNat ∧ c.toNat ≤ 57 := by
    simpa [Char.isDigit, UInt32.le_iff_toNat_le] using h
  exact hrange.2

theorem Word.isConstituent_of_isDigit {c : Char} (h : c.isDigit = true) :
    Word.isConstituent c = true :=
  char_of_toNat_le (P := fun c => c.isDigit = true → Word.isConstituent c = true) (by decide)
    (toNat_le_of_isDigit h) h

theorem Word.isWord_decimal (value : Int) : IsWord (Integer.decimal value) := by
  have hdigits {n : Nat} {c : Char} (hc : c ∈ Nat.toDigits 10 n) :
      Word.isConstituent c = true ∧ c ≠ '?' := by
    have hdigit := Nat.isDigit_of_mem_toDigits (by decide) (by decide) hc
    refine ⟨isConstituent_of_isDigit hdigit, ?_⟩
    rintro rfl
    revert hdigit
    decide
  cases value with
  | ofNat n =>
    refine ⟨Nat.toDigits_ne_nil, fun c hc => (hdigits hc).1, fun hhead => ?_⟩
    exact (hdigits (List.mem_of_head? hhead)).2 rfl
  | negSucc n =>
    refine ⟨List.cons_ne_nil _ _, fun c hc => ?_, by simp [Integer.decimal]⟩
    rcases List.mem_cons.mp hc with rfl | hc
    · decide
    · exact (hdigits hc).1

theorem Word.atom_decimal (value : Int) :
    Word.atom (Integer.decimal value) = .number (.integer value) := by
  simp only [Word.atom, (Word.isWord_decimal value).backslash_not_mem, ↓reduceIte,
    Word.integer?_decimal]

/-- A character as it stands inside a string. -/
def quotedChar (c : Char) : List Char := if c = '"' ∨ c = '\\' then ['\\', c] else [c]

def quotedBody (chars : List Char) : List Char := chars.flatMap quotedChar

theorem stringWidth_quotedChar_append (c : Char) (rest : List Char) :
    stringWidth (quotedChar c ++ rest) = (stringWidth rest).map (· + (quotedChar c).length) := by
  unfold quotedChar
  split
  · rfl
  · next hc =>
    simp only [not_or] at hc
    show stringWidth (c :: rest) = _
    rw [stringWidth, if_neg hc.1]
    · rfl
    · intro hb _
      exact hc.2 hb
    · intro _ _ hb _
      exact hc.2 hb

theorem stringWidth_quotedBody (chars rest : List Char) :
    stringWidth (quotedBody chars ++ '"' :: rest) = some ((quotedBody chars).length + 1) := by
  induction chars with
  | nil => rfl
  | cons c chars ih =>
    have hcons : quotedBody (c :: chars) = quotedChar c ++ quotedBody chars := rfl
    rw [hcons, List.append_assoc, stringWidth_quotedChar_append, ih, List.length_append]
    simp only [Option.map_some, Option.some.injEq]
    omega

variable [CharacterNames]

/-- Wherever these characters stand before a boundary, the token is scanned and takes
exactly them. -/
structure Token.WrittenAs (token : Token) (chars : List Char) : Prop where
  noGap : ∀ rest, Gap.width (chars ++ rest) = 0
  scanned : ∃ c more, chars = c :: more ∧
    ∀ rest, Boundary rest → Lexeme.scan c (more ++ rest) = .ok ⟨token, more.length⟩

namespace Token

theorem writtenAs_listOpening : WrittenAs (.opening .list) ['('] :=
  ⟨fun _ => Gap.width_eq_zero (by decide) (by decide) (by simp), _, _, rfl, fun _ _ => rfl⟩

theorem writtenAs_vectorOpening (opening : VectorOpening) :
    WrittenAs (.opening (.vector opening.bracket)) opening.spelling := by
  refine ⟨fun rest => ?_, ?_⟩
  · cases opening <;> exact Gap.width_eq_zero (by decide) (by decide) (by simp)
  · cases opening <;> exact ⟨_, _, rfl, fun _ _ => rfl⟩

theorem writtenAs_closing (bracket : Bracket) :
    WrittenAs (.closing bracket) [bracket.closing] := by
  refine ⟨fun rest => ?_, ?_⟩
  · cases bracket <;> exact Gap.width_eq_zero (by decide) (by decide) (by simp [Bracket.closing])
  · cases bracket <;> exact ⟨_, _, rfl, fun _ _ => rfl⟩

theorem writtenAs_mark (quotation : Quotation) :
    WrittenAs (.mark quotation) quotation.spelling := by
  refine ⟨fun rest => ?_, ?_⟩
  · cases quotation <;> exact Gap.width_eq_zero (by decide) (by decide) (by simp)
  · cases quotation with
    | unquote =>
      refine ⟨',', [], rfl, fun rest hrest => ?_⟩
      have hat : rest.head? ≠ some '@' := by
        intro hhead
        have := hrest '@' hhead
        revert this
        decide
      simp [Lexeme.scan, hat]
    | quote => exact ⟨_, _, rfl, fun _ _ => rfl⟩
    | backquote => exact ⟨_, _, rfl, fun _ _ => rfl⟩
    | splice => exact ⟨_, _, rfl, fun _ _ => rfl⟩
    | function => exact ⟨_, _, rfl, fun _ _ => rfl⟩

end Token

theorem Lexeme.scan_eq_scanWord {c : Char} (rest : List Char)
    (h : Word.isConstituent c = true ∧ c ≠ '?' ∨ c = '\\') :
    Lexeme.scan c rest = scanWord (c :: rest) := by
  rcases h with ⟨hc, hquestion⟩ | rfl
  · unfold Lexeme.scan
    split
    all_goals first | rfl | exact absurd rfl hquestion | exact absurd hc (by decide)
  · rfl

/-- A word is scanned to its end wherever nothing follows that belongs to a word. -/
theorem IsWord.scan_append {c : Char} {more rest : List Char} (h : IsWord (c :: more))
    (hrest : Word.width rest = 0) :
    Lexeme.scan c (more ++ rest) = .ok
      ⟨if c :: more = ['.'] then .dot else .atom (Word.atom (c :: more)), more.length⟩ := by
  have hc : Word.isConstituent c = true := h.constituents c List.mem_cons_self
  have hquestion : c ≠ '?' := fun hq => h.head_ne (congrArg some hq)
  rw [Lexeme.scan_eq_scanWord _ (.inl ⟨hc, hquestion⟩)]
  apply scanWord_append
  rw [← List.cons_append, Word.width_append rest h.constituents, hrest, List.length_cons,
    Nat.add_zero]

theorem IsWord.writtenAs {word : List Char} (h : IsWord word) :
    Token.WrittenAs (if word = ['.'] then .dot else .atom (Word.atom word)) word := by
  obtain ⟨c, more, rfl⟩ := List.exists_cons_of_ne_nil h.ne_nil
  have hc : Word.isConstituent c = true := h.constituents c List.mem_cons_self
  refine ⟨fun rest => ?_, c, more, rfl, fun rest hrest =>
    h.scan_append (Word.width_of_boundary hrest)⟩
  have hblank : isBlank c = false := by
    simp only [Word.isConstituent, Bool.and_eq_true, Bool.not_eq_true'] at hc
    exact hc.1
  exact Gap.width_eq_zero hblank (Word.ne_of_isConstituent hc (by decide))
    fun hsharp => absurd hsharp (Word.ne_of_isConstituent hc (by decide))

theorem Token.writtenAs_dot : WrittenAs .dot ['.'] := by
  have hpoint : Word.isConstituent '.' = true := by decide
  have hword : IsWord ['.'] := ⟨List.cons_ne_nil _ _, by simpa using hpoint, by decide⟩
  exact hword.writtenAs

theorem Escape.decode_quotedChar_append (c : Char) (rest : List Char) :
    decode (quotedChar c ++ rest) = CodePoint.ofChar c :: decode rest := by
  unfold quotedChar
  split
  · next hc =>
    have hmeaning : meaning c rest = ⟨[CodePoint.ofChar c], 0⟩ := by
      rcases hc with rfl | rfl <;> rfl
    show decode ('\\' :: c :: rest) = _
    rw [decode, if_pos rfl, hmeaning]
    rfl
  · next hc =>
    cases rest with
    | nil => simp [decode]
    | cons d rest =>
      show decode (c :: d :: rest) = _
      rw [decode, if_neg fun hb => hc (.inr hb)]

theorem Escape.decode_quotedBody (chars : List Char) :
    decode (quotedBody chars) = chars.map CodePoint.ofChar := by
  induction chars with
  | nil => simp [quotedBody, decode]
  | cons c chars ih =>
    have hcons : quotedBody (c :: chars) = quotedChar c ++ quotedBody chars := rfl
    rw [hcons, decode_quotedChar_append, ih, List.map_cons]

/-- An atom together with the way in which it is written. -/
inductive Leaf where
  | plain (name : List Char) (isPlainName : IsPlainName name)
  | escaped (name : List Char) (ne_nil : name ≠ [])
  | empty
  | integer (value : Int)
  | string (chars : List Char)
  | character (c : Char) (ne_backslash : c ≠ '\\')

namespace Leaf

def spelling : Leaf → List Char
  | .plain name _ => name
  | .escaped name _ => Word.escaped name
  | .empty => ['#', '#']
  | .integer value => Integer.decimal value
  | .string chars => '"' :: (quotedBody chars ++ ['"'])
  | .character c _ => ['?', c]

def atom : Leaf → Atom
  | .plain name _ => .symbol (String.ofList name)
  | .escaped name _ => .symbol (String.ofList name)
  | .empty => .symbol ""
  | .integer value => .number (.integer value)
  | .string chars => .string (chars.map CodePoint.ofChar)
  | .character c _ => .number (.integer c.toNat)

theorem writtenAs_escaped {name : List Char} (h : name ≠ []) :
    Token.WrittenAs (.atom (.symbol (String.ofList name))) (Word.escaped name) := by
  obtain ⟨c, rest, rfl⟩ := List.exists_cons_of_ne_nil h
  have hatom : Word.atom (Word.escaped (c :: rest)) = .symbol (String.ofList (c :: rest)) := by
    have hmem : '\\' ∈ Word.escaped (c :: rest) := List.mem_cons_self
    rw [Word.atom, if_pos hmem, Word.unescape_escaped]
  refine ⟨fun _ => Gap.width_eq_zero (by decide) (by decide) (by simp), '\\',
    c :: Word.escaped rest, rfl, fun after hafter => ?_⟩
  have hwidth : Word.width ('\\' :: (c :: Word.escaped rest ++ after))
      = (c :: Word.escaped rest).length + 1 := by
    have := Word.width_escaped_append (c :: rest) after
    rwa [Word.width_of_boundary hafter] at this
  rw [Lexeme.scan_eq_scanWord _ (.inr rfl), scanWord_append hwidth, if_neg (by simp), ← hatom]
  rfl

theorem writtenAs_string (chars : List Char) :
    Token.WrittenAs (.atom (.string (chars.map CodePoint.ofChar)))
      ('"' :: (quotedBody chars ++ ['"'])) := by
  refine ⟨fun _ => Gap.width_eq_zero (by decide) (by decide) (by simp), '"', _, rfl,
    fun after _ => ?_⟩
  have htext : quotedBody chars ++ ['"'] ++ after = quotedBody chars ++ '"' :: after := by simp
  show scanString (quotedBody chars ++ ['"'] ++ after) = _
  rw [htext, scanString, stringWidth_quotedBody]
  simp [Escape.decode_quotedBody]

theorem writtenAs_character {c : Char} (h : c ≠ '\\') :
    Token.WrittenAs (.atom (.number (.integer c.toNat))) ['?', c] := by
  refine ⟨fun _ => Gap.width_eq_zero (by decide) (by decide) (by simp), '?', [c], rfl,
    fun after _ => ?_⟩
  have hwidth : CharacterLiteral.width (c :: after) = .ok 1 := by
    rw [CharacterLiteral.width]
    all_goals simp [h]
  have hvalue : CharacterLiteral.value [c] = .integer c.toNat := by
    unfold CharacterLiteral.value
    split
    · next hb => exact absurd (List.cons.inj hb).1 h
    · next hc => cases hc; rfl
    · next hc => exact absurd rfl (hc c)
  show scanCharacter (c :: after) = _
  simp [scanCharacter, hwidth, hvalue, Except.map]

/-- Every atom is scanned back from the way in which it is written. -/
theorem writtenAs (leaf : Leaf) : Token.WrittenAs (.atom leaf.atom) leaf.spelling := by
  cases leaf with
  | plain name h =>
    have := h.writtenAs
    rwa [if_neg h.ne_dot, Word.atom_of_isPlainName h] at this
  | escaped name h => exact writtenAs_escaped h
  | empty =>
    exact ⟨fun _ => Gap.width_eq_zero (by decide) (by decide) (by simp), _, _, rfl, fun _ _ => rfl⟩
  | integer value =>
    have hdot : Integer.decimal value ≠ ['.'] := by
      intro hdot
      have hnone : Word.integer? ['.'] = none := by decide
      rw [← hdot, Word.integer?_decimal] at hnone
      cases hnone
    have := (Word.isWord_decimal value).writtenAs
    rwa [if_neg hdot, Word.atom_decimal] at this
  | string chars => exact writtenAs_string chars
  | character c h => exact writtenAs_character h

end Leaf

end LispXref
