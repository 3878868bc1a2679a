import LispXref.Proofs.Lexeme.Radix
import LispXref.Proofs.Reader.Completeness
import LispXref.Proofs.Reader.Reread

/-! Integers in a text: which literals are read, which are refused, and what they are worth. -/
namespace LispXref

/-- The ways to write an integer, each with the number that its digits spell by their places. -/
inductive IntegerLiteral : List Char → Int → Prop where
  | decimal {sign digits point : List Char} :
      IsSign sign → IsNumeral 10 digits → point = [] ∨ point = ['.'] →
      IntegerLiteral (sign ++ (digits ++ point)) (signedValue 10 sign digits)
  | radix {announcement sign digits : List Char} {base : Nat} :
      Announces announcement base → IsSign sign → IsNumeral base digits →
      IntegerLiteral ('#' :: (announcement ++ (sign ++ digits))) (signedValue base sign digits)

theorem Word.isConstituent_of_isSome_radixDigit? {c : Char} (h : (radixDigit? c).isSome) :
    Word.isConstituent c = true := by
  have hbound : c.toNat ≤ 122 := by
    unfold radixDigit? at h
    split at h
    · next hc => exact Nat.le_trans hc.2 (by decide)
    · split at h
      · next hc => exact hc.2
      · split at h
        · next hc => exact Nat.le_trans hc.2 (by decide)
        · cases h
  exact char_of_toNat_le (P := fun c => (radixDigit? c).isSome → Word.isConstituent c = true)
    (by decide) hbound h

section

variable {base : Nat} {sign digits rest : List Char}

theorem IsSign.isConstituent (h : IsSign sign) : ∀ c ∈ sign, Word.isConstituent c = true := by
  have hplus : Word.isConstituent '+' = true := by decide
  have hminus : Word.isConstituent '-' = true := by decide
  rcases h with rfl | rfl | rfl <;> simp [hplus, hminus]

theorem IsNumeral.isConstituent (h : IsNumeral base digits) :
    ∀ c ∈ digits, Word.isConstituent c = true := fun c hc =>
  Word.isConstituent_of_isSome_radixDigit? (Integer.isSome_radixDigit?_of_piece (.inl h) c hc)

/-- A signed numeral is a whole word if nothing follows that belongs to a word. -/
theorem IsNumeral.width_append (hsign : IsSign sign) (hdigits : IsNumeral base digits)
    (hrest : Word.width rest = 0) :
    Word.width (sign ++ digits ++ rest) = (sign ++ digits).length := by
  rw [Word.width_append rest, hrest, Nat.add_zero]
  exact List.forall_mem_append.mpr ⟨hsign.isConstituent, hdigits.isConstituent⟩

theorem IsNumeral.isWord_decimal {point : List Char} (hsign : IsSign sign)
    (hdigits : IsNumeral 10 digits) (hpoint : point = [] ∨ point = ['.']) :
    IsWord (sign ++ (digits ++ point)) := by
  refine ⟨by simp [hdigits.ne_nil], ?_, ?_⟩
  · have hdot : Word.isConstituent '.' = true := by decide
    have hend : ∀ c ∈ point, Word.isConstituent c = true := by
      rcases hpoint with rfl | rfl <;> simp [hdot]
    exact List.forall_mem_append.mpr
      ⟨hsign.isConstituent, List.forall_mem_append.mpr ⟨hdigits.isConstituent, hend⟩⟩
  · obtain ⟨c, more, rfl⟩ := List.exists_cons_of_ne_nil hdigits.ne_nil
    have hc : c ≠ '?' := by
      rintro rfl
      have := hdigits.allDigits '?' List.mem_cons_self
      revert this
      decide
    rcases hsign with rfl | rfl | rfl <;> simp [hc]

end

section

variable [CharacterNames]

/-- A literal is one lexeme, whatever follows that does not belong to a word. -/
theorem IntegerLiteral.scanned {literal rest : List Char} {value : Int}
    (h : IntegerLiteral literal value) (hrest : Word.width rest = 0) :
    ∃ c more, literal = c :: more ∧ Gap.width (c :: (more ++ rest)) = 0 ∧
      Lexeme.scan c (more ++ rest) = .ok ⟨.atom (.number (.integer value)), more.length⟩ := by
  cases h with
  | @decimal sign digits point hsign hdigits hpoint =>
    have hword := hdigits.isWord_decimal hsign hpoint
    have hinteger := Word.integer?_append hsign hdigits.allDigits hdigits.ne_nil hpoint
    rw [Integer.applySign_digitsValue] at hinteger
    obtain ⟨c, more, hcons⟩ := List.exists_cons_of_ne_nil hword.ne_nil
    rw [hcons] at hword hinteger
    refine ⟨c, more, hcons, hword.writtenAs.noGap rest, ?_⟩
    have hdot : c :: more ≠ ['.'] := by
      intro hdot
      have hnone : Word.integer? ['.'] = none := by decide
      rw [hdot, hnone] at hinteger
      cases hinteger
    rw [hword.scan_append hrest, if_neg hdot]
    simp only [Word.atom, hword.backslash_not_mem, ↓reduceIte, hinteger]
  | @radix announcement sign digits base hannounces hsign hdigits =>
    have hwhole := hdigits.width_append hsign hrest
    have hscan := Lexeme.scan_of_announces hannounces (by simp [hdigits.ne_nil]) hwhole
    rw [Integer.parse_signed hannounces.base_range hsign hdigits] at hscan
    refine ⟨'#', _, rfl, ?_, ?_⟩
    · obtain ⟨c, more, rfl, hc⟩ := hannounces.exists_cons
      refine Gap.width_eq_zero (by decide) (by decide) fun _ hhead => hc ?_
      obtain rfl : c = '!' := by simpa using hhead
      decide
    · rw [List.append_assoc, hscan, ← List.length_append]

/-- A number that stands after the gap is handed to what is open, and reading goes on behind it. -/
theorem readFrom_of_number {c : Char} {more rest text : List Char} {number : Number}
    (hdrop : text.drop (Gap.width text) = c :: (more ++ rest))
    (hscan : Lexeme.scan c (more ++ rest) = .ok ⟨.atom (.number number), more.length⟩)
    {cursor start stop : Nat} (hstart : start = cursor + Gap.width text)
    (hstop : stop = start + (c :: more).length) (stack : List Pending) (names : List String) :
    readFrom cursor text stack names =
      match Pending.deliver (.atom ⟨⟨start, stop⟩, none⟩ (.number number)) stack with
      | .ok progress => progress.readOn stop rest names
      | .error error => ⟨.malformed error, stop⟩ := by
  subst hstop
  rw [readFrom_of_lexeme hdrop hscan hstart]
  simp only [Pending.absorb, Pending.deliverTaken, Lexeme.spanAt, Lexeme.width, List.length_cons,
    List.drop_left]
  cases Pending.deliver
    (.atom ⟨⟨start, start + (more.length + 1)⟩, none⟩ (.number number)) stack with
  | error error => rfl
  | ok progress => cases progress <;> rfl

section

variable {literal text rest : List Char} {value : Int}

theorem IntegerLiteral.readFrom_eq (h : IntegerLiteral literal value)
    (htext : text.drop (Gap.width text) = literal ++ rest) (hrest : Word.width rest = 0)
    {cursor start stop : Nat} (hstart : start = cursor + Gap.width text)
    (hstop : stop = start + literal.length) (stack : List Pending) (names : List String) :
    readFrom cursor text stack names =
      match Pending.deliver (.atom ⟨⟨start, stop⟩, none⟩ (.number (.integer value))) stack with
      | .ok progress => progress.readOn stop rest names
      | .error error => ⟨.malformed error, stop⟩ := by
  obtain ⟨c, more, rfl, -, hscan⟩ := h.scanned hrest
  exact readFrom_of_number htext hscan hstart hstop stack names

/-- Whatever was read from the characters of a literal is the literal's value. -/
theorem IntegerLiteral.eq_of_rereadable {node : Form} (h : IntegerLiteral literal value)
    (hnode : Rereadable text node) (hslice : node.span.slice text = literal) :
    node = .atom ⟨node.span, none⟩ (.number (.integer value)) := by
  obtain ⟨names, hreads⟩ := hnode []
  have hread := readFrom_of_reads (hreads.take (Nat.le_refl _))
  have hcut : (text.take node.stop).drop node.start = literal := by
    rw [List.drop_take]
    exact hslice
  have hlength : node.stop = node.start + literal.length := by
    have hlt := hreads.cursor_lt
    rw [← hcut, List.length_drop, List.length_take, Nat.min_eq_left hreads.stop_le]
    omega
  have hgap : Gap.width literal = 0 := by
    have hend : Word.width [] = 0 := rfl
    obtain ⟨c, more, rfl, hgap, -⟩ := h.scanned hend
    rwa [List.append_nil] at hgap
  have hdrop : literal.drop (Gap.width literal) = literal ++ [] := by
    rw [hgap, List.drop_zero, List.append_nil]
  have hstart : node.start = node.start + Gap.width literal := by rw [hgap, Nat.add_zero]
  have hliteral := h.readFrom_eq hdrop rfl hstart hlength [] []
  rw [hcut, hliteral] at hread
  obtain ⟨hform, -⟩ := ReadStep.mk.inj hread
  exact (congrArg TopForm.form (Reading.form.inj hform)).symm

end

/-- Signed digits below a base are taken for the number they spell by their places, however many
pieces they make; and each literal is read as its value, wherever it stands in a text and
whatever forms are open there. -/
theorem Integer.literals_read_exactly :
    (∀ base sign digits, 2 ≤ base ∧ base ≤ 36 → IsSign sign → IsNumeral base digits →
      Integer.parse base (sign ++ digits) = .ok (signedValue base sign digits)) ∧
    ∀ literal value, IntegerLiteral literal value →
      (∀ text rest, text.drop (Gap.width text) = literal ++ rest → Word.width rest = 0 →
        ∀ cursor start stop, start = cursor + Gap.width text → stop = start + literal.length →
        ∀ stack names, readFrom cursor text stack names =
          match Pending.deliver (.atom ⟨⟨start, stop⟩, none⟩ (.number (.integer value))) stack with
          | .ok progress => progress.readOn stop rest names
          | .error error => ⟨.malformed error, stop⟩) ∧
      ∀ text, ∀ top ∈ (Transcript.ofText text).tops, ∀ node ∈ top.form.nodes,
        node.span.slice text = literal →
          node = .atom ⟨node.span, none⟩ (.number (.integer value)) := by
  refine ⟨fun base sign digits hbase hsign hdigits => Integer.parse_signed hbase hsign hdigits, ?_⟩
  intro literal value h
  refine ⟨?_, ?_⟩
  · intro text rest htext hrest cursor start stop hstart hstop stack names
    exact h.readFrom_eq htext hrest hstart hstop stack names
  · intro text top htop node hnode hslice
    exact h.eq_of_rereadable (rereadable_of_mem_tops htop hnode) hslice

end

open CharacterNames in
/-- More digits than one piece holds; and before a bracket a negative literal, its base written
with a zero. -/
theorem Integer.literals_read_exactly_second_piece :
    Integer.parse 16 (List.replicate 1001 'f')
      = .ok (signedValue 16 [] (List.replicate 1001 'f')) ∧
    readFrom 0 " #016r-fF)".toList [] []
      = ⟨.form ⟨.atom ⟨⟨1, 9⟩, none⟩ (.number (.integer (-255))), []⟩, 9⟩ := by
  refine ⟨?_, ?_⟩
  · have hdigits : IsNumeral 16 (List.replicate 1001 'f') := by
      refine ⟨mt (List.replicate_eq_nil_iff 'f').mp (by decide), fun c hc => ?_⟩
      rw [List.eq_of_mem_replicate hc]
      exact ⟨15, by decide, rfl⟩
    exact Integer.literals_read_exactly.1 16 [] _ (by decide) (.inl rfl) hdigits
  · have hradix : IsNumeral 10 ['0', '1', '6'] :=
      (Integer.positional?_eq_some_iff.mp (show Integer.positional? 10 _ = some 16 by decide)).1
    have hdigits : IsNumeral 16 ['f', 'F'] :=
      (Integer.positional?_eq_some_iff.mp (show Integer.positional? 16 _ = some 255 by decide)).1
    have hbase : Announces "016r".toList 16 :=
      .written hradix (by decide) (by decide) (.inl rfl)
    have hliteral : IntegerLiteral "#016r-fF".toList (-255) :=
      .radix hbase (.inr (.inr rfl)) hdigits
    exact (Integer.literals_read_exactly.2 _ _ hliteral).1 " #016r-fF)".toList [')'] (by decide) rfl
      0 1 9 rfl rfl [] []

/-- After the gap with which a text opens stand a sharp, the announcement of a base and a whole
word. -/
structure RadixWord (text announcement token rest : List Char) (base : Nat) : Prop where
  stands : text.drop (Gap.width text) = '#' :: (announcement ++ (token ++ rest))
  announces : Announces announcement base
  ne_nil : token ≠ []
  whole : Word.width (token ++ rest) = token.length

namespace RadixWord

variable [CharacterNames] {text announcement token rest : List Char} {base : Nat}

theorem readFrom_of_error (h : RadixWord text announcement token rest base) {fault : Integer.Fault}
    (hparse : Integer.parse base token = .error fault) (cursor : Nat) (stack : List Pending)
    (names : List String) : readFrom cursor text stack names
      = ⟨.malformed ⟨.invalidInteger base, cursor + Gap.width text⟩, cursor⟩ := by
  have hscan := Lexeme.scan_of_announces h.announces h.ne_nil h.whole
  rw [hparse] at hscan
  exact readFrom_of_fault h.stands hscan

theorem readFrom_of_ok (h : RadixWord text announcement token rest base) {value : Int}
    (hparse : Integer.parse base token = .ok value) {cursor start stop : Nat}
    (hstart : start = cursor + Gap.width text)
    (hstop : stop = start + ('#' :: (announcement ++ token)).length) (names : List String) :
    readFrom cursor text [] names
      = ⟨.form ⟨.atom ⟨⟨start, stop⟩, none⟩ (.number (.integer value)), names⟩, stop⟩ := by
  have hscan := Lexeme.scan_of_announces h.announces h.ne_nil h.whole
  have hstands := h.stands
  rw [hparse, ← List.append_assoc, ← List.length_append] at hscan
  rw [← List.append_assoc] at hstands
  exact readFrom_of_number hstands hscan hstart hstop [] names

end RadixWord

/-- A text that is no signed numeral of the base is refused, alone and after the announcement of
the base, with one exception: if after the sign all its pieces are numerals but for the mark of
the base before some, it is read as an integer. No base without a letter has such a mark. -/
theorem Integer.refused_unless_marked [CharacterNames] {base : Nat} (hbase : 2 ≤ base ∧ base ≤ 36)
    {token : List Char} (hbad : ¬ IsSignedNumeral base token) :
    ((∃ fault, Integer.parse base token = .error fault) ↔ ¬ Integer.HasMarkedPiece base token) ∧
    ((∀ mark, (mark, base) ∉ Integer.baseLetters) → ¬ Integer.HasMarkedPiece base token) ∧
    ∀ text announcement rest, RadixWord text announcement token rest base →
      (¬ Integer.HasMarkedPiece base token → ∀ cursor stack names,
        readFrom cursor text stack names
          = ⟨.malformed ⟨.invalidInteger base, cursor + Gap.width text⟩, cursor⟩) ∧
      (Integer.HasMarkedPiece base token → ∃ value, Integer.parse base token = .ok value ∧
        ∀ cursor start stop names, start = cursor + Gap.width text →
          stop = start + ('#' :: (announcement ++ token)).length →
          readFrom cursor text [] names
            = ⟨.form ⟨.atom ⟨⟨start, stop⟩, none⟩ (.number (.integer value)), names⟩, stop⟩) := by
  have haccepted := Integer.exists_parse_iff_hasMarkedPiece hbase hbad
  have hrefused : (∃ fault, Integer.parse base token = .error fault) ↔
      ¬ Integer.HasMarkedPiece base token := by
    rw [← haccepted]
    cases Integer.parse base token <;> simp
  refine ⟨hrefused, fun hletters => Integer.not_hasMarkedPiece hletters token, ?_⟩
  intro text announcement rest hword
  refine ⟨?_, ?_⟩
  · intro hmarked cursor stack names
    obtain ⟨fault, hfault⟩ := hrefused.mpr hmarked
    exact hword.readFrom_of_error hfault cursor stack names
  · intro hmarked
    obtain ⟨value, hvalue⟩ := haccepted.mpr hmarked
    refine ⟨value, hvalue, fun cursor start stop names hstart hstop => ?_⟩
    exact hword.readFrom_of_ok hvalue hstart hstop names

open CharacterNames in
/-- The first letter that is no hexadecimal digit. -/
theorem Integer.refused_unless_marked_letter :
    ¬ IsSignedNumeral 16 "1g".toList ∧ ¬ Integer.HasMarkedPiece 16 "1g".toList ∧
    readFrom 0 "#x1g)".toList [] [] = ⟨.malformed ⟨.invalidInteger 16, 0⟩, 0⟩ := by
  have hbad : ¬ IsSignedNumeral 16 "1g".toList :=
    Integer.not_isSignedNumeral (c := 'g') (by decide) (by decide)
  have hfault : Integer.parse 16 "1g".toList = .error (.piece 16 "1g".toList) :=
    Integer.parse_of_length_le (by decide) (.inl rfl) (by decide) (List.all_eq_true.mp rfl)
      (by decide)
  have h := Integer.refused_unless_marked (by decide) hbad
  have hmarked := h.1.mp ⟨_, hfault⟩
  have hword : RadixWord "#x1g)".toList ['x'] "1g".toList [')'] 16 :=
    ⟨rfl, .letter (by decide), by decide, rfl⟩
  exact ⟨hbad, hmarked, (h.2.2 _ _ _ hword).1 hmarked 0 [] []⟩

open CharacterNames in
/-- The letter x is no hexadecimal digit, yet the mark of the base is skipped at the start of the
digits. -/
theorem Integer.marked_numeral_taken :
    ¬ IsSignedNumeral 16 "0x10".toList ∧ Integer.parse 16 "0x10".toList = .ok 16 ∧
    readFrom 0 "#x0x10".toList [] []
      = ⟨.form ⟨.atom ⟨⟨0, 6⟩, none⟩ (.number (.integer 16)), []⟩, 6⟩ := by
  have hparse : Integer.parse 16 "0x10".toList = .ok 16 :=
    Integer.parse_of_length_le (by decide) (.inl rfl) (by decide) (List.all_eq_true.mp rfl)
      (by decide)
  have hword : RadixWord "#x0x10".toList ['x'] "0x10".toList [] 16 :=
    ⟨rfl, .letter (by decide), by decide, rfl⟩
  refine ⟨Integer.not_isSignedNumeral (c := 'x') (by decide) (by decide), hparse, ?_⟩
  exact hword.readFrom_of_ok hparse rfl rfl []

end LispXref
