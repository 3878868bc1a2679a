import LispXref.Proofs.Gap
import LispXref.Proofs.Lexeme.Cut

/-! A line end after a text changes nothing about the lexemes in it, since none of them goes on
over a line end unless the text stops after a lone backslash. A gap at the end of the text goes
on with the line end and what is skipped after it. -/
namespace LispXref

theorem head?_append_newline {text more : List Char} {c : Char} (hc : c ≠ '\n') :
    (text ++ '\n' :: more).head? = some c ↔ text.head? = some c := by
  cases text with
  | nil => simp [hc.symm]
  | cons d rest => rfl

theorem exists_of_append_newline_eq_cons {text more others : List Char} {c : Char} (hc : c ≠ '\n')
    (h : text ++ '\n' :: more = c :: others) :
    ∃ rest, text = c :: rest ∧ others = rest ++ '\n' :: more := by
  cases text with
  | nil => exact absurd (List.cons.inj h).1.symm hc
  | cons d rest =>
    obtain ⟨rfl, rfl⟩ := List.cons.inj h
    exact ⟨rest, rfl, rfl⟩

theorem append_newline_ne_cons {text more : List Char} {c : Char} (hc : c ≠ '\n')
    (h : ∀ rest, text = c :: rest → False) (others : List Char) :
    text ++ '\n' :: more = c :: others → False := by
  intro hjoined
  obtain ⟨rest, htext, -⟩ := exists_of_append_newline_eq_cons hc hjoined
  exact h rest htext

theorem takeWhile_append_newline {p : Char → Bool} (text more : List Char) (hp : p '\n' = false) :
    (text ++ '\n' :: more).takeWhile p = text.takeWhile p := by
  induction text with
  | nil => simp [hp]
  | cons c rest ih => simp [List.takeWhile_cons, ih]

namespace Gap

/-- A gap that reaches the end of a text goes on after a line end. -/
theorem width_append_of_isGap {gap : List Char} (h : IsGap gap) (more : List Char) :
    width (gap ++ '\n' :: more) = gap.length + 1 + width more ∧
      widthInComment (gap ++ '\n' :: more) = gap.length + 1 + width more := by
  induction h with
  | nil =>
    have hblank : isBlank '\n' = true := by decide
    constructor
    · rw [List.nil_append, width_cons (by simp), if_pos hblank, List.length_nil]
      omega
    · rw [List.nil_append, widthInComment, if_pos rfl, List.length_nil]
      omega
  | @blank c rest hblank _ ih =>
    have hsharp : c ≠ '#' := by rintro rfl; revert hblank; decide
    constructor
    · rw [List.cons_append, width_cons fun hc => absurd hc hsharp, if_pos hblank, ih.1,
        List.length_cons]
      omega
    · rw [List.cons_append, widthInComment, ih.1, ih.2, List.length_cons]
      split <;> omega
  | @comment body rest hbody _ ih =>
    have hblank : ¬ isBlank ';' = true := by decide
    have hnewline : ¬ ';' = '\n' := by decide
    have hskip := widthInComment_body_append (rest ++ '\n' :: more) hbody
    simp only [List.cons_append, List.append_assoc, List.length_cons, List.length_append]
    constructor
    · rw [width_cons (by simp), if_neg hblank, if_pos rfl, hskip, ih.2]
      omega
    · rw [widthInComment, if_neg hnewline, hskip, ih.2]
      omega
  | @interpreter body rest hbody _ ih =>
    have hsharp : ¬ '#' = '\n' := by decide
    have hmark : ¬ '!' = '\n' := by decide
    have hskip := widthInComment_body_append (rest ++ '\n' :: more) hbody
    simp only [List.cons_append, List.append_assoc, List.length_cons, List.length_append]
    constructor
    · rw [width, hskip, ih.2]
      omega
    · rw [widthInComment, if_neg hsharp, widthInComment, if_neg hmark, hskip, ih.2]
      omega

mutual

/-- A gap that something follows is not affected. -/
theorem width_append_newline (more : List Char) : (text : List Char) → width text < text.length →
    width (text ++ '\n' :: more) = width text
  | [], h => absurd h (Nat.lt_irrefl 0)
  | c :: rest, h => by
    by_cases hline : c = '#' ∧ rest.head? = some '!'
    · obtain ⟨rfl, hhead⟩ := hline
      obtain ⟨body, rfl⟩ := List.head?_eq_some_iff.mp hhead
      rw [width] at h ⊢
      simp only [List.length_cons] at h
      rw [List.cons_append, List.cons_append, width,
        widthInComment_append_newline more body (by omega)]
    · have hfirst : c = '#' → rest.head? ≠ some '!' := fun hc hhead => hline ⟨hc, hhead⟩
      have hjoined : c = '#' → (rest ++ '\n' :: more).head? ≠ some '!' :=
        fun hc hhead => hfirst hc ((head?_append_newline (by decide)).mp hhead)
      rw [width_cons hfirst, List.length_cons] at h
      rw [List.cons_append, width_cons hfirst, width_cons hjoined]
      split at h
      · next hblank =>
        rw [if_pos hblank, if_pos hblank, width_append_newline more rest (by omega)]
      · next hblank =>
        rw [if_neg hblank, if_neg hblank]
        split at h
        · next hcomment =>
          rw [if_pos hcomment, if_pos hcomment, widthInComment_append_newline more rest (by omega)]
        · next hcomment => rw [if_neg hcomment, if_neg hcomment]

theorem widthInComment_append_newline (more : List Char) : (text : List Char) →
    widthInComment text < text.length →
    widthInComment (text ++ '\n' :: more) = widthInComment text
  | [], h => absurd h (Nat.lt_irrefl 0)
  | c :: rest, h => by
    rw [widthInComment, List.length_cons] at h
    rw [List.cons_append, widthInComment, widthInComment]
    split at h
    · next hc => rw [if_pos hc, if_pos hc, width_append_newline more rest (by omega)]
    · next hc => rw [if_neg hc, if_neg hc, widthInComment_append_newline more rest (by omega)]

end

/-- A text that is a gap is skipped to its end. -/
theorem width_of_isGap {gap : List Char} (h : IsGap gap) : width gap = gap.length := by
  rcases Nat.lt_or_eq_of_le (width_le gap) with hlt | heq
  · have hshort := width_append_newline [] gap hlt
    have hwhole := (width_append_of_isGap h []).1
    omega
  · exact heq

end Gap

/-- A word ends before a line end, unless a backslash is left over that would escape it. -/
theorem Word.width_append_newline {text : List Char} (more : List Char)
    (h : text.drop (width text) ≠ ['\\']) : width (text ++ '\n' :: more) = width text := by
  fun_induction Word.width text with
  | case1 c rest ih =>
    rw [List.cons_append, List.cons_append, width, ih (by simpa using h)]
  | case2 c rest _ hc ih =>
    rw [List.cons_append, width_cons_of_isConstituent _ hc, ih (by simpa using h)]
  | case3 c rest hescape hc =>
    rw [List.cons_append, width, if_neg hc]
    intro d others hbackslash hothers
    cases rest with
    | nil => exact h (by rw [List.drop_zero, hbackslash])
    | cons e rest => exact hescape e rest hbackslash rfl
  | case4 =>
    apply width_of_boundary
    intro c hc
    obtain rfl : '\n' = c := by simpa using hc
    decide

theorem stringWidth_append {text : List Char} {w : Nat} (h : stringWidth text = some w)
    (more : List Char) : stringWidth (text ++ more) = some w := by
  fun_induction stringWidth text generalizing w with
  | case1 => cases h
  | case2 => cases h
  | case3 c rest ih =>
    obtain ⟨v, hv, rfl⟩ := Option.map_eq_some_iff.mp h
    rw [List.cons_append, List.cons_append, stringWidth, ih hv, Option.map_some]
  | case4 rest =>
    obtain rfl := Option.some.inj h
    rw [List.cons_append, stringWidth_cons _ (by decide), if_pos rfl]
  | case5 c rest hlast hescape hc ih =>
    obtain ⟨v, hv, rfl⟩ := Option.map_eq_some_iff.mp h
    have hbackslash := ne_backslash hlast hescape
    rw [List.cons_append, stringWidth_cons _ hbackslash, if_neg hc, ih hv, Option.map_some]

namespace CharacterLiteral

theorem escapeWidth_append_newline {c : Char} {rest : List Char} {w : Nat}
    (h : escapeWidth c rest = .ok w) (more : List Char) :
    escapeWidth c (rest ++ '\n' :: more) = .ok w := by
  have hbrace : (rest ++ '\n' :: more).head? = some '\x7b' ↔ rest.head? = some '\x7b' :=
    head?_append_newline (by decide)
  unfold escapeWidth at h ⊢
  simp only [hbrace]
  split at h
  · next hname =>
    rw [if_pos hname]
    split at h
    · next i hi =>
      cases h
      rw [List.findIdx?_append, hi, Option.some_or]
    · cases h
  · next hname =>
    rw [if_neg hname]
    split at h
    · next hhex => rw [if_pos hhex, takeWhile_append_newline _ _ (by decide), h]
    · next hhex =>
      rw [if_neg hhex]
      split at h
      · next hoctal =>
        rw [if_pos hoctal, ← List.take_takeWhile, takeWhile_append_newline _ _ (by decide),
          List.take_takeWhile, h]
      · next hoctal =>
        rw [if_neg hoctal]
        exact h

theorem width_append_newline_escape {c : Char} {rest : List Char} {w : Nat} (hcontrol : c ≠ '^')
    (hmodifier : isModifier c = true → rest.head? ≠ some '-')
    (h : (escapeWidth c rest).map (· + 1) = .ok w) (more : List Char) :
    width ('\\' :: c :: rest ++ '\n' :: more) = .ok w := by
  obtain ⟨v, hv, rfl⟩ := exists_of_map_eq_ok h
  have hjoined : isModifier c = true → (rest ++ '\n' :: more).head? ≠ some '-' :=
    fun hm hhead => hmodifier hm ((head?_append_newline (by decide)).mp hhead)
  rw [List.cons_append, List.cons_append, width_escape hcontrol hjoined,
    escapeWidth_append_newline hv]
  rfl

theorem width_append_newline {text : List Char} {w : Nat} (h : width text = .ok w)
    (more : List Char) : width (text ++ '\n' :: more) = .ok w := by
  fun_induction width text generalizing w with
  | case1 => cases h
  | case2 => cases h
  | case3 rest ih =>
    obtain ⟨v, hv, rfl⟩ := exists_of_map_eq_ok h
    rw [List.cons_append, List.cons_append, width, ih hv]
    rfl
  | case4 c rest hcontrol hmodifier ih =>
    obtain ⟨v, hv, rfl⟩ := exists_of_map_eq_ok h
    rw [List.cons_append, List.cons_append, List.cons_append, width, if_pos hmodifier, ih hv]
    · rfl
    · exact hcontrol
  | case5 c rest hcontrol hmodifier =>
    exact width_append_newline_escape hcontrol (fun hm => absurd hm hmodifier) h more
  | case6 c rest hcontrol hdash =>
    refine width_append_newline_escape hcontrol (fun _ hhead => ?_) h more
    obtain ⟨others, rfl⟩ := List.head?_eq_some_iff.mp hhead
    exact hdash others rfl
  | case7 c rest hlast _ _ hescape =>
    cases h
    have hbackslash := ne_backslash hlast hescape
    rw [List.cons_append, width_cons _ hbackslash]

end CharacterLiteral

namespace Sharp

theorem head?_dropWhile_append {p : Char → Bool} {text : List Char} (more : List Char)
    (h : (text.takeWhile p).length < text.length) :
    ((text ++ more).dropWhile p).head? = (text.dropWhile p).head? := by
  have hne : text.dropWhile p ≠ [] := by
    intro hnil
    have hall : text.takeWhile p ++ text.dropWhile p = text := List.takeWhile_append_dropWhile
    rw [hnil, List.append_nil] at hall
    rw [hall] at h
    exact Nat.lt_irrefl _ h
  rw [List.dropWhile_append, if_neg (by simpa using hne), List.head?_append,
    List.head?_eq_some_head hne, Option.some_or]

theorem radix_append_newline {text : List Char} {r : Radix} (h : radix text = .ok r)
    (more : List Char) : radix (text ++ '\n' :: more) = .ok r := by
  have hle := radix_width_le h
  have hfirst (hpos : 0 < text.length) : (text ++ '\n' :: more).head? = text.head? := by
    rw [List.head?_append, List.head?_eq_some_head (List.ne_nil_of_length_pos hpos),
      Option.some_or]
  unfold radix at h ⊢
  split at h
  · next base hbase =>
    cases h
    rw [hfirst hle, hbase]
  · next hbase =>
    have hwidth := width_of_writtenRadix h
    rw [hfirst (by omega), hbase, ← h]
    exact writtenRadix_congr (hfirst (by omega)) (takeWhile_append_newline _ _ (by decide))
      (head?_dropWhile_append _ (by omega))

theorem integer_append_newline {text : List Char} {lexeme : Lexeme}
    (h : integer text = .ok lexeme) (hend : text.drop lexeme.tail ≠ ['\\']) (more : List Char) :
    integer (text ++ '\n' :: more) = .ok lexeme := by
  unfold integer at h ⊢
  cases hr : radix text with
  | error fault => rw [hr] at h; cases h
  | ok r =>
    rw [hr] at h
    simp only [bind, Except.bind] at h
    split at h
    · cases h
    · next hword =>
      split at h
      · next value hvalue =>
        cases h
        have hwidth : Word.width (text.drop r.width ++ '\n' :: more)
            = Word.width (text.drop r.width) :=
          Word.width_append_newline more (by rwa [List.drop_drop])
        simp only [radix_append_newline hr, bind, Except.bind,
          List.drop_append_of_le_length (radix_width_le hr), hwidth,
          List.take_append_of_le_length (Word.width_le _), hvalue]
        rw [if_neg hword]
      · cases h

theorem bareSymbol_append_newline {rest : List Char}
    (hend : rest.drop (Word.width rest) ≠ ['\\']) (more : List Char) :
    bareSymbol (rest ++ '\n' :: more) = bareSymbol rest := by
  simp only [bareSymbol, Word.width_append_newline more hend,
    List.take_append_of_le_length (Word.width_le rest)]

/-- A lexeme that a sharp opens. -/
theorem scan_append_newline {text : List Char} {lexeme : Lexeme} (h : scan text = .ok lexeme)
    (hend : text.drop lexeme.tail ≠ ['\\']) (more : List Char) :
    scan (text ++ '\n' :: more) = .ok lexeme := by
  unfold scan at h
  split at h
  case h_1 | h_2 | h_3 | h_4 | h_5 =>
    cases h
    rfl
  case h_6 | h_7 =>
    cases h
    exact congrArg _ (bareSymbol_append_newline hend more)
  case h_8 hquote hround hsquare hrecord hsharp hcolon hunderscore =>
    -- what opens something else with the line end did so without it
    rw [scan]
    · exact integer_append_newline h hend more
    · exact append_newline_ne_cons (by decide) hquote
    · exact append_newline_ne_cons (by decide) hround
    · exact append_newline_ne_cons (by decide) hsquare
    · intro others hjoined
      obtain ⟨rest, htext, hrest⟩ := exists_of_append_newline_eq_cons (by decide) hjoined
      obtain ⟨inner, rfl, -⟩ := exists_of_append_newline_eq_cons (by decide) hrest.symm
      exact hrecord inner htext
    · exact append_newline_ne_cons (by decide) hsharp
    · exact append_newline_ne_cons (by decide) hcolon
    · exact append_newline_ne_cons (by decide) hunderscore

end Sharp

theorem scanWord_append_newline {c : Char} {rest : List Char} {lexeme : Lexeme}
    (h : scanWord (c :: rest) = .ok lexeme) (hend : rest.drop lexeme.tail ≠ ['\\'])
    (more : List Char) : scanWord (c :: (rest ++ '\n' :: more)) = .ok lexeme := by
  rw [← List.cons_append]
  unfold scanWord at h ⊢
  dsimp only at h ⊢
  split at h
  · cases h
  · next hw =>
    cases h
    have hdrop : (c :: rest).drop (Word.width (c :: rest)) ≠ ['\\'] := by
      rwa [← Nat.succ_pred_eq_of_ne_zero hw, List.drop_succ_cons]
    rw [Word.width_append_newline more hdrop, if_neg hw,
      List.take_append_of_le_length (Word.width_le _)]

variable [CharacterNames]

theorem scanString_append {rest : List Char} {lexeme : Lexeme}
    (h : scanString rest = .ok lexeme) (more : List Char) :
    scanString (rest ++ more) = .ok lexeme := by
  unfold scanString at h ⊢
  split at h
  · next w hw =>
    cases h
    have hbody : w - 1 ≤ rest.length := Nat.le_trans (Nat.sub_le _ _) (stringWidth_le hw)
    rw [stringWidth_append hw]
    simp only [List.take_append_of_le_length hbody]
  · cases h

theorem scanCharacter_append_newline {rest : List Char} {lexeme : Lexeme}
    (h : scanCharacter rest = .ok lexeme) (more : List Char) :
    scanCharacter (rest ++ '\n' :: more) = .ok lexeme := by
  unfold scanCharacter at h ⊢
  obtain ⟨w, hw, rfl⟩ := exists_of_map_eq_ok h
  rw [CharacterLiteral.width_append_newline hw]
  simp only [Except.map, List.take_append_of_le_length (CharacterLiteral.width_le hw)]

/-- A lexeme is scanned in the same way if a line end follows the text, unless the text goes on
after the lexeme with a backslash and nothing else. -/
theorem Lexeme.scan_append_newline {c : Char} {rest : List Char} {lexeme : Lexeme}
    (h : Lexeme.scan c rest = .ok lexeme) (hend : rest.drop lexeme.tail ≠ ['\\'])
    (more : List Char) : Lexeme.scan c (rest ++ '\n' :: more) = .ok lexeme := by
  unfold Lexeme.scan at h ⊢
  split at h
  case h_1 | h_2 | h_3 | h_4 | h_5 | h_6 => exact h
  case h_7 =>
    have hat : (rest ++ '\n' :: more).head? = some '@' ↔ rest.head? = some '@' :=
      head?_append_newline (by decide)
    simp only [hat]
    exact h
  case h_8 => exact scanString_append h _
  case h_9 => exact scanCharacter_append_newline h more
  case h_10 => exact Sharp.scan_append_newline h hend more
  case h_11 => exact scanWord_append_newline h hend more

end LispXref
