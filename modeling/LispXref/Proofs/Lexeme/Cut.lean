import LispXref.Proofs.Lexeme.Layout

/-! A text may be cut after a gap or after a lexeme: what was skipped or scanned before the
cut is skipped or scanned as it was. Every lemma takes the number of characters that are kept,
which may be more than are needed. -/
namespace LispXref

theorem head?_of_head?_take {text : List Char} {n : Nat} {c : Char}
    (h : (text.take n).head? = some c) : text.head? = some c := by
  rw [List.head?_take] at h
  split at h
  · cases h
  · exact h

theorem exists_of_take_eq_cons {text more : List Char} {n : Nat} {c : Char}
    (h : text.take n = c :: more) : ∃ rest, text = c :: rest ∧ more = rest.take (n - 1) := by
  cases text with
  | nil => simp at h
  | cons d rest =>
    cases n with
    | zero => simp at h
    | succ m =>
      obtain ⟨rfl, rfl⟩ := List.cons.inj h
      exact ⟨rest, rfl, rfl⟩

theorem take_ne_cons {text : List Char} {n : Nat} {c : Char}
    (h : ∀ rest, text = c :: rest → False) (more : List Char) :
    text.take n = c :: more → False := by
  intro hcut
  obtain ⟨rest, htext, -⟩ := exists_of_take_eq_cons hcut
  exact h rest htext

theorem takeWhile_take_of_le {p : Char → Bool} {text : List Char} {n : Nat}
    (h : (text.takeWhile p).length ≤ n) : (text.take n).takeWhile p = text.takeWhile p := by
  rw [← List.take_takeWhile, List.take_of_length_le h]

theorem head?_dropWhile_take {p : Char → Bool} {text : List Char} {n : Nat}
    (h : (text.takeWhile p).length < n) :
    ((text.take n).dropWhile p).head? = (text.dropWhile p).head? := by
  induction text generalizing n with
  | nil => rw [List.take_nil]
  | cons c rest ih =>
    obtain ⟨m, rfl⟩ : ∃ m, n = m + 1 := ⟨n - 1, by omega⟩
    rw [List.take_succ_cons]
    by_cases hc : p c = true
    · rw [List.takeWhile_cons_of_pos hc, List.length_cons] at h
      rw [List.dropWhile_cons_of_pos hc, List.dropWhile_cons_of_pos hc, ih (by omega)]
    · rw [List.dropWhile_cons_of_neg hc, List.dropWhile_cons_of_neg hc, List.head?_cons,
        List.head?_cons]

namespace Gap

mutual

theorem width_take : (text : List Char) → (n : Nat) → width text ≤ n →
    width (text.take n) = width text
  | [], n, _ => by rw [List.take_nil]
  | c :: rest, n, h => by
    by_cases hline : c = '#' ∧ rest.head? = some '!'
    · obtain ⟨rfl, hhead⟩ := hline
      obtain ⟨body, rfl⟩ := List.head?_eq_some_iff.mp hhead
      rw [width] at h ⊢
      obtain ⟨m, rfl⟩ : ∃ m, n = m + 2 := ⟨n - 2, by omega⟩
      rw [List.take_succ_cons, List.take_succ_cons, width,
        widthInComment_take body m (by omega)]
    · have hfirst : c = '#' → rest.head? ≠ some '!' := fun hc hhead => hline ⟨hc, hhead⟩
      cases n with
      | zero => rw [List.take_zero, Nat.le_zero.mp h, width]
      | succ m =>
        have hcut : c = '#' → (rest.take m).head? ≠ some '!' :=
          fun hc hhead => hfirst hc (head?_of_head?_take hhead)
        rw [width_cons hfirst] at h ⊢
        rw [List.take_succ_cons, width_cons hcut]
        split at h
        · next hblank => rw [if_pos hblank, if_pos hblank, width_take rest m (by omega)]
        · next hblank =>
          rw [if_neg hblank, if_neg hblank]
          split at h
          · next hcomment =>
            rw [if_pos hcomment, if_pos hcomment, widthInComment_take rest m (by omega)]
          · next hcomment => rw [if_neg hcomment, if_neg hcomment]

theorem widthInComment_take : (text : List Char) → (n : Nat) → widthInComment text ≤ n →
    widthInComment (text.take n) = widthInComment text
  | [], n, _ => by rw [List.take_nil]
  | c :: rest, n, h => by
    rw [widthInComment] at h ⊢
    obtain ⟨m, rfl⟩ : ∃ m, n = m + 1 := ⟨n - 1, by split at h <;> omega⟩
    rw [List.take_succ_cons, widthInComment]
    split at h
    · next hc => rw [if_pos hc, if_pos hc, width_take rest m (by omega)]
    · next hc => rw [if_neg hc, if_neg hc, widthInComment_take rest m (by omega)]

end

end Gap

theorem Word.width_take {text : List Char} {n : Nat} (h : width text ≤ n) :
    width (text.take n) = width text := by
  fun_induction Word.width text generalizing n with
  | case1 c rest ih =>
    obtain ⟨m, rfl⟩ : ∃ m, n = m + 2 := ⟨n - 2, by omega⟩
    rw [List.take_succ_cons, List.take_succ_cons, width, ih (by omega)]
  | case2 c rest _ hc ih =>
    obtain ⟨m, rfl⟩ : ∃ m, n = m + 1 := ⟨n - 1, by omega⟩
    rw [List.take_succ_cons, width_cons_of_isConstituent _ hc, ih (by omega)]
  | case3 c rest hescape hc =>
    cases n with
    | zero => rfl
    | succ m =>
      rw [List.take_succ_cons, width, if_neg hc]
      intro d more hbackslash hmore
      obtain ⟨tail, rfl, -⟩ := exists_of_take_eq_cons hmore
      exact hescape d tail hbackslash rfl
  | case4 => rw [List.take_nil, width]

/-- A backslash is the last character of a text or has one after it. -/
theorem ne_backslash {c : Char} {rest : List Char} (hlast : c = '\\' → rest = [] → False)
    (hescape : ∀ d more, c = '\\' → rest = d :: more → False) : c ≠ '\\' := by
  intro hc
  cases rest with
  | nil => exact hlast hc rfl
  | cons d more => exact hescape d more hc rfl

theorem stringWidth_cons {c : Char} (rest : List Char) (hc : c ≠ '\\') :
    stringWidth (c :: rest)
      = if c = '"' then some 1 else (stringWidth rest).map (· + 1) := by
  rw [stringWidth]
  · intro hbackslash
    exact absurd hbackslash hc
  · intro _ _ hbackslash
    exact absurd hbackslash hc

theorem stringWidth_take {text : List Char} {n w : Nat} (h : stringWidth text = some w)
    (hn : w ≤ n) : stringWidth (text.take n) = some w := by
  fun_induction stringWidth text generalizing n w with
  | case1 => cases h
  | case2 => cases h
  | case3 c rest ih =>
    obtain ⟨v, hv, rfl⟩ := Option.map_eq_some_iff.mp h
    obtain ⟨m, rfl⟩ : ∃ m, n = m + 2 := ⟨n - 2, by omega⟩
    rw [List.take_succ_cons, List.take_succ_cons, stringWidth, ih hv (by omega), Option.map_some]
  | case4 rest =>
    obtain rfl := Option.some.inj h
    obtain ⟨m, rfl⟩ : ∃ m, n = m + 1 := ⟨n - 1, by omega⟩
    rw [List.take_succ_cons, stringWidth_cons _ (by decide), if_pos rfl]
  | case5 c rest hlast hescape hc ih =>
    obtain ⟨v, hv, rfl⟩ := Option.map_eq_some_iff.mp h
    obtain ⟨m, rfl⟩ : ∃ m, n = m + 1 := ⟨n - 1, by omega⟩
    have hbackslash := ne_backslash hlast hescape
    rw [List.take_succ_cons, stringWidth_cons _ hbackslash, if_neg hc, ih hv (by omega),
      Option.map_some]

namespace CharacterLiteral

theorem escapeWidth_take {c : Char} {rest : List Char} {n w : Nat}
    (h : escapeWidth c rest = .ok w) (hn : w ≤ n + 1) :
    escapeWidth c (rest.take n) = .ok w := by
  unfold escapeWidth at h ⊢
  split at h
  · next hname =>
    split at h
    · next i hi =>
      cases h
      have hhead : (rest.take n).head? = some '\x7b' := by
        rw [List.head?_take, if_neg (by omega), hname.2]
      have hclose : (rest.take n).findIdx? (· = '\x7d') = some i := by
        have hlt : i < n := by omega
        simp only [List.findIdx?_take, hi, Option.bind_some, Option.guard, hlt, decide_true,
          if_true]
      rw [if_pos ⟨hname.1, hhead⟩, hclose]
    · cases h
  · next hname =>
    have hcut : ¬ (c = 'N' ∧ (rest.take n).head? = some '\x7b') :=
      fun hcut => hname ⟨hcut.1, head?_of_head?_take hcut.2⟩
    rw [if_neg hcut]
    split at h
    · next hhex =>
      cases h
      rw [if_pos hhex, takeWhile_take_of_le (by omega)]
    · next hhex =>
      rw [if_neg hhex]
      split at h
      · next hoctal =>
        cases h
        rw [if_pos hoctal, List.take_take, Nat.min_comm, ← List.take_take,
          takeWhile_take_of_le (by omega)]
      · next hoctal =>
        rw [if_neg hoctal]
        exact h

theorem width_escape {c : Char} {rest : List Char} (hcontrol : c ≠ '^')
    (hmodifier : isModifier c = true → rest.head? ≠ some '-') :
    width ('\\' :: c :: rest) = (escapeWidth c rest).map (· + 1) := by
  rw [width.eq_def]
  split
  · next h => cases h
  · next h => cases h
  · next h => cases h; exact absurd rfl hcontrol
  · next d more h =>
    cases h
    rw [if_neg fun hm => hmodifier hm rfl]
  · next h => cases h; rfl
  · next hfirst hlast hcontrol hdash hescape h =>
    cases h
    exact absurd rfl (hescape c rest rfl)

theorem width_cons {c : Char} (rest : List Char) (hc : c ≠ '\\') : width (c :: rest) = .ok 1 := by
  rw [width]
  all_goals simp [hc]

theorem escapeWidth_pos {c : Char} {rest : List Char} {w : Nat}
    (h : escapeWidth c rest = .ok w) : 0 < w := by
  unfold escapeWidth at h
  split at h
  · split at h
    · cases h
      exact Nat.succ_pos _
    · cases h
  · split at h
    · cases h
      exact Nat.succ_pos _
    · split at h
      · cases h
        exact Nat.succ_pos _
      · cases h
        exact Nat.succ_pos _

theorem width_take_escape {c : Char} {rest : List Char} {n w : Nat} (hcontrol : c ≠ '^')
    (hmodifier : isModifier c = true → rest.head? ≠ some '-')
    (h : (escapeWidth c rest).map (· + 1) = .ok w) (hn : w ≤ n) :
    width (('\\' :: c :: rest).take n) = .ok w := by
  obtain ⟨v, hv, rfl⟩ := exists_of_map_eq_ok h
  have hpos := escapeWidth_pos hv
  obtain ⟨m, rfl⟩ : ∃ m, n = m + 2 := ⟨n - 2, by omega⟩
  have hcut : isModifier c = true → (rest.take m).head? ≠ some '-' :=
    fun hm hhead => hmodifier hm (head?_of_head?_take hhead)
  rw [List.take_succ_cons, List.take_succ_cons, width_escape hcontrol hcut,
    escapeWidth_take hv (by omega)]
  rfl

theorem width_take {text : List Char} {n w : Nat} (h : width text = .ok w) (hn : w ≤ n) :
    width (text.take n) = .ok w := by
  fun_induction width text generalizing n w with
  | case1 => cases h
  | case2 => cases h
  | case3 rest ih =>
    obtain ⟨v, hv, rfl⟩ := exists_of_map_eq_ok h
    obtain ⟨m, rfl⟩ : ∃ m, n = m + 2 := ⟨n - 2, by omega⟩
    rw [List.take_succ_cons, List.take_succ_cons, width, ih hv (by omega)]
    rfl
  | case4 c rest hcontrol hmodifier ih =>
    obtain ⟨v, hv, rfl⟩ := exists_of_map_eq_ok h
    obtain ⟨m, rfl⟩ : ∃ m, n = m + 3 := ⟨n - 3, by omega⟩
    rw [List.take_succ_cons, List.take_succ_cons, List.take_succ_cons, width, if_pos hmodifier,
      ih hv (by omega)]
    · rfl
    · exact hcontrol
  | case5 c rest hcontrol hmodifier =>
    exact width_take_escape hcontrol (fun hm => absurd hm hmodifier) h hn
  | case6 c rest hcontrol hdash =>
    refine width_take_escape hcontrol (fun _ hhead => ?_) h hn
    obtain ⟨more, rfl⟩ := List.head?_eq_some_iff.mp hhead
    exact hdash more rfl
  | case7 c rest hlast _ _ hescape =>
    cases h
    obtain ⟨m, rfl⟩ : ∃ m, n = m + 1 := ⟨n - 1, by omega⟩
    have hbackslash := ne_backslash hlast hescape
    rw [List.take_succ_cons, width_cons _ hbackslash]

end CharacterLiteral

namespace Sharp

/-- A written radix is told by the digits and the letter after them. -/
theorem writtenRadix_congr {text other : List Char} (hfirst : text.head? = other.head?)
    (hdigits : text.takeWhile Char.isDigit = other.takeWhile Char.isDigit)
    (hletter : (text.dropWhile Char.isDigit).head? = (other.dropWhile Char.isDigit).head?) :
    writtenRadix text = writtenRadix other := by
  unfold writtenRadix
  cases text with
  | nil =>
    obtain rfl := List.head?_eq_none_iff.mp hfirst.symm
    rfl
  | cons c rest =>
    obtain ⟨more, rfl⟩ := List.head?_eq_some_iff.mp hfirst.symm
    simp only [hdigits, hletter]

theorem width_of_writtenRadix {text : List Char} {r : Radix} (h : writtenRadix text = .ok r) :
    r.width = (text.takeWhile Char.isDigit).length + 1 := by
  unfold writtenRadix at h
  split at h
  · cases h
  · extract_lets digits significant shown base at h
    split at h
    · split at h
      · cases h
        rfl
      · cases h
    · cases h

theorem radix_take {text : List Char} {n : Nat} {r : Radix} (h : radix text = .ok r)
    (hn : r.width ≤ n) : radix (text.take n) = .ok r := by
  have hfirst (hpos : 0 < n) : (text.take n).head? = text.head? := by
    rw [List.head?_take, if_neg (by omega)]
  unfold radix at h ⊢
  split at h
  · next base hbase =>
    cases h
    rw [hfirst hn, hbase]
  · next hbase =>
    have hwidth := width_of_writtenRadix h
    rw [hfirst (by omega), hbase, ← h]
    exact writtenRadix_congr (hfirst (by omega)) (takeWhile_take_of_le (by omega))
      (head?_dropWhile_take (by omega))

theorem integer_take {text : List Char} {n : Nat} {lexeme : Lexeme}
    (h : integer text = .ok lexeme) (hn : lexeme.tail ≤ n) :
    integer (text.take n) = .ok lexeme := by
  unfold integer at h ⊢
  cases hr : radix text with
  | error fault => rw [hr] at h; cases h
  | ok r =>
    rw [hr] at h
    simp only [bind, Except.bind] at h
    split at h
    · cases h
    · next hword =>
      split at h
      · next value hvalue =>
        cases h
        have hwidth : r.width ≤ n := Nat.le_trans (Nat.le_add_right _ _) hn
        have hrest : Word.width (text.drop r.width) ≤ n - r.width := Nat.le_sub_of_add_le' hn
        simp only [radix_take hr hwidth, bind, Except.bind, List.drop_take, Word.width_take hrest,
          List.take_take, Nat.min_eq_left hrest, hvalue]
        rw [if_neg hword]
      · cases h

theorem bareSymbol_take {rest : List Char} {n : Nat} (h : (bareSymbol rest).tail ≤ n + 1) :
    bareSymbol (rest.take n) = bareSymbol rest := by
  have hwidth : Word.width rest ≤ n := Nat.le_of_succ_le_succ h
  simp only [bareSymbol, Word.width_take hwidth, List.take_take, Nat.min_eq_left hwidth]

/-- A lexeme that a sharp opens is scanned in the same way if the text is cut after it. -/
theorem scan_take {text : List Char} {n : Nat} {lexeme : Lexeme} (h : scan text = .ok lexeme)
    (hn : lexeme.tail ≤ n) : scan (text.take n) = .ok lexeme := by
  unfold scan at h
  split at h
  case h_1 | h_2 | h_3 | h_4 | h_5 =>
    cases h
    obtain ⟨m, rfl⟩ := Nat.exists_eq_add_of_le' hn
    rfl
  case h_6 | h_7 =>
    cases h
    obtain ⟨m, rfl⟩ := Nat.exists_eq_add_of_le' (Nat.le_trans (Nat.le_add_left 1 _) hn)
    exact congrArg _ (bareSymbol_take hn)
  case h_8 hquote hround hsquare hrecord hsharp hcolon hunderscore =>
    -- a text that opens nothing else does not do so when it is cut
    rw [scan]
    · exact integer_take h hn
    · exact take_ne_cons hquote
    · exact take_ne_cons hround
    · exact take_ne_cons hsquare
    · intro more hcut
      obtain ⟨rest, htext, hmore⟩ := exists_of_take_eq_cons hcut
      obtain ⟨others, rfl, -⟩ := exists_of_take_eq_cons hmore.symm
      exact hrecord others htext
    · exact take_ne_cons hsharp
    · exact take_ne_cons hcolon
    · exact take_ne_cons hunderscore

end Sharp

theorem scanWord_take {c : Char} {rest : List Char} {n : Nat} {lexeme : Lexeme}
    (h : scanWord (c :: rest) = .ok lexeme) (hn : lexeme.tail ≤ n) :
    scanWord (c :: rest.take n) = .ok lexeme := by
  rw [← List.take_succ_cons]
  unfold scanWord at h ⊢
  dsimp only at h ⊢
  split at h
  · cases h
  · next hw =>
    cases h
    have hwidth : Word.width (c :: rest) ≤ n + 1 := Nat.le_add_of_sub_le hn
    rw [Word.width_take hwidth, if_neg hw, List.take_take, Nat.min_eq_left hwidth]

variable [CharacterNames]

theorem scanString_take {rest : List Char} {n : Nat} {lexeme : Lexeme}
    (h : scanString rest = .ok lexeme) (hn : lexeme.tail ≤ n) :
    scanString (rest.take n) = .ok lexeme := by
  unfold scanString at h ⊢
  split at h
  · next w hw =>
    cases h
    have hbody : min (w - 1) n = w - 1 := Nat.min_eq_left (Nat.le_trans (Nat.sub_le _ _) hn)
    rw [stringWidth_take hw hn]
    simp only [List.take_take, hbody]
  · cases h

theorem scanCharacter_take {rest : List Char} {n : Nat} {lexeme : Lexeme}
    (h : scanCharacter rest = .ok lexeme) (hn : lexeme.tail ≤ n) :
    scanCharacter (rest.take n) = .ok lexeme := by
  unfold scanCharacter at h ⊢
  obtain ⟨w, hw, rfl⟩ := exists_of_map_eq_ok h
  rw [CharacterLiteral.width_take hw hn]
  simp only [Except.map, List.take_take, Nat.min_eq_left hn]

/-- A lexeme is scanned in the same way if the text is cut after it. -/
theorem Lexeme.scan_take {c : Char} {rest : List Char} {n : Nat} {lexeme : Lexeme}
    (h : Lexeme.scan c rest = .ok lexeme) (hn : lexeme.tail ≤ n) :
    Lexeme.scan c (rest.take n) = .ok lexeme := by
  unfold Lexeme.scan at h ⊢
  split at h
  case h_1 | h_2 | h_3 | h_4 | h_5 | h_6 => exact h
  case h_7 =>
    split at h
    · next hat =>
      cases h
      have hcut : (rest.take n).head? = some '@' := by
        rw [List.head?_take, if_neg (Nat.ne_of_gt hn), hat]
      rw [if_pos hcut]
    · next hat =>
      have hcut : (rest.take n).head? ≠ some '@' := fun hcut => hat (head?_of_head?_take hcut)
      rw [if_neg hcut]
      exact h
  case h_8 => exact scanString_take h hn
  case h_9 => exact scanCharacter_take h hn
  case h_10 => exact Sharp.scan_take h hn
  case h_11 => exact scanWord_take h hn

end LispXref
