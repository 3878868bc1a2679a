import LispXref.Form.Basic
import LispXref.Lexeme.Scan

/-! What may stand between two tokens, said without skipping it, and that whatever is
skipped is such a text. -/
namespace LispXref

/-- Blank characters, comments and interpreter lines in any order. The last two need
not go on to the end of the line, since what follows may be taken as another one. -/
inductive IsGap : List Char → Prop where
  | nil : IsGap []
  | blank {c : Char} {rest : List Char} :
      isBlank c = true → IsGap rest → IsGap (c :: rest)
  | comment {body rest : List Char} :
      '\n' ∉ body → IsGap rest → IsGap (';' :: (body ++ rest))
  | interpreter {body rest : List Char} :
      '\n' ∉ body → IsGap rest → IsGap ('#' :: '!' :: (body ++ rest))

namespace Gap

mutual

theorem width_le : (text : List Char) → width text ≤ text.length
  | [] => Nat.le_refl _
  | c :: rest => by
    rw [width.eq_def]
    split
    · simp
    · next rest' h =>
      obtain ⟨rfl, rfl⟩ := List.cons.inj h
      have := widthInComment_le rest'
      simp only [List.length_cons]
      omega
    · next h =>
      obtain ⟨rfl, rfl⟩ := List.cons.inj h
      have := width_le rest
      have := widthInComment_le rest
      simp only [List.length_cons]
      split
      · omega
      · split <;> omega

theorem widthInComment_le : (text : List Char) → widthInComment text ≤ text.length
  | [] => Nat.le_refl _
  | c :: rest => by
    have := width_le rest
    have := widthInComment_le rest
    rw [widthInComment, List.length_cons]
    split <;> omega

end

mutual

theorem isGap_take_width : (text : List Char) → IsGap (text.take (width text))
  | [] => .nil
  | c :: rest => by
    rw [width.eq_def]
    split
    · next h => simp at h
    · next rest' h =>
      obtain ⟨rfl, rfl⟩ := List.cons.inj h
      obtain ⟨body, after, heq, hbody, hafter⟩ := take_widthInComment rest'
      rw [List.take_succ_cons, List.take_succ_cons, heq]
      exact .interpreter hbody hafter
    · next h =>
      obtain ⟨rfl, rfl⟩ := List.cons.inj h
      split
      · next hb =>
        rw [List.take_succ_cons]
        exact .blank hb (isGap_take_width rest)
      · split
        · next hc =>
          obtain ⟨body, after, heq, hbody, hafter⟩ := take_widthInComment rest
          rw [List.take_succ_cons, heq, hc]
          exact .comment hbody hafter
        · exact .nil

/-- The rest of a comment and what is skipped after it. -/
theorem take_widthInComment : (text : List Char) → ∃ body after,
    text.take (widthInComment text) = body ++ after ∧ '\n' ∉ body ∧ IsGap after
  | [] => ⟨[], [], rfl, List.not_mem_nil, .nil⟩
  | c :: rest => by
    rw [widthInComment]
    split
    · next hc =>
      refine ⟨[], c :: rest.take (width rest), rfl, List.not_mem_nil, ?_⟩
      rw [hc]
      exact .blank (by decide) (isGap_take_width rest)
    · next hc =>
      obtain ⟨body, after, heq, hbody, hafter⟩ := take_widthInComment rest
      refine ⟨c :: body, after, by rw [List.take_succ_cons, heq, List.cons_append], ?_, hafter⟩
      intro h
      rcases List.mem_cons.mp h with h | h
      · exact hc h.symm
      · exact hbody h

end

mutual

/-- What follows a gap does not open with another one. -/
theorem width_drop_width : (text : List Char) → width (text.drop (width text)) = 0
  | [] => rfl
  | c :: rest => by
    rw [width.eq_def (c :: rest)]
    split
    · next h => cases h
    · next body h =>
      obtain ⟨rfl, rfl⟩ := List.cons.inj h
      exact width_drop_widthInComment body
    · next h =>
      obtain ⟨rfl, rfl⟩ := List.cons.inj h
      split
      · exact width_drop_width rest
      · split
        · exact width_drop_widthInComment rest
        · next hline hblank hcomment =>
          rw [List.drop_zero, width, if_neg hblank, if_neg hcomment]
          exact hline

theorem width_drop_widthInComment : (text : List Char) →
    width (text.drop (widthInComment text)) = 0
  | [] => rfl
  | c :: rest => by
    rw [widthInComment]
    split
    · exact width_drop_width rest
    · exact width_drop_widthInComment rest

end

/-- Where a gap stands, something is skipped. -/
theorem width_pos_of_isGap {chars : List Char} (h : IsGap chars) (hne : chars ≠ [])
    (rest : List Char) : 0 < width (chars ++ rest) := by
  rw [width.eq_def]
  split
  · next hnil => exact absurd (List.append_eq_nil_iff.mp hnil).1 hne
  · exact Nat.succ_pos _
  · next c more hline hcons =>
    split
    · exact Nat.succ_pos _
    · next hblank =>
      split
      · exact Nat.succ_pos _
      · next hcomment =>
        cases h with
        | nil => exact absurd rfl hne
        | blank hb _ =>
          obtain ⟨rfl, -⟩ := List.cons.inj hcons
          exact absurd hb hblank
        | comment _ _ =>
          obtain ⟨rfl, -⟩ := List.cons.inj hcons
          exact absurd rfl hcomment
        | interpreter _ _ =>
          obtain ⟨rfl, rfl⟩ := List.cons.inj hcons
          exact absurd rfl (hline _ rfl)

end Gap

/-- Between two offsets of a text there is a gap, possibly an empty one. -/
structure GapIn (text : List Char) (start stop : Nat) : Prop where
  le : start ≤ stop
  stop_le : stop ≤ text.length
  isGap : IsGap (Span.slice ⟨start, stop⟩ text)

/-- Where nothing would be skipped, a gap is empty. -/
theorem GapIn.eq_of_width_eq_zero {text : List Char} {start stop : Nat}
    (h : GapIn text start stop) (hwidth : Gap.width (text.drop start) = 0) : start = stop := by
  rcases Nat.eq_or_lt_of_le h.le with heq | hlt
  · exact heq
  · have hslice : Span.slice ⟨start, stop⟩ text ≠ [] := by
      apply List.ne_nil_of_length_pos
      have := h.stop_le
      simp only [Span.slice, List.length_take, List.length_drop]
      omega
    have hpos := Gap.width_pos_of_isGap h.isGap hslice ((text.drop start).drop (stop - start))
    rw [Span.slice, List.take_append_drop, hwidth] at hpos
    exact absurd hpos (Nat.lt_irrefl 0)

theorem gapIn_width {text : List Char} {cursor : Nat} (h : cursor ≤ text.length) :
    GapIn text cursor (cursor + Gap.width (text.drop cursor)) where
  le := Nat.le_add_right _ _
  stop_le := by
    have := Gap.width_le (text.drop cursor)
    rw [List.length_drop] at this
    omega
  isGap := by
    have := Gap.isGap_take_width (text.drop cursor)
    simpa only [Span.slice, Nat.add_sub_cancel_left] using this

end LispXref
