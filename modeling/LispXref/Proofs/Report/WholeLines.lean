import Mathlib.Logic.ExistsUnique
import LispXref.Report

/-! A snippet holds whole lines: those that its match touches, and around them as many as were
asked for and are there. -/
namespace LispXref

/-- The lines of a text. After a newline at the very end there is an empty one. -/
def linesOf (text : List Char) : List (List Char) := text.splitOn '\n'

/-- An offset into lines that newlines join falls on the line with some number: on one of its
characters or right behind the last of them. -/
inductive OnLine : List (List Char) → Nat → Nat → Prop where
  | first {line : List Char} {rest : List (List Char)} {offset : Nat} :
      offset ≤ line.length → OnLine (line :: rest) offset 1
  | later {line : List Char} {rest : List (List Char)} {offset number : Nat} :
      OnLine rest offset number → OnLine (line :: rest) (line.length + 1 + offset) (number + 1)

/-- The lines from one number to another, joined by newlines. -/
def joinLines (lines : List (List Char)) (first last : Nat) : List Char :=
  ['\n'].intercalate ((lines.drop (first - 1)).take (last + 1 - first))

section

variable {text line rest : List Char}

theorem linesOf_append_newline (before after : List Char) :
    linesOf (before ++ '\n' :: after) = linesOf before ++ linesOf after := by
  simp only [linesOf, List.splitOn_eq_splitOnP]
  exact List.splitOnP_append_cons before after rfl

theorem linesOf_of_not_mem (h : '\n' ∉ line) : linesOf line = [line] := by
  have hline : ∀ l ∈ [line], '\n' ∉ l := by simpa using h
  have hsplit := List.splitOn_intercalate '\n' hline (List.cons_ne_nil _ _)
  rwa [List.intercalate_singleton] at hsplit

theorem linesOf_cons (h : '\n' ∉ line) (rest : List Char) :
    linesOf (line ++ '\n' :: rest) = line :: linesOf rest := by
  rw [linesOf_append_newline, linesOf_of_not_mem h, List.singleton_append]

theorem intercalate_linesOf (text : List Char) : ['\n'].intercalate (linesOf text) = text :=
  List.intercalate_splitOn '\n'

/-- What holds of a last line, and of a text with one more line if it holds of the text, holds of
every text. -/
theorem lines_induction {motive : List Char → Prop} (last : ∀ line, '\n' ∉ line → motive line)
    (cons : ∀ line rest, '\n' ∉ line → motive rest → motive (line ++ '\n' :: rest))
    (text : List Char) : motive text := by
  induction hlength : text.length using Nat.strongRecOn generalizing text with
  | ind length ih =>
    by_cases hmem : '\n' ∈ text
    · obtain ⟨line, rest, rfl, hline⟩ := List.eq_append_cons_of_mem hmem
      refine cons line rest hline (ih rest.length ?_ rest rfl)
      rw [← hlength, List.length_append, List.length_cons]
      omega
    · exact last text hmem

theorem length_linesOf (text : List Char) : (linesOf text).length = text.count '\n' + 1 := by
  induction text using lines_induction with
  | last line hline => rw [linesOf_of_not_mem hline, List.count_eq_zero_of_not_mem hline]; rfl
  | cons line rest hline ih =>
    rw [linesOf_cons hline, List.length_cons, ih, List.count_append, List.count_cons_self,
      List.count_eq_zero_of_not_mem hline, Nat.zero_add]

theorem onLine_cons_iff {lines : List (List Char)} {offset number : Nat} :
    OnLine (line :: lines) offset number ↔
      (offset ≤ line.length ∧ number = 1) ∨
        ∃ offset' number', OnLine lines offset' number' ∧
          offset = line.length + 1 + offset' ∧ number = number' + 1 := by
  constructor
  · intro h
    cases h with
    | first hle => exact .inl ⟨hle, rfl⟩
    | later hrest => exact .inr ⟨_, _, hrest, rfl, rfl⟩
  · rintro (⟨hle, rfl⟩ | ⟨offset', number', hrest, rfl, rfl⟩)
    · exact .first hle
    · exact .later hrest

/-- Every offset of a text falls on the line whose number is one more than the newlines before
it, and on no other. -/
theorem onLine_linesOf_iff {offset number : Nat} :
    OnLine (linesOf text) offset number ↔
      offset ≤ text.length ∧ number = (text.take offset).count '\n' + 1 := by
  have hnone {line : List Char} (hline : '\n' ∉ line) (kept : Nat) :
      (line.take kept).count '\n' = 0 :=
    List.count_eq_zero_of_not_mem fun h => hline (List.mem_of_mem_take h)
  induction text using lines_induction generalizing offset number with
  | last line hline =>
    have hempty (offset number : Nat) : ¬ OnLine [] offset number := nofun
    rw [linesOf_of_not_mem hline, onLine_cons_iff, hnone hline]
    simp [hempty]
  | cons line rest hline ih =>
    rw [linesOf_cons hline, onLine_cons_iff]
    by_cases hle : offset ≤ line.length
    · rw [List.take_append_of_le_length hle, hnone hline, List.length_append]
      constructor
      · rintro (⟨-, rfl⟩ | ⟨offset', number', -, rfl, -⟩)
        · exact ⟨by omega, rfl⟩
        · omega
      · rintro ⟨-, rfl⟩
        exact .inl ⟨hle, rfl⟩
    · obtain ⟨offset', rfl⟩ := Nat.exists_eq_add_of_lt (Nat.lt_of_not_le hle)
      have htake : (line ++ '\n' :: rest).take (line.length + offset' + 1)
          = line ++ '\n' :: rest.take offset' := by
        rw [Nat.add_assoc, List.take_length_add_append, List.take_succ_cons]
      rw [htake, List.count_append, List.count_cons_self, List.count_eq_zero_of_not_mem hline,
        List.length_append, List.length_cons]
      constructor
      · rintro (⟨hle', -⟩ | ⟨offset'', number', hrest, hoffset, rfl⟩)
        · omega
        · obtain rfl : offset' = offset'' := by omega
          obtain ⟨hoffset', rfl⟩ := ih.mp hrest
          exact ⟨by omega, by omega⟩
      · rintro ⟨hlength, rfl⟩
        exact .inr ⟨offset', _, ih.mpr ⟨by omega, rfl⟩, by omega, by omega⟩

theorem existsUnique_onLine {offset : Nat} (h : offset ≤ text.length) :
    ∃! number, OnLine (linesOf text) offset number :=
  ⟨_, onLine_linesOf_iff.mpr ⟨h, rfl⟩, fun _ hother => (onLine_linesOf_iff.mp hother).2⟩

end

/-- What follows begins at the beginning of a line. -/
def EndsLine (before : List Char) : Prop := before = [] ∨ ∃ earlier, before = earlier ++ ['\n']

/-- What stands before stops at the end of a line. -/
def StartsAfterLine (after : List Char) : Prop := after = [] ∨ ∃ later, after = '\n' :: later

/-- What stands between the two begins at the beginning of a line and stops at the end of one. -/
structure BetweenLines (before after : List Char) : Prop where
  begins : EndsLine before
  stops : StartsAfterLine after

/-- The lines of what stands there are lines of the whole text. -/
theorem BetweenLines.lines_eq {before after : List Char} (h : BetweenLines before after)
    (code : List Char) :
    ((linesOf (before ++ (code ++ after))).drop (before.count '\n')).take (code.count '\n' + 1)
      = linesOf code := by
  have hafter : ∃ more, linesOf (code ++ after) = linesOf code ++ more := by
    rcases h.stops with rfl | ⟨later, rfl⟩
    · exact ⟨[], by rw [List.append_nil, List.append_nil]⟩
    · exact ⟨_, linesOf_append_newline code later⟩
  have hbefore : (linesOf (before ++ (code ++ after))).drop (before.count '\n')
      = linesOf (code ++ after) := by
    rcases h.begins with rfl | ⟨earlier, rfl⟩
    · rfl
    · rw [List.append_assoc, List.singleton_append, linesOf_append_newline, List.count_append,
        List.count_singleton_self, ← length_linesOf, List.drop_left]
  obtain ⟨more, hmore⟩ := hafter
  rw [hbefore, hmore, ← length_linesOf, List.take_left]

namespace Snippet

section

variable {line text : List Char} {offset : Nat}

theorem findIdx?_of_not_mem (h : '\n' ∉ line) : line.findIdx? (· = '\n') = none := by
  rw [List.findIdx?_eq_none_iff]
  intro c hc
  exact decide_eq_false fun heq => h (heq ▸ hc)

theorem findIdx?_newline (h : '\n' ∉ line) (rest : List Char) :
    (line ++ '\n' :: rest).findIdx? (· = '\n') = some line.length := by
  rw [List.findIdx?_append, findIdx?_of_not_mem h]
  simp [List.findIdx?_cons]

/-- The text before an offset, cut where the line of the offset begins. -/
theorem lineStart_cuts (hoffset : offset ≤ text.length) :
    ∃ before line, text.take offset = before ++ line ∧ '\n' ∉ line ∧ EndsLine before ∧
      lineStart text offset = before.length := by
  have hlength : (text.take offset).length = offset := by
    rw [List.length_take, Nat.min_eq_left hoffset]
  by_cases hmem : '\n' ∈ text.take offset
  · obtain ⟨line, earlier, hsplit, hline⟩ :=
      List.eq_append_cons_of_mem (List.mem_reverse.mpr hmem)
    have htake : text.take offset = (earlier.reverse ++ ['\n']) ++ line.reverse := by
      rw [← List.reverse_reverse (text.take offset), hsplit]
      simp
    refine ⟨_, _, htake, by simpa using hline, .inr ⟨_, rfl⟩, ?_⟩
    have hsize := congrArg List.length htake
    simp only [List.length_append, List.length_reverse, List.length_singleton] at hsize
    rw [lineStart, newlineBefore?, hsplit, findIdx?_newline hline]
    simp only [Option.map_some, List.length_append, List.length_reverse, List.length_singleton]
    omega
  · refine ⟨[], _, rfl, hmem, .inl rfl, ?_⟩
    rw [lineStart, newlineBefore?, findIdx?_of_not_mem (mt List.mem_reverse.mp hmem)]
    rfl

/-- The text from an offset on, cut where the line of the offset ends. -/
theorem lineEnd_cuts (hoffset : offset ≤ text.length) :
    ∃ line after, text.drop offset = line ++ after ∧ '\n' ∉ line ∧ StartsAfterLine after ∧
      lineEnd text offset = offset + line.length := by
  by_cases hmem : '\n' ∈ text.drop offset
  · obtain ⟨line, later, hsplit, hline⟩ := List.eq_append_cons_of_mem hmem
    refine ⟨line, _, hsplit, hline, .inr ⟨later, rfl⟩, ?_⟩
    rw [lineEnd, newlineFrom?, hsplit, findIdx?_newline hline]
    rfl
  · refine ⟨_, [], (List.append_nil _).symm, hmem, .inl rfl, ?_⟩
    rw [lineEnd, newlineFrom?, findIdx?_of_not_mem hmem, List.length_drop,
      Nat.add_sub_cancel' hoffset]
    rfl

end

/-- Going back from the beginning of a line passes as many newlines as it may and as there are, and
comes to the beginning of a line. -/
theorem startAbove_cuts (count : Nat) {before : List Char} (hbefore : EndsLine before)
    (rest : List Char) :
    ∃ front above, before = front ++ above ∧ EndsLine front ∧
      startAbove (before ++ rest) before.length count = front.length ∧
      above.count '\n' = min count (before.count '\n') := by
  induction count generalizing before rest with
  | zero => exact ⟨before, [], (List.append_nil _).symm, hbefore, rfl, by simp⟩
  | succ count ih =>
    rcases hbefore with rfl | ⟨earlier, rfl⟩
    · exact ⟨[], [], rfl, .inl rfl, rfl, by simp⟩
    · -- one step leaves the newline and the line before it
      have htext : earlier ++ ['\n'] ++ rest = earlier ++ '\n' :: rest := by simp
      have hlength : (earlier ++ ['\n']).length = earlier.length + 1 := by simp
      have hle : earlier.length ≤ (earlier ++ '\n' :: rest).length := by simp
      obtain ⟨before, line, htake, hline, hbefore, hstart⟩ := lineStart_cuts hle
      rw [List.take_left] at htake
      obtain ⟨front, above, rfl, hfront, hrun, hcount⟩ := ih hbefore (line ++ '\n' :: rest)
      refine ⟨front, above ++ (line ++ ['\n']), by simp [htake], hfront, ?_, ?_⟩
      · rw [htext, hlength, startAbove, if_neg (Nat.succ_ne_zero _), Nat.add_sub_cancel, hstart]
        rw [htake, List.append_assoc]
        exact hrun
      · rw [htake]
        simp only [List.count_append, List.count_singleton_self,
          List.count_eq_zero_of_not_mem hline] at hcount ⊢
        omega

/-- Going on from the end of a line passes as many newlines as it may and as there are, and comes
to the end of a line. -/
theorem stopBelow_cuts (count : Nat) {text : List Char} {stop : Nat} (hstop : stop ≤ text.length)
    (hafter : StartsAfterLine (text.drop stop)) :
    ∃ below after, text.drop stop = below ++ after ∧ StartsAfterLine after ∧
      stopBelow text stop count = stop + below.length ∧
      below.count '\n' = min count ((text.drop stop).count '\n') := by
  induction count generalizing stop with
  | zero => exact ⟨[], text.drop stop, rfl, hafter, rfl, by simp⟩
  | succ count ih =>
    rcases hafter with hnil | ⟨later, hlater⟩
    · refine ⟨[], [], hnil, .inl rfl, ?_, by simp [hnil]⟩
      rw [stopBelow, if_pos (List.drop_eq_nil_iff.mp hnil)]
      rfl
    · have hlt : stop < text.length := by
        rw [← Nat.not_le]
        intro hle
        rw [List.drop_eq_nil_of_le hle] at hlater
        cases hlater
      have hnext : text.drop (stop + 1) = later := by
        rw [← List.drop_drop, hlater, List.drop_succ_cons, List.drop_zero]
      obtain ⟨line, after, hdrop, hline, hafter, hend⟩ := lineEnd_cuts hlt
      have hrest : text.drop (stop + 1 + line.length) = after := by
        rw [← List.drop_drop, hdrop, List.drop_left]
      have hle : stop + 1 + line.length ≤ text.length := by
        have hsize := congrArg List.length hdrop
        rw [List.length_drop, List.length_append] at hsize
        omega
      obtain ⟨below, after, hbelow, hafter, hrun, hcount⟩ := ih hle (hrest ▸ hafter)
      refine ⟨'\n' :: (line ++ below), after, ?_, hafter, ?_, ?_⟩
      · rw [hlater, ← hnext, hdrop, ← hrest, hbelow, List.cons_append, List.append_assoc]
      · rw [stopBelow, if_neg (Nat.not_le.mpr hlt), hend, hrun]
        simp only [List.length_cons, List.length_append]
        omega
      · rw [hlater, ← hnext, hdrop, ← hrest]
        simp only [List.count_cons_self, List.count_append, hcount,
          List.count_eq_zero_of_not_mem hline]
        omega

section

variable {text : List Char} {offset : Nat}

/-- The text before an offset, cut at the beginning of a line `count` above that of the offset. -/
theorem startAbove_lineStart_cuts (hoffset : offset ≤ text.length) (count : Nat) :
    ∃ before leading, text.take offset = before ++ leading ∧ EndsLine before ∧
      startAbove text (lineStart text offset) count = before.length ∧
      leading.count '\n' = min count ((text.take offset).count '\n') := by
  obtain ⟨earlier, line, hearlier, hline, hends, hstart⟩ := lineStart_cuts hoffset
  have htext : earlier ++ (line ++ text.drop offset) = text := by
    rw [← List.append_assoc, ← hearlier, List.take_append_drop]
  obtain ⟨before, above, rfl, hbegins, habove, hcount⟩ :=
    startAbove_cuts count hends (line ++ text.drop offset)
  rw [htext, ← hstart] at habove
  refine ⟨before, above ++ line, by rw [hearlier, List.append_assoc], hbegins, habove, ?_⟩
  simp only [hearlier, List.count_append, List.count_eq_zero_of_not_mem hline, Nat.add_zero]
    at hcount ⊢
  exact hcount

/-- The text from an offset on, cut at the end of a line `count` below that of the offset. -/
theorem stopBelow_lineEnd_cuts (hoffset : offset ≤ text.length) (count : Nat) :
    ∃ trailing after, text.drop offset = trailing ++ after ∧ StartsAfterLine after ∧
      stopBelow text (lineEnd text offset) count = offset + trailing.length ∧
      trailing.count '\n' = min count ((text.drop offset).count '\n') := by
  obtain ⟨line, later, hlater, hline, hstarts, hend⟩ := lineEnd_cuts hoffset
  have hdrop : text.drop (offset + line.length) = later := by
    rw [← List.drop_drop, hlater, List.drop_left]
  have hle : offset + line.length ≤ text.length := by
    have hsize := congrArg List.length hlater
    rw [List.length_drop, List.length_append] at hsize
    omega
  obtain ⟨below, after, hbelow, hstops, hrun, hcount⟩ :=
    stopBelow_cuts count hle (hdrop ▸ hstarts)
  rw [hdrop] at hbelow hcount
  refine ⟨line ++ below, after, by rw [hlater, hbelow, List.append_assoc], hstops, ?_, ?_⟩
  · rw [hend, hrun, List.length_append, Nat.add_assoc]
  · rw [hlater, List.count_append, List.count_append, hcount,
      List.count_eq_zero_of_not_mem hline, Nat.zero_add, Nat.zero_add]

end

end Snippet

namespace Match

/-- A snippet in its document: the match with the rest of its lines on both sides, between
whole lines. -/
structure Cut (m : Match) (context : Nat) (before leading trailing after : List Char) : Prop where
  code : (m.snippet context).code = leading ++ (m.text ++ trailing)
  firstLine : (m.snippet context).firstLine = before.count '\n' + 1
  left : m.document.text.take m.form.start = before ++ leading
  right : m.document.text.drop m.form.stop = trailing ++ after
  between : BetweenLines before after
  above : leading.count '\n' = min context ((m.document.text.take m.form.start).count '\n')
  below : trailing.count '\n' = min context ((m.document.text.drop m.form.stop).count '\n')

variable {m : Match} {context : Nat}

/-- A text is what stands before a match, the match and what stands after it. -/
theorem text_eq (hspan : m.form.start ≤ m.form.stop) :
    m.document.text = m.document.text.take m.form.start ++
      (m.text ++ m.document.text.drop m.form.stop) := by
  have hdrop : m.document.text.drop m.form.stop
      = (m.document.text.drop m.form.start).drop (m.form.stop - m.form.start) := by
    rw [List.drop_drop, Nat.add_sub_cancel' hspan]
  rw [Match.text, Span.slice, hdrop]
  exact (List.take_append_drop m.form.start _).symm.trans
    (congrArg _ (List.take_append_drop _ _).symm)

theorem take_stop (hspan : m.form.start ≤ m.form.stop) :
    m.document.text.take m.form.stop = m.document.text.take m.form.start ++ m.text := by
  have hstop : m.form.stop = m.form.start + (m.form.stop - m.form.start) :=
    (Nat.add_sub_cancel' hspan).symm
  rw [hstop, List.take_add]
  rfl

/-- What stands between two places around a match. -/
theorem slice_around {before leading trailing after : List Char}
    (hspan : m.form.start ≤ m.form.stop) (hstop : m.form.stop ≤ m.document.text.length)
    (hleft : m.document.text.take m.form.start = before ++ leading)
    (hright : m.document.text.drop m.form.stop = trailing ++ after) :
    Span.slice ⟨before.length, m.form.stop + trailing.length⟩ m.document.text
      = leading ++ (m.text ++ trailing) := by
  have hlength : m.form.stop = before.length + leading.length + m.text.length := by
    have hsize := congrArg List.length (take_stop hspan)
    rw [hleft, List.length_take, Nat.min_eq_left hstop, List.length_append,
      List.length_append] at hsize
    exact hsize
  have hdrop : m.document.text.drop before.length = leading ++ (m.text ++ trailing) ++ after := by
    rw [text_eq hspan, hleft, hright, List.append_assoc, List.drop_left]
    simp only [List.append_assoc]
  have hwidth : m.form.stop + trailing.length - before.length
      = (leading ++ (m.text ++ trailing)).length := by
    simp only [List.length_append]
    omega
  simp only [Span.slice]
  rw [hdrop, hwidth, List.take_left]

theorem exists_cut (hspan : m.form.start ≤ m.form.stop)
    (hstop : m.form.stop ≤ m.document.text.length) (context : Nat) :
    ∃ before leading trailing after, m.Cut context before leading trailing after := by
  obtain ⟨before, leading, hleft, hbegins, hstart, habove⟩ :=
    Snippet.startAbove_lineStart_cuts (Nat.le_trans hspan hstop) context
  obtain ⟨trailing, after, hright, hstops, hend, hbelow⟩ :=
    Snippet.stopBelow_lineEnd_cuts hstop context
  have hfront : m.document.text.take before.length = before := by
    rw [text_eq hspan, hleft, List.append_assoc, List.take_left]
  have hsnippet : m.snippet context
      = ⟨before.count '\n' + 1, leading ++ (m.text ++ trailing)⟩ := by
    simp only [snippet, start, stop, Nat.add_sub_cancel, hstart, hend, hfront,
      slice_around hspan hstop hleft hright]
  exact ⟨before, leading, trailing, after, congrArg Snippet.code hsnippet,
    congrArg Snippet.firstLine hsnippet, hleft, hright, ⟨hbegins, hstops⟩, habove, hbelow⟩

section

variable {before leading trailing after : List Char}

theorem Cut.text_eq (h : m.Cut context before leading trailing after)
    (hspan : m.form.start ≤ m.form.stop) :
    m.document.text = before ++ ((m.snippet context).code ++ after) := by
  rw [Match.text_eq hspan, h.left, h.right, h.code]
  simp only [List.append_assoc]

/-- The numbers of the first and the last line that are shown, and the one of the match between
them. -/
theorem Cut.numbers (h : m.Cut context before leading trailing after)
    (hspan : m.form.start ≤ m.form.stop) {a b : Nat}
    (ha : a = (m.document.text.take m.form.start).count '\n' + 1)
    (hb : b = (m.document.text.take m.form.stop).count '\n' + 1) :
    before.count '\n' + 1 = max 1 (a - context) ∧
    before.count '\n' + (m.snippet context).code.count '\n' + 1
      = min (linesOf m.document.text).length (b + context) ∧
    before.count '\n' + 1 ≤ a ∧
    a ≤ before.count '\n' + (m.snippet context).code.count '\n' + 1 := by
  have htext := congrArg (List.count '\n') (Match.text_eq hspan)
  have hleft := congrArg (List.count '\n') h.left
  have hcode := congrArg (List.count '\n') h.code
  simp only [List.count_append] at htext hleft hcode
  rw [take_stop hspan, List.count_append] at hb
  rw [length_linesOf, hcode, h.below]
  have habove := h.above
  omega

end

/-- The snippet of a match anywhere in a document, with any number of lines around, holds the
lines from so many above the one on which the match starts to so many below the one on which it
stops, as far as there are any. So the match is in it, and its line is among those shown. -/
theorem snippet_holds_whole_lines (m : Match) (context : Nat) (hspan : m.start ≤ m.stop)
    (hstop : m.stop ≤ m.document.text.length + 1) :
    (∃! a, OnLine (linesOf m.document.text) (m.start - 1) a) ∧
    (∃! b, OnLine (linesOf m.document.text) (m.stop - 1) b) ∧
    ∀ a b, OnLine (linesOf m.document.text) (m.start - 1) a →
      OnLine (linesOf m.document.text) (m.stop - 1) b →
      m.snippet context = ⟨max 1 (a - context), joinLines (linesOf m.document.text)
        (max 1 (a - context)) (min (linesOf m.document.text).length (b + context))⟩ ∧
      m.text <:+: (m.snippet context).code ∧ m.line = a ∧
      (m.snippet context).firstLine ≤ m.line ∧
      m.line < (m.snippet context).firstLine + (linesOf (m.snippet context).code).length := by
  have hle : m.form.start ≤ m.form.stop := Nat.le_of_succ_le_succ hspan
  have hlength : m.form.stop ≤ m.document.text.length := Nat.le_of_succ_le_succ hstop
  refine ⟨existsUnique_onLine (Nat.le_trans hle hlength), existsUnique_onLine hlength, ?_⟩
  intro a b ha hb
  have hline : m.line = a := (onLine_linesOf_iff.mp ha).2.symm
  obtain ⟨before, leading, trailing, after, hcut⟩ := exists_cut hle hlength context
  obtain ⟨hfirst, hlast, hge, hnot⟩ :=
    hcut.numbers hle (onLine_linesOf_iff.mp ha).2 (onLine_linesOf_iff.mp hb).2
  have hcode : joinLines (linesOf m.document.text) (before.count '\n' + 1)
      (before.count '\n' + (m.snippet context).code.count '\n' + 1)
        = (m.snippet context).code := by
    have hlines := hcut.between.lines_eq (m.snippet context).code
    rw [← hcut.text_eq hle] at hlines
    have hsize : before.count '\n' + (m.snippet context).code.count '\n' + 1 + 1
        - (before.count '\n' + 1) = (m.snippet context).code.count '\n' + 1 := by omega
    rw [joinLines, hsize, Nat.add_sub_cancel, hlines, intercalate_linesOf]
  refine ⟨?_, ⟨leading, trailing, ?_⟩, hline, ?_, ?_⟩
  · rw [← hfirst, ← hlast, hcode, ← hcut.firstLine]
  · rw [hcut.code, List.append_assoc]
  · rwa [hline, hcut.firstLine]
  · rw [hline, hcut.firstLine, length_linesOf]
    omega

/-- A match on two lines in the middle of a document, shown with all that is around, which is
one line above and the empty one after the last newline. -/
theorem snippet_holds_whole_lines_all :
    let m : Match := ⟨⟨CodeText.ofString "a.el", "x\n (f\n y)\n".toList⟩, .list ⟨⟨3, 9⟩, none⟩ []⟩
    (m.start ≤ m.stop ∧ m.stop ≤ m.document.text.length + 1) ∧
      OnLine (linesOf m.document.text) (m.start - 1) 2 ∧
      OnLine (linesOf m.document.text) (m.stop - 1) 3 ∧
      m.snippet 5 = ⟨1, joinLines (linesOf m.document.text) 1 4⟩ ∧
      m.text <:+: (m.snippet 5).code ∧ m.line = 2 := by
  intro m
  have hspan : m.start ≤ m.stop ∧ m.stop ≤ m.document.text.length + 1 := by decide
  have ha : OnLine (linesOf m.document.text) (m.start - 1) 2 :=
    onLine_linesOf_iff.mpr (by decide)
  have hb : OnLine (linesOf m.document.text) (m.stop - 1) 3 :=
    onLine_linesOf_iff.mpr (by decide)
  obtain ⟨hsnippet, hinfix, hline, -⟩ :=
    (m.snippet_holds_whole_lines 5 hspan.1 hspan.2).2.2 2 3 ha hb
  exact ⟨hspan, ha, hb, hsnippet, hinfix, hline⟩

end Match

end LispXref
