import LispXref.Proofs.Reader.Concatenation
import LispXref.Proofs.Search.Matches

/-! What a search finds in two texts joined by a line end is what it finds in the first and then
what it finds in the second, further on. -/
namespace LispXref

namespace Search

variable (search : Search) {distance : Nat}

theorem inTop_shift (top : TopForm) :
    search.inTop (top.shift distance) = (search.inTop top).map (Form.shift distance) := by
  have hpassed : search.passesOver (top.shift distance).recorded
      = search.passesOver top.recorded := by
    rw [passesOver_recorded, passesOver_recorded]
    rfl
  rw [inTop, inTop, hpassed]
  split
  · rfl
  · exact references_recast (by simp) top.form

end Search

theorem Span.slice_shift (span : Span) (before more : List Char) :
    (span.shift before.length).slice (before ++ more) = span.slice more := by
  have hdrop : (before ++ more).drop (span.start + before.length) = more.drop span.start := by
    rw [Nat.add_comm, ← List.drop_drop, List.drop_left]
  simp only [slice, shift, hdrop, Nat.add_sub_add_right]

/-- The row of a match if some text stands before its document. -/
def Match.rowAfter (before : List Char) (m : Match) : Nat × Nat × Nat × List Char :=
  (m.start + before.length, m.stop + before.length, m.line + before.count '\n', m.text)

theorem Match.row_shift (name : CodeText) (before more : List Char) (form : Form) :
    (Match.mk ⟨name, before ++ more⟩ (form.shift before.length)).row
      = (Match.mk ⟨name, more⟩ form).rowAfter before := by
  have hline : ((before ++ more).take (form.start + before.length)).count '\n'
      = (more.take form.start).count '\n' + before.count '\n' := by
    rw [Nat.add_comm form.start, List.take_length_add_append, List.count_append, Nat.add_comm]
  simp only [row, rowAfter, start, stop, line, Match.text, Form.start_shift, Form.stop_shift,
    Form.span_shift, hline, Span.slice_shift]
  simp only [Nat.add_right_comm]

theorem Match.row_append {name : CodeText} {text more : List Char} {form : Form}
    (hform : form.start < form.stop) (hstop : form.stop ≤ text.length) :
    (Match.mk ⟨name, text ++ more⟩ form).row = (Match.mk ⟨name, text⟩ form).row := by
  have hcut : (Match.mk ⟨name, (text ++ more).take text.length⟩ form).row
      = (Match.mk ⟨name, text ++ more⟩ form).row := row_take hform hstop
  rw [List.take_left] at hcut
  exact hcut.symm

namespace Search

variable [CharacterNames]

section

variable {text : List Char} (h : Transcript.EndsInGap text) (more : List Char) (search : Search)
  (name : CodeText)

include h

theorem found_append :
    (search.inDocument ⟨name, text ++ '\n' :: more⟩).found
      = (search.inDocument ⟨name, text⟩).found
        ++ (search.inDocument ⟨name, more⟩).found.map (Form.shift (text.length + 1)) := by
  simp only [inDocument, Transcript.ofText_append h, List.flatMap_append, Transcript.shift,
    List.flatMap_map, List.map_flatMap, inTop_shift]

theorem rows_append :
    (search.inDocument ⟨name, text ++ '\n' :: more⟩).allMatches.map Match.row
      = (search.inDocument ⟨name, text⟩).allMatches.map Match.row
        ++ (search.inDocument ⟨name, more⟩).allMatches.map (Match.rowAfter (text ++ ['\n'])) := by
  simp only [Findings.allMatches, found_append h, List.map_append, List.map_map]
  congr 1
  · apply List.map_congr_left
    intro form hform
    obtain ⟨hlt, hle⟩ := within_of_mem_found hform
    exact Match.row_append hlt hle
  · apply List.map_congr_left
    intro form _
    have hrow := Match.row_shift name (text ++ ['\n']) more form
    rw [List.append_assoc, List.length_append] at hrow
    exact hrow

end

/-- Two texts joined by a line end, where only a gap follows the last form of the first, so that
it is read to its end without a fault and with nothing left open. The forms of the first are
read, with their names, and then those of the second, further on, and reading ends as it does in
the second: at the end of the text, or with the same fault further on. A search finds the matches
of the first and then those of the second, further on by as many characters and lines. -/
theorem concatenation_read_and_searched {text : List Char} (h : Transcript.EndsInGap text)
    (more : List Char) (search : Search) (name : CodeText) :
    (Transcript.ofText text).error = none ∧
    Transcript.ofText (text ++ '\n' :: more) =
      ⟨(Transcript.ofText text).tops
          ++ (Transcript.ofText more).tops.map (TopForm.shift (text.length + 1)),
        (Transcript.ofText more).error.map (ReadError.shift (text.length + 1))⟩ ∧
    let joined := search.inDocument ⟨name, text ++ '\n' :: more⟩
    let first := search.inDocument ⟨name, text⟩
    let second := search.inDocument ⟨name, more⟩
    joined.found = first.found ++ second.found.map (Form.shift (text.length + 1)) ∧
      joined.allMatches.map Match.row = first.allMatches.map Match.row
        ++ second.allMatches.map (Match.rowAfter (text ++ ['\n'])) :=
  ⟨Transcript.error_of_endsInGap h, Transcript.ofText_append h more,
    found_append h more search name, rows_append h more search name⟩

end Search

open CharacterNames in
/-- A comment that the line end closes, and a fault in the second text. -/
theorem Search.concatenation_read_and_searched_comment :
    Transcript.EndsInGap "(f) ; g".toList ∧
    (Transcript.ofText ("(f) ; g".toList ++ '\n' :: "f )".toList)).error
      = some ⟨.unexpectedClosing .round, 10⟩ ∧
    ((Search.mk "f" .occurrence true).inDocument
        ⟨"a.el", "(f) ; g".toList ++ '\n' :: "f )".toList⟩).allMatches.map Match.row
      = [(2, 3, 1, ['f']), (9, 10, 2, ['f'])] := by
  have hfirst : Transcript.ofText "(f) ; g".toList =
      ⟨[⟨.list ⟨⟨0, 3⟩, none⟩ [.atom ⟨⟨1, 2⟩, none⟩ (.symbol "f")], ["f"]⟩], none⟩ := by
    with_unfolding_all rfl
  have hsecond : Transcript.ofText "f )".toList =
      ⟨[⟨.atom ⟨⟨0, 1⟩, none⟩ (.symbol "f"), ["f"]⟩], some ⟨.unexpectedClosing .round, 2⟩⟩ := by
    with_unfolding_all rfl
  have hgap : Transcript.EndsInGap "(f) ; g".toList := by
    rw [Transcript.EndsInGap, hfirst]
    have hcomment : IsGap (';' :: ([' ', 'g'] ++ [])) := .comment (by decide) .nil
    exact .blank (by decide) hcomment
  obtain ⟨-, hread, -, hrows⟩ := concatenation_read_and_searched hgap "f )".toList
    ⟨"f", .occurrence, true⟩ "a.el"
  refine ⟨hgap, ?_, ?_⟩
  · rw [hread, hsecond]
    rfl
  · rw [hrows]
    simp only [inDocument, Findings.allMatches, hfirst, hsecond]
    with_unfolding_all rfl

end LispXref
