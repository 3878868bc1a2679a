import LispXref.Proofs.Reader.Truncation
import LispXref.Proofs.Search.Matches

/-! What a search finds in a text that ends in a fault, or in an open form, it finds in the
text up to the end of its last form. -/
namespace LispXref

section

variable [CharacterNames]

namespace Transcript

theorem stop_le_lastStop {text : List Char} {top : TopForm} (h : top ∈ (ofText text).tops) :
    top.form.stop ≤ (ofText text).lastStop := by
  have hordered := List.pairwise_map.mp (readsInTurn text).spread.ordered
  unfold lastStop
  cases hlast : (ofText text).tops.getLast? with
  | none =>
    rw [List.getLast?_eq_none_iff.mp hlast] at h
    exact absurd h List.not_mem_nil
  | some last =>
    have htiled := tiled_of_mem_tops (List.mem_of_getLast? hlast)
    obtain ⟨earlier, htops⟩ := List.getLast?_eq_some_iff.mp hlast
    rw [htops] at h hordered
    rcases List.mem_append.mp h with h | h
    · have hle := (List.pairwise_append.mp hordered).2.2 top h last (List.mem_singleton_self last)
      exact Nat.le_trans hle (Nat.le_of_lt htiled.within.1)
    · rw [List.mem_singleton.mp h]
      exact Nat.le_refl _

/-- Nothing that was read is lost if the text is cut after its last form. -/
theorem ofText_take_lastStop (text : List Char) :
    ofText (text.take (ofText text).lastStop) = ⟨(ofText text).tops, none⟩ := by
  cases hlast : (ofText text).tops.getLast? with
  | none =>
    rw [lastStop, hlast, List.getLast?_eq_none_iff.mp hlast, Option.elim_none, List.take_zero,
      ofText, readSteps_nil]
    rfl
  | some last =>
    have hmem := List.mem_of_getLast? hlast
    have hstop : (ofText text).lastStop = last.form.stop := by
      rw [lastStop, hlast]
      rfl
    rw [hstop, ofText_take_stop hmem (Form.mem_nodes_self last.form), List.filter_eq_self.mpr]
    intro top htop
    have hle := stop_le_lastStop htop
    rw [hstop] at hle
    exact decide_eq_true hle

end Transcript

namespace Search

variable (search : Search) (name : CodeText) (text : List Char)

theorem found_take_lastStop :
    (search.inDocument ⟨name, text.take (Transcript.ofText text).lastStop⟩).found
      = (search.inDocument ⟨name, text⟩).found := by
  simp only [inDocument, Transcript.ofText_take_lastStop]

theorem rows_take_lastStop :
    (search.inDocument ⟨name, text.take (Transcript.ofText text).lastStop⟩).allMatches.map
        Match.row
      = (search.inDocument ⟨name, text⟩).allMatches.map Match.row := by
  simp only [Findings.allMatches, List.map_map]
  rw [← found_take_lastStop search name text]
  apply List.map_congr_left
  intro form hform
  obtain ⟨hlt, hle⟩ := within_of_mem_found hform
  exact Match.row_take hlt (Nat.le_trans hle (List.length_take_le _ _))

/-- A text cut where any form inside one of those read from it ends is read without a fault:
the forms that end no later are read, with their names, and one that is open there is left
out. A search finds in a text, whatever comes after its last form, what it finds in the text
up to there, and reports it alike. -/
theorem truncation_at_form_boundary :
    (∀ top ∈ (Transcript.ofText text).tops, ∀ node ∈ top.form.nodes,
      Transcript.ofText (text.take node.stop) =
        ⟨(Transcript.ofText text).tops.filter (·.form.stop ≤ node.stop), none⟩) ∧
    let cut := search.inDocument ⟨name, text.take (Transcript.ofText text).lastStop⟩
    let whole := search.inDocument ⟨name, text⟩
    cut.error = none ∧ cut.found = whole.found ∧
      cut.allMatches.map Match.row = whole.allMatches.map Match.row := by
  refine ⟨fun top htop node hnode => Transcript.ofText_take_stop htop hnode, ?_,
    found_take_lastStop search name text, rows_take_lastStop search name text⟩
  simp only [inDocument, Transcript.ofText_take_lastStop]

end Search

end

open CharacterNames in
/-- A cut after a quoted symbol in an open list, before which a symbol was read. After the list
a bracket closes nothing. -/
theorem Search.truncation_at_form_boundary_open_list :
    (Transcript.ofText "f (g 'h) ) f".toList).error = some ⟨.unexpectedClosing .round, 9⟩ ∧
    Transcript.ofText ("f (g 'h) ) f".toList.take 7)
      = ⟨[⟨.atom ⟨⟨0, 1⟩, none⟩ (.symbol "f"), ["f"]⟩], none⟩ ∧
    let cut := (Search.mk "f" .occurrence true).inDocument ⟨"a.el", "f (g 'h) ) f".toList.take 8⟩
    let whole := (Search.mk "f" .occurrence true).inDocument ⟨"a.el", "f (g 'h) ) f".toList⟩
    cut.error = none ∧ cut.allMatches.map Match.row = whole.allMatches.map Match.row := by
  have htranscript : Transcript.ofText "f (g 'h) ) f".toList =
      ⟨[⟨.atom ⟨⟨0, 1⟩, none⟩ (.symbol "f"), ["f"]⟩,
        ⟨.list ⟨⟨2, 8⟩, none⟩ [.atom ⟨⟨3, 4⟩, none⟩ (.symbol "g"),
        .quoted ⟨⟨5, 7⟩, none⟩ .quote (.atom ⟨⟨6, 7⟩, none⟩ (.symbol "h"))], ["h", "g"]⟩],
        some ⟨.unexpectedClosing .round, 9⟩⟩ := by
    with_unfolding_all rfl
  have hlast : (Transcript.ofText "f (g 'h) ) f".toList).lastStop = 8 := by
    rw [htranscript]
    rfl
  obtain ⟨hcuts, herror, -, hrows⟩ :=
    truncation_at_form_boundary ⟨"f", .occurrence, true⟩ "a.el" "f (g 'h) ) f".toList
  rw [hlast] at herror hrows
  rw [htranscript] at hcuts
  have hcut := hcuts _ (List.mem_cons_of_mem _ List.mem_cons_self)
    (.quoted ⟨⟨5, 7⟩, none⟩ .quote (.atom ⟨⟨6, 7⟩, none⟩ (.symbol "h")))
    (Form.mem_nodes_of_part (List.mem_cons_of_mem _ List.mem_cons_self) (Form.mem_nodes_self _))
  exact ⟨by rw [htranscript], hcut, herror, hrows⟩

end LispXref
