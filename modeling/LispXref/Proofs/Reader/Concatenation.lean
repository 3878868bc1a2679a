import LispXref.Proofs.Lexeme.LineEnd
import LispXref.Proofs.Reader.Shift
import LispXref.Proofs.Reader.Tiling

/-! Two texts joined by a line end. If only a gap follows the last form of the first text, the
forms of both are read, those of the second further on, and reading ends as it does in the
second. -/
namespace LispXref

def TopForm.shift (distance : Nat) (top : TopForm) : TopForm :=
  { top with form := top.form.shift distance }

namespace Transcript

def shift (distance : Nat) (transcript : Transcript) : Transcript :=
  ⟨transcript.tops.map (TopForm.shift distance), transcript.error.map (ReadError.shift distance)⟩

theorem ofSteps_shift (distance : Nat) (steps : List ReadStep) :
    ofSteps (steps.map (ReadStep.shift distance)) = (ofSteps steps).shift distance := by
  induction steps with
  | nil => rfl
  | cons step rest ih =>
    obtain ⟨reading, cursor⟩ := step
    rw [List.map_cons]
    cases reading with
    | form top =>
      simp only [ofSteps, ReadStep.shift, Reading.shift, ih]
      rfl
    | endOfText => rfl
    | malformed error => rfl

end Transcript

theorem not_isGap_backslash : ¬ IsGap ['\\'] := by
  intro h
  cases h with
  | blank hblank _ => exact absurd hblank (by decide)

theorem lastStop_cons (cursor : Nat) (first : TopForm) (rest : List TopForm) :
    (first :: rest).getLast?.elim cursor (·.form.stop)
      = rest.getLast?.elim first.form.stop (·.form.stop) := by
  rw [List.getLast?_cons]
  cases rest.getLast? <;> rfl

variable [CharacterNames]

section

variable {text : List Char} {cursor start stop : Nat} {lexeme : Lexeme} {stack : List Pending}
  {names : List String} {top : TopForm} {tops : List TopForm}

/-- A backslash at the end of a text is no lexeme. -/
theorem LexemeAt.drop_ne_backslash (h : LexemeAt text cursor start lexeme) :
    text.drop cursor ≠ ['\\'] := by
  intro hlone
  have hstart : start = cursor := by
    rw [h.start_eq, hlone]
    rfl
  obtain ⟨c, rest, hdrop, hscan⟩ := h.scanned
  rw [hstart, hlone] at hdrop
  obtain ⟨rfl, rfl⟩ := List.cons.inj hdrop
  cases hscan

theorem LexemeAt.append_newline (h : LexemeAt text cursor start lexeme)
    (hend : text.drop (start + lexeme.width) ≠ ['\\']) (more : List Char) :
    LexemeAt (text ++ '\n' :: more) cursor start lexeme := by
  have hlt := h.start_lt
  have hle := h.gap.le
  have hcursor : (text ++ '\n' :: more).drop cursor = text.drop cursor ++ '\n' :: more :=
    List.drop_append_of_le_length (by omega)
  have hgap : Gap.width (text.drop cursor) < (text.drop cursor).length := by
    have heq := h.start_eq
    rw [List.length_drop]
    omega
  have hstart : start = cursor + Gap.width ((text ++ '\n' :: more).drop cursor) := by
    rw [hcursor, Gap.width_append_newline more _ hgap]
    exact h.start_eq
  obtain ⟨c, rest, hdrop, hscan⟩ := h.scanned
  refine ⟨?_, hstart, c, rest ++ '\n' :: more, ?_, ?_⟩
  · rw [hstart]
    exact gapIn_width (by rw [List.length_append]; omega)
  · rw [List.drop_append_of_le_length (Nat.le_of_lt hlt), hdrop, List.cons_append]
  · rw [← List.drop_drop, hdrop, Lexeme.width, List.drop_succ_cons] at hend
    exact Lexeme.scan_append_newline hscan hend more

theorem Reads.drop_ne_backslash (h : Reads text cursor stack names top stop) :
    text.drop cursor ≠ ['\\'] := by
  cases h with
  | finish hl _ => exact hl.drop_ne_backslash
  | step hl _ _ => exact hl.drop_ne_backslash

/-- A form is read in the same way if a line end follows the text. -/
theorem Reads.append_newline (h : Reads text cursor stack names top stop)
    (hend : text.drop stop ≠ ['\\']) (more : List Char) :
    Reads (text ++ '\n' :: more) cursor stack names top stop := by
  induction h with
  | finish hl ha => exact .finish (hl.append_newline hend more) ha
  | step hl ha hnext ih => exact .step (hl.append_newline hnext.drop_ne_backslash more) ha (ih hend)

end

theorem readSteps_shift (distance cursor : Nat) (text : List Char) :
    readSteps (cursor + distance) text
      = (readSteps cursor text).map (ReadStep.shift distance) := by
  fun_induction readSteps cursor text with
  | case1 cursor text step top hform ih =>
    have hfirst : readFrom (cursor + distance) text [] []
        = ⟨.form (top.shift distance), step.cursor + distance⟩ := by
      have hshift := readFrom_shift distance cursor text [] []
      rw [List.map_nil] at hshift
      rw [hshift, ReadStep.shift, hform]
      rfl
    rw [readSteps_of_form hfirst, Nat.add_sub_add_right, ih, List.map_cons, ReadStep.shift, hform]
    rfl
  | case2 cursor text step hform =>
    have hshift := readFrom_shift distance cursor text [] []
    rw [List.map_nil] at hshift
    rw [readSteps_of_not_form, hshift]
    · rfl
    · intro top htop
      rw [hshift] at htop
      change step.reading.shift distance = .form top at htop
      cases hreading : step.reading with
      | form found => exact hform found hreading
      | endOfText =>
        rw [hreading] at htop
        cases htop
      | malformed error =>
        rw [hreading] at htop
        cases htop

section

variable (cursor : Nat) {skipped : Nat} {text : List Char}

/-- Reading may as well start inside the gap before a form. Only where it would go on after a
fault depends on where it started. -/
theorem readFrom_skip (h : Gap.width text = skipped + Gap.width (text.drop skipped))
    (stack : List Pending) (names : List String) :
    readFrom (cursor + skipped) (text.drop skipped) stack names
        = readFrom cursor text stack names ∨
      ∃ error stop stop', readFrom cursor text stack names = ⟨.malformed error, stop⟩ ∧
        readFrom (cursor + skipped) (text.drop skipped) stack names
          = ⟨.malformed error, stop'⟩ := by
  have hsame : (text.drop skipped).drop (Gap.width (text.drop skipped))
      = text.drop (Gap.width text) := by
    rw [List.drop_drop, h]
  have hstart : cursor + Gap.width text = cursor + skipped + Gap.width (text.drop skipped) := by
    omega
  cases hdrop : text.drop (Gap.width text) with
  | nil =>
    left
    rw [readFrom_of_end hdrop, readFrom_of_end (hsame.trans hdrop), hstart]
  | cons c rest =>
    cases hscan : Lexeme.scan c rest with
    | error fault =>
      right
      refine ⟨_, cursor, cursor + skipped, readFrom_of_fault hdrop hscan, ?_⟩
      rw [readFrom_of_fault (hsame.trans hdrop) hscan, hstart]
    | ok lexeme =>
      rw [readFrom_of_lexeme hdrop hscan rfl,
        readFrom_of_lexeme (hsame.trans hdrop) hscan hstart]
      cases Pending.absorb stack (lexeme.spanAt (cursor + Gap.width text)) lexeme.token with
      | error refusal => exact .inr ⟨_, _, _, rfl, rfl⟩
      | ok progress => cases progress <;> exact .inl rfl

theorem ofSteps_readSteps_skip (h : Gap.width text = skipped + Gap.width (text.drop skipped)) :
    Transcript.ofSteps (readSteps cursor text)
      = Transcript.ofSteps (readSteps (cursor + skipped) (text.drop skipped)) := by
  rcases readFrom_skip cursor h [] [] with heq | ⟨error, stop, stop', hfirst, hlater⟩
  · cases hstep : readFrom cursor text [] [] with
    | mk reading stop =>
      rw [hstep] at heq
      cases reading with
      | form top =>
        have hlt : cursor + skipped < stop := by
          have := (cursor_lt_of_readFrom (congrArg ReadStep.reading heq)).1
          rwa [heq] at this
        have hdrop : skipped + (stop - (cursor + skipped)) = stop - cursor := by omega
        rw [ofSteps_readSteps_of_form hstep, ofSteps_readSteps_of_form heq, List.drop_drop, hdrop]
      | endOfText => rw [ofSteps_readSteps_of_end hstep, ofSteps_readSteps_of_end heq]
      | malformed error => rw [ofSteps_readSteps_of_fault hstep, ofSteps_readSteps_of_fault heq]
  · rw [ofSteps_readSteps_of_fault hfirst, ofSteps_readSteps_of_fault hlater]

end

section

variable {text : List Char} {cursor : Nat} {tops : List TopForm}

theorem ReadsInTurn.drop_ne_backslash (h : ReadsInTurn text cursor tops)
    (hgap : IsGap (text.drop (tops.getLast?.elim cursor (·.form.stop)))) :
    text.drop cursor ≠ ['\\'] := by
  cases tops with
  | nil =>
    intro hlone
    change IsGap (text.drop cursor) at hgap
    rw [hlone] at hgap
    exact not_isGap_backslash hgap
  | cons first rest =>
    obtain ⟨stop, hreads, -⟩ := h
    exact hreads.drop_ne_backslash

theorem ReadsInTurn.ofSteps_of_gap (h : ReadsInTurn text cursor tops)
    (hgap : IsGap (text.drop (tops.getLast?.elim cursor (·.form.stop)))) :
    Transcript.ofSteps (readSteps cursor (text.drop cursor)) = ⟨tops, none⟩ := by
  induction tops generalizing cursor with
  | nil =>
    change IsGap (text.drop cursor) at hgap
    have hend : (text.drop cursor).drop (Gap.width (text.drop cursor)) = [] := by
      rw [Gap.width_of_isGap hgap, List.drop_length]
    exact ofSteps_readSteps_of_end (readFrom_of_end hend)
  | cons first rest ih =>
    obtain ⟨stop, hreads, hrest⟩ := h
    obtain ⟨-, hstop, -⟩ := hreads.tiles rfl
    rw [lastStop_cons, hstop] at hgap
    rw [hreads.ofSteps_readSteps, ih hrest hgap]

/-- The forms that are read in turn up to a last gap are read before those of the text after the
line end. -/
theorem ReadsInTurn.ofSteps_append (h : ReadsInTurn text cursor tops)
    (hcursor : cursor ≤ text.length)
    (hgap : IsGap (text.drop (tops.getLast?.elim cursor (·.form.stop)))) (more : List Char) :
    Transcript.ofSteps (readSteps cursor ((text ++ '\n' :: more).drop cursor)) =
      ⟨tops ++ (Transcript.ofSteps (readSteps (text.length + 1) more)).tops,
        (Transcript.ofSteps (readSteps (text.length + 1) more)).error⟩ := by
  induction tops generalizing cursor with
  | nil =>
    change IsGap (text.drop cursor) at hgap
    have hdrop : (text ++ '\n' :: more).drop cursor = text.drop cursor ++ '\n' :: more :=
      List.drop_append_of_le_length hcursor
    have hmore : (text.drop cursor ++ '\n' :: more).drop ((text.drop cursor).length + 1)
        = more := by
      rw [← List.drop_drop, List.drop_left]
      rfl
    have hskip : Gap.width (text.drop cursor ++ '\n' :: more) = (text.drop cursor).length + 1
        + Gap.width ((text.drop cursor ++ '\n' :: more).drop ((text.drop cursor).length + 1)) := by
      rw [hmore]
      exact (Gap.width_append_of_isGap hgap more).1
    have hcount : cursor + ((text.drop cursor).length + 1) = text.length + 1 := by
      rw [List.length_drop]
      omega
    rw [hdrop, ofSteps_readSteps_skip cursor hskip, hmore, hcount, List.nil_append]
  | cons first rest ih =>
    obtain ⟨stop, hreads, hrest⟩ := h
    obtain ⟨-, hstop, -⟩ := hreads.tiles rfl
    rw [lastStop_cons, hstop] at hgap
    have hjoined := hreads.append_newline (hrest.drop_ne_backslash hgap) more
    rw [hjoined.ofSteps_readSteps, ih hrest hreads.stop_le hgap, List.cons_append]

end

namespace Transcript

/-- Only a gap follows the last form of a text. -/
def EndsInGap (text : List Char) : Prop := IsGap (text.drop (ofText text).lastStop)

theorem error_of_endsInGap {text : List Char} (h : EndsInGap text) :
    (ofText text).error = none := by
  have hread : ofText text = ⟨(ofText text).tops, none⟩ := (readsInTurn text).ofSteps_of_gap h
  rw [hread]

theorem ofText_append {text : List Char} (h : EndsInGap text) (more : List Char) :
    ofText (text ++ '\n' :: more) =
      ⟨(ofText text).tops ++ ((ofText more).shift (text.length + 1)).tops,
        ((ofText more).shift (text.length + 1)).error⟩ := by
  have hmore : ofSteps (readSteps (text.length + 1) more)
      = (ofText more).shift (text.length + 1) := by
    have hshift := readSteps_shift (text.length + 1) 0 more
    rw [Nat.zero_add] at hshift
    rw [hshift, ofSteps_shift]
    rfl
  rw [← hmore]
  exact (readsInTurn text).ofSteps_append (Nat.zero_le _) h more

end Transcript

end LispXref
