import LispXref.Proofs.Reader.Tiling

/-! Reading goes forward and stays in the text: the cursor never moves back or past the end, a
form takes at least one character, and a fault is found at an offset of the text. So there are
no more forms in a text than characters. -/
namespace LispXref

namespace Pending

variable {low high : Nat} {stack outer stack' : List Pending} {form : Form}

/-- All open forms begin between two offsets. -/
def StartIn (low high : Nat) (stack : List Pending) : Prop :=
  ∀ pending ∈ stack, low ≤ pending.start ∧ pending.start < high

theorem startIn_cons {pending : Pending} :
    StartIn low high (pending :: stack) ↔
      (low ≤ pending.start ∧ pending.start < high) ∧ StartIn low high stack :=
  List.forall_mem_cons

theorem StartIn.offset_of_deliver (hstack : StartIn low high stack)
    (hform : low ≤ form.start ∧ form.start < high) {error : ReadError}
    (h : deliver form stack = .error error) : low ≤ error.offset ∧ error.offset < high := by
  fun_induction deliver form stack with
  | case1 | case3 | case4 | case5 => cases h
  | case2 form start quotation outer ih =>
    obtain ⟨hmark, houter⟩ := startIn_cons.mp hstack
    exact ih houter hmark h
  | case6 form =>
    cases h
    exact hform

theorem StartIn.of_deliver (hstack : StartIn low high stack)
    (h : deliver form stack = .ok (.pending stack')) : StartIn low high stack' := by
  fun_induction deliver form stack with
  | case1 | case6 => cases h
  | case2 form start quotation outer ih => exact ih (startIn_cons.mp hstack).2 h
  | case3 | case4 | case5 =>
    cases h
    obtain ⟨hstart, houter⟩ := startIn_cons.mp hstack
    exact startIn_cons.mpr ⟨hstart, houter⟩

/-- A form that a bracket ends begins where it was opened. -/
theorem StartIn.of_close (hstack : StartIn low high stack) {bracket : Bracket} {stop : Nat}
    (h : close bracket stop stack = .ok (form, outer)) :
    (low ≤ form.start ∧ form.start < high) ∧ StartIn low high outer := by
  rcases close_cases h with ⟨start, items, rfl, rfl⟩ | ⟨start, items, -, rfl, rfl⟩ |
    ⟨start, items, tail, -, rfl, rfl⟩
  all_goals exact startIn_cons.mp hstack

theorem error_of_deliverTaken {refusal : Refusal} (h : deliverTaken form stack = .error refusal) :
    deliver form stack = .error refusal.error := by
  unfold deliverTaken at h
  cases hd : deliver form stack with
  | error error => rw [hd] at h; cases h; rfl
  | ok progress => rw [hd] at h; cases h

/-- A token is refused at its own start or at that of a form which it ends. -/
theorem StartIn.offset_of_absorb (hstack : StartIn low high stack) {span : Span} {token : Token}
    (hspan : low ≤ span.start ∧ span.start < high) {refusal : Refusal}
    (h : absorb stack span token = .error refusal) :
    low ≤ refusal.error.offset ∧ refusal.error.offset < high := by
  cases token with
  | opening opener => cases opener <;> cases h
  | mark quotation => cases h
  | dot =>
    simp only [absorb] at h
    split at h
    · cases h
    · cases h
      exact hspan
  | closing bracket =>
    simp only [absorb] at h
    split at h
    · next form outer hclose =>
      obtain ⟨hform, houter⟩ := hstack.of_close hclose
      exact houter.offset_of_deliver hform (error_of_deliverTaken h)
    · cases h
      exact hspan
  | atom value =>
    let atom := Form.atom ⟨span, none⟩ value
    have hatom : low ≤ atom.start ∧ atom.start < high := hspan
    exact hstack.offset_of_deliver hatom (error_of_deliverTaken h)

theorem StartIn.of_absorb (hstack : StartIn low high stack) {span : Span} {token : Token}
    (hspan : low ≤ span.start ∧ span.start < high)
    (h : absorb stack span token = .ok (.pending stack')) : StartIn low high stack' := by
  cases token with
  | opening opener =>
    cases opener <;>
    · cases h
      exact startIn_cons.mpr ⟨hspan, hstack⟩
  | mark quotation =>
    cases h
    exact startIn_cons.mpr ⟨hspan, hstack⟩
  | dot =>
    obtain ⟨start, items, outer, -, rfl, hprogress⟩ := absorb_dot_cases h
    cases hprogress
    obtain ⟨hstart, houter⟩ := startIn_cons.mp hstack
    exact startIn_cons.mpr ⟨hstart, houter⟩
  | closing bracket =>
    obtain ⟨form, outer, hclose, hdeliver⟩ := deliver_of_absorb_closing h
    exact (hstack.of_close hclose).2.of_deliver hdeliver
  | atom value => exact hstack.of_deliver (deliver_of_deliverTaken h)

end Pending

section

variable [CharacterNames]

/-- What may stand after the gap at an offset: the end of the text, something that is no
lexeme, or a lexeme. -/
theorem end_or_fault_or_lexemeAt {text : List Char} {cursor : Nat}
    (hcursor : cursor ≤ text.length) :
    (∀ stack names, readFrom cursor (text.drop cursor) stack names = ⟨.endOfText, text.length⟩) ∨
    (∃ start fault, cursor ≤ start ∧ start < text.length ∧ ∀ stack names,
      readFrom cursor (text.drop cursor) stack names = ⟨.malformed ⟨fault, start⟩, cursor⟩) ∨
    ∃ start lexeme, LexemeAt text cursor start lexeme := by
  have hgap := gapIn_width hcursor
  have hdrop := List.drop_drop (l := text) (i := Gap.width (text.drop cursor)) (j := cursor)
  cases hrest : text.drop (cursor + Gap.width (text.drop cursor)) with
  | nil =>
    have hend : cursor + Gap.width (text.drop cursor) = text.length :=
      Nat.le_antisymm hgap.stop_le (List.drop_eq_nil_iff.mp hrest)
    refine .inl fun stack names => ?_
    rw [readFrom_of_end (hdrop.trans hrest), hend]
  | cons c rest =>
    right
    cases hscan : Lexeme.scan c rest with
    | error fault =>
      have hlt : cursor + Gap.width (text.drop cursor) < text.length := by
        apply Nat.lt_of_not_le
        intro hle
        rw [List.drop_eq_nil_of_le hle] at hrest
        cases hrest
      exact .inl ⟨_, fault, hgap.le, hlt, fun stack names =>
        readFrom_of_fault (hdrop.trans hrest) hscan⟩
    | ok lexeme => exact .inr ⟨_, lexeme, hgap, rfl, c, rest, hrest, hscan⟩

/-- The cursor after an attempt at reading, and the offset of a fault, lie between two offsets;
only at the upper one does the text end. -/
structure ReadStep.Within (low high : Nat) (step : ReadStep) : Prop where
  low_le : low ≤ step.cursor
  le_high : step.cursor ≤ high
  atEnd : step.reading = .endOfText → step.cursor = high
  fault : ∀ error, step.reading = .malformed error → low ≤ error.offset ∧ error.offset < high

/-- Whatever is open, reading on keeps inside the text. -/
theorem readFrom_within {text : List Char} {low cursor : Nat} {stack : List Pending}
    (names : List String) (hlow : low ≤ cursor) (hcursor : cursor ≤ text.length)
    (hstack : Pending.StartIn low text.length stack) :
    (readFrom cursor (text.drop cursor) stack names).Within low text.length := by
  -- every lexeme leaves less of the text
  induction hleft : text.length - cursor using Nat.strongRecOn
    generalizing cursor stack names with
  | ind left ih =>
    rcases end_or_fault_or_lexemeAt hcursor with hend | ⟨start, fault, hge, hlt, hfault⟩ |
      ⟨start, lexeme, hl⟩
    · rw [hend]
      exact ⟨Nat.le_trans hlow hcursor, Nat.le_refl _, fun _ => rfl, by rintro error ⟨⟩⟩
    · rw [hfault]
      refine ⟨hlow, hcursor, by rintro ⟨⟩, ?_⟩
      rintro error ⟨⟩
      exact ⟨Nat.le_trans hlow hge, hlt⟩
    · have hge := Nat.le_trans hlow (Nat.le_of_lt hl.cursor_lt)
      have hspan : low ≤ (lexeme.spanAt start).start ∧ (lexeme.spanAt start).start < text.length :=
        ⟨Nat.le_trans hlow hl.gap.le, hl.start_lt⟩
      rw [hl.readFrom_eq]
      split
      · next refusal hrefused =>
        refine ⟨?_, ?_, by rintro ⟨⟩, ?_⟩
        · dsimp only
          split
          · exact hge
          · exact hlow
        · dsimp only
          split
          · exact hl.stop_le
          · exact hcursor
        · rintro error ⟨⟩
          exact hstack.offset_of_absorb hspan hrefused
      · exact ⟨hge, hl.stop_le, by rintro ⟨⟩, by rintro error ⟨⟩⟩
      · next stack' hpending =>
        have hlt := hl.cursor_lt
        have hle := hl.stop_le
        exact ih _ (by omega) _ hge hle (hstack.of_absorb hspan hpending) rfl

/-- Forms that are read in turn take at least one character each. -/
theorem ReadsInTurn.length_le {text : List Char} {cursor : Nat} {tops : List TopForm}
    (h : ReadsInTurn text cursor tops) : tops.length ≤ text.length - cursor := by
  induction tops generalizing cursor with
  | nil => exact Nat.zero_le _
  | cons first rest ih =>
    obtain ⟨stop, hfirst, hrest⟩ := h
    have hlt := hfirst.cursor_lt
    have hle := hfirst.stop_le
    have := ih hrest
    rw [List.length_cons]
    omega

namespace Reader

variable {text : List Char} {p : Nat}

theorem next_of_le (hp : p ≤ text.length) :
    next ⟨text, p⟩ = ((readFrom p (text.drop p) [] []).reading,
      ⟨text, (readFrom p (text.drop p) [] []).cursor⟩) := by
  have hoffset : offset ⟨text, p⟩ = p := Nat.min_eq_left hp
  unfold next
  dsimp only
  rw [hoffset]
  split
  · next error hreading =>
    split
    · next hcursor => rw [hreading, hcursor]
    · rw [hreading]
  · rfl

/-- The reader after a number of attempts. -/
def after (reader : Reader) : Nat → Reader
  | 0 => reader
  | count + 1 => after reader.next.2 count

/-- What comes of an attempt after a number of others. -/
def reading (reader : Reader) (count : Nat) : Reading := (reader.after count).next.1

theorem next_at_end (text : List Char) :
    next ⟨text, text.length⟩ = (.endOfText, ⟨text, text.length⟩) := by
  rw [next_of_le (Nat.le_refl _), List.drop_length, readFrom_of_end rfl]
  rfl

theorem reading_at_end (text : List Char) (count : Nat) :
    reading ⟨text, text.length⟩ count = .endOfText := by
  have hafter : after ⟨text, text.length⟩ count = ⟨text, text.length⟩ := by
    induction count with
    | zero => rfl
    | succ count ih => rw [after, next_at_end, ih]
  rw [reading, hafter, next_at_end]

/-- After some forms, each of at least one character, there is none. -/
theorem exists_reading_ne_form (hp : p ≤ text.length) : ∃ count ≤ text.length - p,
    (∀ k < count, ∃ top, reading ⟨text, p⟩ k = .form top) ∧
      ∀ top, reading ⟨text, p⟩ count ≠ .form top := by
  induction hleft : text.length - p using Nat.strongRecOn generalizing p with
  | ind left ih =>
    by_cases hform : ∃ top, (next ⟨text, p⟩).1 = .form top
    · obtain ⟨top, hform⟩ := hform
      obtain ⟨stop, hafter, hreads⟩ := reads_of_next hp (Prod.ext hform rfl)
      have hlt := hreads.cursor_lt
      have hle := hreads.stop_le
      obtain ⟨count, hcount, hforms, hlast⟩ := ih _ (by omega) hle rfl
      rw [← hafter] at hforms hlast
      refine ⟨count + 1, by omega, ?_, hlast⟩
      intro k hk
      cases k with
      | zero => exact ⟨top, hform⟩
      | succ k => exact hforms k (by omega)
    · refine ⟨0, Nat.zero_le _, by simp, ?_⟩
      intro top htop
      exact hform ⟨top, htop⟩

/-- Reading on from a place gives one after another the forms of the transcript, and then the end
of the text or the fault with which the transcript ends. -/
theorem reading_of_readSteps (hp : p ≤ text.length) :
    let transcript := Transcript.ofSteps (readSteps p (text.drop p))
    (∀ k top, transcript.tops[k]? = some top → reading ⟨text, p⟩ k = .form top) ∧
      reading ⟨text, p⟩ transcript.tops.length
        = transcript.error.elim .endOfText .malformed := by
  induction hleft : text.length - p using Nat.strongRecOn generalizing p with
  | ind left ih =>
    have hnext := next_of_le hp
    cases hstep : readFrom p (text.drop p) [] [] with
    | mk reading stop =>
      rw [hstep] at hnext
      cases reading with
      | endOfText =>
        rw [ofSteps_readSteps_of_end hstep]
        exact ⟨by simp, congrArg Prod.fst hnext⟩
      | malformed error =>
        rw [ofSteps_readSteps_of_fault hstep]
        exact ⟨by simp, congrArg Prod.fst hnext⟩
      | form top =>
        obtain ⟨stop', hafter, hreads⟩ := reads_of_next hp hnext
        obtain rfl : stop = stop' := Int.ofNat.inj (congrArg Reader.place hafter)
        have hlt := hreads.cursor_lt
        have hle := hreads.stop_le
        have hlater (k : Nat) : reading ⟨text, p⟩ (k + 1) = reading ⟨text, stop⟩ k := by
          rw [reading, after, hnext, reading]
        obtain ⟨hforms, hend⟩ := ih _ (by omega) hle rfl
        have hdrop : (text.drop p).drop (stop - p) = text.drop stop := by
          rw [List.drop_drop, Nat.add_sub_cancel' (Nat.le_of_lt hlt)]
        rw [ofSteps_readSteps_of_form hstep, hdrop]
        refine ⟨?_, (hlater _).trans hend⟩
        intro k found hfound
        cases k with
        | zero =>
          obtain rfl := Option.some.inj hfound
          exact congrArg Prod.fst hnext
        | succ k => exact (hlater k).trans (hforms k found hfound)

end Reader

/-- How an attempt at reading from `p` on may end with the cursor at `q`. -/
def Reading.EndsAt (text : List Char) (p q : Nat) : Reading → Prop
  | .form top => p ≤ top.form.start ∧ top.form.start < top.form.stop ∧ top.form.stop = q
  | .endOfText => q = text.length ∧ ∀ count, Reader.reading ⟨text, q⟩ count = .endOfText
  | .malformed error => p ≤ error.offset ∧ error.offset < text.length

/-- An attempt at reading from any place moves the cursor forward or leaves it, and not past the
end. A form takes the text up to the cursor, the end is met only at the end and then for good,
and a fault is inside the text. So reading form after form stops after at most as many forms as
there are characters left. -/
theorem Reader.next_goes_forward {text : List Char} {p : Nat} (hp : p ≤ text.length) :
    (∃ q : Nat, (next ⟨text, p⟩).2 = ⟨text, q⟩ ∧ p ≤ q ∧ q ≤ text.length ∧
      (next ⟨text, p⟩).1.EndsAt text p q) ∧
    (∃ count ≤ text.length - p, (∀ k < count, ∃ top, reading ⟨text, p⟩ k = .form top) ∧
      ∀ top, reading ⟨text, p⟩ count ≠ .form top) ∧
    (Transcript.ofText text).tops.length ≤ text.length := by
  refine ⟨?_, exists_reading_ne_form hp, (Transcript.readsInTurn text).length_le⟩
  have hopen : Pending.StartIn p text.length [] := by simp [Pending.StartIn]
  have hwithin := readFrom_within [] (Nat.le_refl p) hp hopen
  rw [next_of_le hp]
  refine ⟨_, rfl, hwithin.low_le, hwithin.le_high, ?_⟩
  cases hreading : (readFrom p (text.drop p) [] []).reading with
  | form top =>
    obtain ⟨hgap, hstop, htiled⟩ := (reads_of_readFrom hp hreading).tiles rfl
    exact ⟨hgap.le, htiled.within.1, hstop⟩
  | endOfText =>
    rw [hwithin.atEnd hreading]
    exact ⟨rfl, reading_at_end text⟩
  | malformed error => exact hwithin.fault error hreading

end

open CharacterNames in
/-- The second form after a dot is a fault inside the text, found after the cursor has moved to
the end of that form. -/
theorem Reader.next_goes_forward_second_tail :
    Reader.next ⟨"x (a . b c)".toList, (1 : Nat)⟩
      = (.malformed ⟨.secondTail, 9⟩, ⟨"x (a . b c)".toList, (10 : Nat)⟩) ∧
    (1 ≤ 10 ∧ 10 ≤ "x (a . b c)".toList.length ∧
      Reading.EndsAt "x (a . b c)".toList 1 10 (.malformed ⟨.secondTail, 9⟩)) ∧
    (∃ count ≤ 10, (∀ k < count, ∃ top, reading ⟨"x (a . b c)".toList, (1 : Nat)⟩ k = .form top) ∧
      ∀ top, reading ⟨"x (a . b c)".toList, (1 : Nat)⟩ count ≠ .form top) ∧
    (Transcript.ofText "x (a . b c)".toList).tops.length ≤ 11 := by
  have hnext : Reader.next ⟨"x (a . b c)".toList, (1 : Nat)⟩
      = (.malformed ⟨.secondTail, 9⟩, ⟨"x (a . b c)".toList, (10 : Nat)⟩) := by
    with_unfolding_all rfl
  have hp : 1 ≤ "x (a . b c)".toList.length := by decide
  obtain ⟨⟨q, hq, hge, hle, hends⟩, hcount, htops⟩ := Reader.next_goes_forward hp
  rw [hnext] at hq hends
  have hten : 10 = q := Int.ofNat.inj (congrArg Reader.place hq)
  subst hten
  exact ⟨hnext, ⟨hge, hle, hends⟩, hcount, htops⟩

end LispXref
