import LispXref.Proofs.Form.Recast
import LispXref.Proofs.Reader.Run

/-! Reading does not depend on where in a text it takes place: if it starts further on by some
distance, every offset in what comes out is larger by that distance. -/
namespace LispXref

def Span.shift (distance : Nat) (span : Span) : Span :=
  ⟨span.start + distance, span.stop + distance⟩

def Label.shift (distance : Nat) (label : Label) : Label :=
  { label with span := label.span.shift distance }

namespace Form

/-- The same form further on in a text: every offset in it is larger by the distance. -/
abbrev shift (distance : Nat) : Form → Form := recast (Label.shift distance) fun _ => false

variable {distance : Nat}

@[simp] theorem span_shift (form : Form) :
    (form.shift distance).span = form.span.shift distance := by
  rw [span, label_recast]
  rfl

@[simp] theorem start_shift (form : Form) :
    (form.shift distance).start = form.start + distance := by
  rw [start, span_shift]
  rfl

@[simp] theorem stop_shift (form : Form) : (form.shift distance).stop = form.stop + distance := by
  rw [stop, span_shift]
  rfl

end Form

def Interior.shift (distance : Nat) : Interior → Interior
  | .proper items => .proper (items.map (Form.shift distance))
  | .dotSeen items => .dotSeen (items.map (Form.shift distance))
  | .tailSeen items tail => .tailSeen (items.map (Form.shift distance)) (tail.shift distance)

def Pending.shift (distance : Nat) : Pending → Pending
  | .list start interior => .list (start + distance) (interior.shift distance)
  | .vector start bracket items =>
    .vector (start + distance) bracket (items.map (Form.shift distance))
  | .mark start quotation => .mark (start + distance) quotation

def ReadError.shift (distance : Nat) (error : ReadError) : ReadError :=
  { error with offset := error.offset + distance }

def Refusal.shift (distance : Nat) (refusal : Refusal) : Refusal :=
  { refusal with error := refusal.error.shift distance }

def Progress.shift (distance : Nat) : Progress → Progress
  | .finished form => .finished (form.shift distance)
  | .pending stack => .pending (stack.map (Pending.shift distance))

def Reading.shift (distance : Nat) : Reading → Reading
  | .form top => .form { top with form := top.form.shift distance }
  | .endOfText => .endOfText
  | .malformed error => .malformed (error.shift distance)

def ReadStep.shift (distance : Nat) (step : ReadStep) : ReadStep :=
  ⟨step.reading.shift distance, step.cursor + distance⟩

/-- A step that gives a form further on gives one where it is. -/
theorem ReadStep.eq_of_shift {distance stop : Nat} {step : ReadStep} {top : TopForm}
    (h : step.shift distance = ⟨.form top, stop⟩) :
    ∃ form, form.shift distance = top.form ∧ step = ⟨.form ⟨form, top.names⟩, stop - distance⟩ := by
  obtain ⟨reading, cursor⟩ := step
  cases reading with
  | form found =>
    cases h
    exact ⟨found.form, rfl, by rw [Nat.add_sub_cancel]⟩
  | endOfText => cases h
  | malformed error => cases h

namespace Pending

variable {distance : Nat}

theorem close_shift (bracket : Bracket) (stop : Nat) (stack : List Pending) :
    close bracket (stop + distance) (stack.map (shift distance))
      = (close bracket stop stack).map fun closed =>
          (closed.1.shift distance, closed.2.map (shift distance)) := by
  cases stack with
  | nil => rfl
  | cons pending outer =>
    cases pending with
    | mark start quotation => rfl
    | vector start wanted items =>
      by_cases hb : bracket = wanted
      · simp [close, shift, hb, Except.map, Label.shift, Span.shift]
      · simp [close, shift, hb, Except.map]
    | list start interior =>
      by_cases hb : bracket = .round
      · cases interior <;> simp [close, shift, Interior.shift, hb, Except.map, Label.shift,
          Span.shift]
      · simp [close, shift, hb, Except.map]

theorem deliver_shift (form : Form) (stack : List Pending) :
    deliver (form.shift distance) (stack.map (shift distance))
      = ((deliver form stack).map (Progress.shift distance)).mapError
          (ReadError.shift distance) := by
  fun_induction deliver form stack with
  | case1 form => rfl
  | case2 form start quotation outer ih =>
    rw [← ih, List.map_cons, shift, deliver, Form.stop_shift]
    rfl
  | case3 form start bracket items outer => rfl
  | case4 form start items outer => rfl
  | case5 form start items outer => rfl
  | case6 form start items tail outer =>
    simp only [List.map_cons, shift, Interior.shift, deliver, Form.start_shift]
    rfl

theorem deliverTaken_shift (form : Form) (stack : List Pending) :
    deliverTaken (form.shift distance) (stack.map (shift distance))
      = ((deliverTaken form stack).map (Progress.shift distance)).mapError
          (Refusal.shift distance) := by
  unfold deliverTaken
  rw [deliver_shift]
  cases deliver form stack <;> rfl

theorem dot_shift (stack : List Pending) :
    dot (stack.map (shift distance)) = (dot stack).map (List.map (shift distance)) := by
  cases stack with
  | nil => rfl
  | cons pending outer =>
    cases pending with
    | mark start quotation => rfl
    | vector start bracket items => rfl
    | list start interior =>
      cases interior with
      | proper items => cases items <;> rfl
      | dotSeen items => rfl
      | tailSeen items tail => rfl

/-- A token is taken in the same way further on. -/
theorem absorb_shift (stack : List Pending) (span : Span) (token : Token) :
    absorb (stack.map (shift distance)) (span.shift distance) token
      = ((absorb stack span token).map (Progress.shift distance)).mapError
          (Refusal.shift distance) := by
  cases token with
  | opening opener => cases opener <;> rfl
  | mark quotation => rfl
  | dot =>
    simp only [absorb, dot_shift]
    cases dot stack <;> rfl
  | closing bracket =>
    have hclose : close bracket (span.stop + distance) (stack.map (shift distance)) = _ :=
      close_shift bracket span.stop stack
    simp only [absorb, Span.shift, hclose]
    cases close bracket span.stop stack with
    | error fault => rfl
    | ok closed => exact deliverTaken_shift closed.1 closed.2
  | atom value => exact deliverTaken_shift (.atom ⟨span, none⟩ value) stack

theorem absorb_spanAt_shift {start : Nat} {lexeme : Lexeme} {stack : List Pending}
    {result : Except Refusal Progress}
    (h : absorb stack (lexeme.spanAt start) lexeme.token = result) :
    absorb (stack.map (shift distance)) (lexeme.spanAt (start + distance)) lexeme.token
      = (result.map (Progress.shift distance)).mapError (Refusal.shift distance) := by
  have hspan : lexeme.spanAt (start + distance) = (lexeme.spanAt start).shift distance := by
    simp only [Lexeme.spanAt, Span.shift, Nat.add_right_comm]
  rw [hspan, absorb_shift, h]

end Pending

/-- Reading further on gives the same, further on. -/
theorem readFrom_shift [CharacterNames] (distance cursor : Nat) (text : List Char)
    (stack : List Pending)
    (names : List String) :
    readFrom (cursor + distance) text (stack.map (Pending.shift distance)) names
      = (readFrom cursor text stack names).shift distance := by
  fun_induction readFrom cursor text stack names with
  | case1 cursor text stack names start hdrop =>
    rw [readFrom_of_end hdrop, Nat.add_right_comm]
    rfl
  | case2 cursor text stack names start c rest hdrop fault hscan =>
    rw [readFrom_of_fault hdrop hscan, Nat.add_right_comm]
    rfl
  | case3 cursor text stack names start c rest hdrop lexeme hscan stop refusal habsorb =>
    have hstart : start + distance = cursor + distance + Gap.width text := Nat.add_right_comm _ _ _
    rw [readFrom_of_lexeme hdrop hscan hstart, Pending.absorb_spanAt_shift habsorb]
    obtain ⟨error, taken⟩ := refusal
    cases taken with
    | true => exact congrArg (ReadStep.mk _) (Nat.add_right_comm start distance _)
    | false => rfl
  | case4 cursor text stack names start c rest hdrop lexeme hscan stop names' form habsorb =>
    have hstart : start + distance = cursor + distance + Gap.width text := Nat.add_right_comm _ _ _
    rw [readFrom_of_lexeme hdrop hscan hstart, Pending.absorb_spanAt_shift habsorb]
    exact congrArg (ReadStep.mk _) (Nat.add_right_comm start distance _)
  | case5 cursor text stack names start c rest hdrop lexeme hscan stop names' stack' habsorb ih =>
    have hstart : start + distance = cursor + distance + Gap.width text := Nat.add_right_comm _ _ _
    have hstop : start + distance + lexeme.width = stop + distance := Nat.add_right_comm _ _ _
    rw [readFrom_of_lexeme hdrop hscan hstart, Pending.absorb_spanAt_shift habsorb, hstop]
    exact ih

end LispXref
