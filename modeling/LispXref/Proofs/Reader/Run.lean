import LispXref.Proofs.Gap
import LispXref.Proofs.Lexeme.Spelling
import LispXref.Reader

/-! The reading of a form as a run: lexeme after lexeme is taken, each after a gap, until
what was open is finished. Offsets count from the beginning of the whole text. -/
namespace LispXref

namespace Pending

variable {stack outer : List Pending} {span : Span} {progress : Progress}

/-- What a closing bracket may end, and what it makes of it. -/
theorem close_cases {bracket : Bracket} {stop : Nat} {form : Form}
    (h : close bracket stop stack = .ok (form, outer)) :
    (∃ start items, stack = .vector start bracket items :: outer ∧
      form = .vector ⟨⟨start, stop⟩, none⟩ items.reverse) ∨
    (∃ start items, bracket = .round ∧ stack = .list start (.proper items) :: outer ∧
      form = .list ⟨⟨start, stop⟩, none⟩ items.reverse) ∨
    ∃ start items tail, bracket = .round ∧
      stack = .list start (.tailSeen items tail) :: outer ∧
      form = .dotted ⟨⟨start, stop⟩, none⟩ items.reverse tail := by
  unfold close at h
  split at h
  · next start wanted items rest =>
    split at h
    · next hb =>
      cases h
      exact .inl ⟨start, items, by rw [hb], rfl⟩
    · cases h
  · next start interior rest =>
    split at h
    · next hb =>
      cases interior with
      | proper items =>
        cases h
        exact .inr (.inl ⟨start, items, hb, rfl, rfl⟩)
      | dotSeen items => cases h
      | tailSeen items tail =>
        cases h
        exact .inr (.inr ⟨start, items, tail, hb, rfl, rfl⟩)
    · cases h
  · cases h
  · cases h

theorem deliver_of_deliverTaken {form : Form} (h : deliverTaken form stack = .ok progress) :
    deliver form stack = .ok progress := by
  unfold deliverTaken at h
  cases hd : deliver form stack with
  | error error => rw [hd] at h; cases h
  | ok result => rw [hd] at h; cases h; rfl

theorem deliverTaken_of_deliver {form : Form} (h : deliver form stack = .ok progress) :
    deliverTaken form stack = .ok progress := by
  rw [deliverTaken, h]
  rfl

theorem deliver_of_absorb_closing {bracket : Bracket}
    (h : absorb stack span (.closing bracket) = .ok progress) :
    ∃ form outer, close bracket span.stop stack = .ok (form, outer) ∧
      deliver form outer = .ok progress := by
  simp only [absorb] at h
  split at h
  · next form outer hc => exact ⟨form, outer, hc, deliver_of_deliverTaken h⟩
  · cases h

theorem absorb_dot {start : Nat} {items : List Form} (h : items ≠ []) (outer : List Pending)
    (span : Span) : absorb (.list start (.proper items) :: outer) span .dot
      = .ok (.pending (.list start (.dotSeen items) :: outer)) := by
  obtain ⟨item, items, rfl⟩ := List.exists_cons_of_ne_nil h
  rfl

theorem absorb_dot_cases (h : absorb stack span .dot = .ok progress) :
    ∃ start items outer, items ≠ [] ∧ stack = .list start (.proper items) :: outer ∧
      progress = .pending (.list start (.dotSeen items) :: outer) := by
  simp only [absorb] at h
  split at h
  · next stack' hdot =>
    unfold dot at hdot
    split at hdot
    · next start item items outer =>
      cases hdot
      cases h
      exact ⟨start, item :: items, outer, List.cons_ne_nil _ _, rfl, rfl⟩
    · cases hdot
  · cases h

end Pending

variable [CharacterNames]

def Lexeme.spanAt (lexeme : Lexeme) (start : Nat) : Span := ⟨start, start + lexeme.width⟩

/-- After the whole gap that begins at `cursor`, a lexeme stands at `start`. -/
structure LexemeAt (text : List Char) (cursor start : Nat) (lexeme : Lexeme) : Prop where
  gap : GapIn text cursor start
  start_eq : start = cursor + Gap.width (text.drop cursor)
  scanned : ∃ c rest, text.drop start = c :: rest ∧ Lexeme.scan c rest = .ok lexeme

namespace LexemeAt

variable {text : List Char} {cursor start : Nat} {lexeme : Lexeme}

theorem stop_le (h : LexemeAt text cursor start lexeme) :
    start + lexeme.width ≤ text.length := by
  obtain ⟨c, rest, hdrop, hscan⟩ := h.scanned
  have htail := (Lexeme.scan_spec hscan).1
  have hlen := congrArg List.length hdrop
  rw [List.length_drop, List.length_cons] at hlen
  unfold Lexeme.width
  omega

theorem spelled (h : LexemeAt text cursor start lexeme) :
    lexeme.token.Spelled ((lexeme.spanAt start).slice text) := by
  obtain ⟨c, rest, hdrop, hscan⟩ := h.scanned
  simp only [Span.slice, Lexeme.spanAt, hdrop, Nat.add_sub_cancel_left, Lexeme.width,
    List.take_succ_cons]
  exact (Lexeme.scan_spec hscan).2

theorem start_lt (h : LexemeAt text cursor start lexeme) : start < text.length :=
  Nat.lt_of_lt_of_le (Nat.lt_add_of_pos_right (Nat.succ_pos _)) h.stop_le

/-- No gap opens where a lexeme stands. -/
theorem width_eq_zero (h : LexemeAt text cursor start lexeme) :
    Gap.width (text.drop start) = 0 := by
  rw [h.start_eq, ← List.drop_drop]
  exact Gap.width_drop_width _

/-- A lexeme may be met right where it stands. -/
theorem self (h : LexemeAt text cursor start lexeme) : LexemeAt text start start lexeme := by
  have heq : start = start + Gap.width (text.drop start) := by rw [h.width_eq_zero, Nat.add_zero]
  refine ⟨?_, heq, h.scanned⟩
  have hgap := gapIn_width (Nat.le_of_lt h.start_lt)
  rwa [← heq] at hgap

end LexemeAt

section

variable {cursor : Nat} {text : List Char} {stack : List Pending} {names : List String}

theorem readFrom_of_end (h : text.drop (Gap.width text) = []) :
    readFrom cursor text stack names = ⟨.endOfText, cursor + Gap.width text⟩ := by
  rw [readFrom]
  split
  · rfl
  · next c rest hdrop =>
    rw [h] at hdrop
    cases hdrop

theorem readFrom_of_fault {c : Char} {rest : List Char} {fault : Fault}
    (hdrop : text.drop (Gap.width text) = c :: rest) (hscan : Lexeme.scan c rest = .error fault) :
    readFrom cursor text stack names
      = ⟨.malformed ⟨fault, cursor + Gap.width text⟩, cursor⟩ := by
  rw [readFrom]
  split
  · next hnil =>
    rw [hdrop] at hnil
    cases hnil
  · next c' rest' hcons =>
    rw [hdrop] at hcons
    obtain ⟨rfl, rfl⟩ := List.cons.inj hcons
    simp only [hscan]

/-- A lexeme is taken, and reading ends or goes on as the stack has it. -/
theorem readFrom_of_lexeme {c : Char} {rest : List Char} {lexeme : Lexeme}
    (hdrop : text.drop (Gap.width text) = c :: rest) (hscan : Lexeme.scan c rest = .ok lexeme)
    {start : Nat} (hstart : start = cursor + Gap.width text) :
    readFrom cursor text stack names =
      match Pending.absorb stack (lexeme.spanAt start) lexeme.token with
      | .error refusal =>
        ⟨.malformed refusal.error, if refusal.taken then start + lexeme.width else cursor⟩
      | .ok (.finished form) => ⟨.form ⟨form, lexeme.token.addName names⟩, start + lexeme.width⟩
      | .ok (.pending stack') =>
        readFrom (start + lexeme.width) (rest.drop lexeme.tail) stack'
          (lexeme.token.addName names) := by
  subst hstart
  rw [readFrom]
  split
  · next hnil =>
    rw [hdrop] at hnil
    cases hnil
  · next c' rest' hcons =>
    rw [hdrop] at hcons
    obtain ⟨rfl, rfl⟩ := List.cons.inj hcons
    simp only [hscan]
    rfl

end

/-- Reading on at `cursor`, with the forms of `stack` open and `names` met so far, finishes
`top` at `stop`. -/
inductive Reads (text : List Char) : Nat → List Pending → List String → TopForm → Nat → Prop where
  | finish {cursor start : Nat} {stack : List Pending} {names : List String} {lexeme : Lexeme}
      {form : Form} :
      LexemeAt text cursor start lexeme →
      Pending.absorb stack (lexeme.spanAt start) lexeme.token = .ok (.finished form) →
      Reads text cursor stack names ⟨form, lexeme.token.addName names⟩ (start + lexeme.width)
  | step {cursor start stop : Nat} {stack stack' : List Pending} {names : List String}
      {lexeme : Lexeme} {top : TopForm} :
      LexemeAt text cursor start lexeme →
      Pending.absorb stack (lexeme.spanAt start) lexeme.token = .ok (.pending stack') →
      Reads text (start + lexeme.width) stack' (lexeme.token.addName names) top stop →
      Reads text cursor stack names top stop

/-- A form comes out of a run. -/
theorem reads_of_readFrom {text : List Char} {cursor : Nat} {stack : List Pending}
    {names : List String} {top : TopForm} (hcursor : cursor ≤ text.length)
    (h : (readFrom cursor (text.drop cursor) stack names).reading = .form top) :
    Reads text cursor stack names top
      (readFrom cursor (text.drop cursor) stack names).cursor := by
  generalize hsuffix : text.drop cursor = suffix at h ⊢
  fun_induction readFrom cursor suffix stack names with
  | case1 => simp at h
  | case2 => simp at h
  | case3 => simp at h
  | case4 cursor suffix stack names start c rest hdrop lexeme hscan stop names' form habsorb =>
    subst hsuffix
    obtain rfl := Reading.form.inj h
    have hlex : LexemeAt text cursor start lexeme :=
      ⟨gapIn_width hcursor, rfl, c, rest, by rw [← hdrop, List.drop_drop], hscan⟩
    exact .finish hlex habsorb
  | case5 cursor suffix stack names start c rest hdrop lexeme hscan stop names' stack' habsorb
      ih =>
    subst hsuffix
    have hstart : text.drop start = c :: rest := by rw [← hdrop, List.drop_drop]
    have hlex : LexemeAt text cursor start lexeme :=
      ⟨gapIn_width hcursor, rfl, c, rest, hstart, hscan⟩
    refine .step hlex habsorb (ih hlex.stop_le ?_ h)
    show text.drop (start + (lexeme.tail + 1)) = rest.drop lexeme.tail
    rw [← List.drop_drop, hstart, List.drop_succ_cons]

/-- Reading takes the lexeme that stands next. -/
theorem LexemeAt.readFrom_eq {text : List Char} {cursor start : Nat} {lexeme : Lexeme}
    (h : LexemeAt text cursor start lexeme) (stack : List Pending) (names : List String) :
    readFrom cursor (text.drop cursor) stack names =
      match Pending.absorb stack (lexeme.spanAt start) lexeme.token with
      | .error refusal =>
        ⟨.malformed refusal.error, if refusal.taken then start + lexeme.width else cursor⟩
      | .ok (.finished form) => ⟨.form ⟨form, lexeme.token.addName names⟩, start + lexeme.width⟩
      | .ok (.pending stack') =>
        readFrom (start + lexeme.width) (text.drop (start + lexeme.width)) stack'
          (lexeme.token.addName names) := by
  obtain ⟨c, rest, hdrop, hscan⟩ := h.scanned
  have hsuffix : (text.drop cursor).drop (Gap.width (text.drop cursor)) = c :: rest := by
    rw [List.drop_drop, ← h.start_eq, hdrop]
  have hrest : text.drop (start + lexeme.width) = rest.drop lexeme.tail := by
    rw [← List.drop_drop, hdrop, Lexeme.width, List.drop_succ_cons]
  rw [readFrom_of_lexeme hsuffix hscan h.start_eq, hrest]

/-- A run is what reading makes. -/
theorem readFrom_of_reads {text : List Char} {cursor stop : Nat} {stack : List Pending}
    {names : List String} {top : TopForm} (h : Reads text cursor stack names top stop) :
    readFrom cursor (text.drop cursor) stack names = ⟨.form top, stop⟩ := by
  induction h with
  | finish hl ha => rw [hl.readFrom_eq, ha]
  | step hl ha _ ih =>
    rw [hl.readFrom_eq, ha]
    exact ih

theorem Reads.stop_le {text : List Char} {cursor stop : Nat} {stack : List Pending}
    {names : List String} {top : TopForm} (h : Reads text cursor stack names top stop) :
    stop ≤ text.length := by
  induction h with
  | finish hl _ => exact hl.stop_le
  | step _ _ _ ih => exact ih

theorem LexemeAt.cursor_lt {text : List Char} {cursor start : Nat} {lexeme : Lexeme}
    (h : LexemeAt text cursor start lexeme) : cursor < start + lexeme.width :=
  Nat.lt_of_le_of_lt h.gap.le (Nat.lt_add_of_pos_right (Nat.succ_pos _))

theorem Reads.cursor_lt {text : List Char} {cursor stop : Nat} {stack : List Pending}
    {names : List String} {top : TopForm} (h : Reads text cursor stack names top stop) :
    cursor < stop := by
  induction h with
  | finish hl _ => exact hl.cursor_lt
  | step hl _ _ ih => exact Nat.lt_trans hl.cursor_lt ih

section

variable {cursor : Nat} {text : List Char}

theorem readSteps_of_form {top : TopForm} {stop : Nat}
    (h : readFrom cursor text [] [] = ⟨.form top, stop⟩) :
    readSteps cursor text
      = ⟨.form top, stop⟩ :: readSteps stop (text.drop (stop - cursor)) := by
  rw [readSteps]
  split
  · rw [h]
  · next hnone =>
    rw [h] at hnone
    exact absurd rfl (hnone top)

/-- Reading goes on only after a form. -/
theorem readSteps_of_not_form (h : ∀ top, (readFrom cursor text [] []).reading ≠ .form top) :
    readSteps cursor text = [readFrom cursor text [] []] := by
  rw [readSteps]
  split
  · next top hform => exact absurd hform (h top)
  · rfl

theorem readSteps_nil : readSteps cursor [] = [⟨.endOfText, cursor⟩] := by
  have hend : readFrom cursor [] [] [] = ⟨.endOfText, cursor⟩ := readFrom_of_end rfl
  rw [readSteps_of_not_form (by simp [hend]), hend]

theorem ofSteps_readSteps_of_end {stop : Nat}
    (h : readFrom cursor text [] [] = ⟨.endOfText, stop⟩) :
    Transcript.ofSteps (readSteps cursor text) = ⟨[], none⟩ := by
  rw [readSteps_of_not_form (by simp [h]), h]
  rfl

theorem ofSteps_readSteps_of_fault {error : ReadError} {stop : Nat}
    (h : readFrom cursor text [] [] = ⟨.malformed error, stop⟩) :
    Transcript.ofSteps (readSteps cursor text) = ⟨[], some error⟩ := by
  rw [readSteps_of_not_form (by simp [h]), h]
  rfl

/-- A form that is read, with what is read after it. -/
theorem ofSteps_readSteps_of_form {top : TopForm} {stop : Nat}
    (h : readFrom cursor text [] [] = ⟨.form top, stop⟩) :
    Transcript.ofSteps (readSteps cursor text) =
      ⟨top :: (Transcript.ofSteps (readSteps stop (text.drop (stop - cursor)))).tops,
        (Transcript.ofSteps (readSteps stop (text.drop (stop - cursor)))).error⟩ := by
  rw [readSteps_of_form h]
  rfl

/-- The first form that is read is the first one of the transcript. -/
theorem Reads.ofSteps_readSteps {top : TopForm} {stop : Nat}
    (h : Reads text cursor [] [] top stop) :
    Transcript.ofSteps (readSteps cursor (text.drop cursor)) =
      ⟨top :: (Transcript.ofSteps (readSteps stop (text.drop stop))).tops,
        (Transcript.ofSteps (readSteps stop (text.drop stop))).error⟩ := by
  rw [ofSteps_readSteps_of_form (readFrom_of_reads h), List.drop_drop,
    Nat.add_sub_cancel' (Nat.le_of_lt h.cursor_lt)]

theorem Transcript.mem_tops_of_readFrom {top : TopForm} {stop : Nat}
    (h : readFrom 0 text [] [] = ⟨.form top, stop⟩) : top ∈ (Transcript.ofText text).tops := by
  rw [Transcript.ofText, readSteps_of_form h]
  exact List.mem_cons_self

/-- A form that takes the whole text is all there is in it. -/
theorem Transcript.ofText_of_readFrom {top : TopForm}
    (h : readFrom 0 text [] [] = ⟨.form top, text.length⟩) :
    Transcript.ofText text = ⟨[top], none⟩ := by
  rw [Transcript.ofText, readSteps_of_form h, Nat.sub_zero, List.drop_length, readSteps_nil]
  rfl

end

/-- Runs give some forms one after another, each from where the last one stopped. -/
def ReadsInTurn (text : List Char) : Nat → List TopForm → Prop
  | _, [] => True
  | cursor, top :: rest => ∃ stop, Reads text cursor [] [] top stop ∧ ReadsInTurn text stop rest

/-- The offset at which the last form of a text ends. -/
def Transcript.lastStop (transcript : Transcript) : Nat :=
  transcript.tops.getLast?.elim 0 (·.form.stop)

theorem readsInTurn_readSteps {text : List Char} {cursor : Nat} (hcursor : cursor ≤ text.length) :
    ReadsInTurn text cursor (Transcript.ofSteps (readSteps cursor (text.drop cursor))).tops := by
  generalize hsuffix : text.drop cursor = suffix
  fun_induction readSteps cursor suffix with
  | case1 cursor suffix step first hfirst ih =>
    subst hsuffix
    have hreads := reads_of_readFrom hcursor hfirst
    have hlt : cursor < step.cursor := (cursor_lt_of_readFrom hfirst).1
    simp only [Transcript.ofSteps, hfirst]
    refine ⟨step.cursor, hreads, ih hreads.stop_le ?_⟩
    rw [List.drop_drop]
    congr 1
    omega
  | case2 cursor suffix step hfirst =>
    rw [Transcript.ofSteps]
    split
    · next first heq => exact absurd heq (hfirst first)
    · trivial
    · trivial

theorem Transcript.readsInTurn (text : List Char) :
    ReadsInTurn text 0 (Transcript.ofText text).tops :=
  readsInTurn_readSteps (Nat.zero_le _)

theorem ReadsInTurn.exists_reads {text : List Char} {cursor : Nat} {tops : List TopForm}
    {top : TopForm} (h : ReadsInTurn text cursor tops) (htop : top ∈ tops) :
    ∃ start stop, Reads text start [] [] top stop := by
  induction tops generalizing cursor with
  | nil => exact absurd htop List.not_mem_nil
  | cons first rest ih =>
    obtain ⟨stop, hfirst, hrest⟩ := h
    rcases List.mem_cons.mp htop with rfl | htop
    · exact ⟨cursor, stop, hfirst⟩
    · exact ih hrest htop

theorem exists_reads_of_mem_tops {text : List Char} {top : TopForm}
    (h : top ∈ (Transcript.ofText text).tops) : ∃ start stop, Reads text start [] [] top stop :=
  (Transcript.readsInTurn text).exists_reads h

theorem Reader.next_of_readFrom {reader : Reader} {top : TopForm} {stop : Nat}
    (h : readFrom reader.offset (reader.text.drop reader.offset) [] [] = ⟨.form top, stop⟩) :
    reader.next = (.form top, ⟨reader.text, stop⟩) := by
  rw [Reader.next, h]

/-- Wherever a reader stands, the next form comes out of a run. -/
theorem Reader.exists_reads_of_next {reader after : Reader} {top : TopForm}
    (h : reader.next = (.form top, after)) :
    ∃ stop : Nat, after = ⟨reader.text, stop⟩ ∧ Reads reader.text reader.offset [] [] top stop := by
  unfold Reader.next at h
  dsimp only at h
  split at h
  · cases h
  · obtain ⟨hreading, rfl⟩ := Prod.mk.inj h
    exact ⟨_, rfl, reads_of_readFrom (Nat.min_le_right _ _) hreading⟩

end LispXref
