import LispXref.Proofs.Reader.Reread

/-! A text that is cut after a form, however deep inside another one, can be read without a
fault: the forms that end before the cut are read as they were, and one that is still open
there is left out. -/
namespace LispXref

namespace Pending

variable {stack : List Pending} {form whole : Form}

theorem stop_of_deliver (h : deliver form stack = .ok (.finished whole)) :
    whole.stop = form.stop := by
  fun_induction deliver form stack with
  | case1 form =>
    cases h
    rfl
  | case2 form start quotation outer ih => exact ih h
  | case3 | case4 | case5 | case6 => cases h

theorem stop_of_close {outer : List Pending} {bracket : Bracket} {stop : Nat}
    (h : close bracket stop stack = .ok (form, outer)) : form.stop = stop := by
  rcases close_cases h with ⟨start, items, -, rfl⟩ | ⟨start, items, -, -, rfl⟩ |
    ⟨start, items, tail, -, -, rfl⟩ <;> rfl

/-- A form ends where the token ends that finishes it. -/
theorem stop_of_absorb {span : Span} {token : Token}
    (h : absorb stack span token = .ok (.finished whole)) : whole.stop = span.stop := by
  cases token with
  | opening opener => cases opener <;> cases h
  | mark quotation => cases h
  | dot =>
    obtain ⟨start, items, outer, -, -, hprogress⟩ := absorb_dot_cases h
    cases hprogress
  | closing bracket =>
    obtain ⟨form, outer, hc, hd⟩ := deliver_of_absorb_closing h
    rw [stop_of_deliver hd, stop_of_close hc]
  | atom value => exact stop_of_deliver (deliver_of_deliverTaken h)

end Pending

theorem Tiled.inside_nodes {text : List Char} {form node : Form} (h : Tiled text form)
    (hnode : node ∈ form.nodes) : form.start ≤ node.start ∧ node.stop ≤ form.stop := by
  induction form using Form.induction_parts with
  | step form ih =>
    rcases Form.mem_nodes_iff.mp hnode with rfl | ⟨part, hpart, hnode⟩
    · exact ⟨Nat.le_refl _, Nat.le_refl _⟩
    · have htiled := h.of_mem_nodes (Form.mem_nodes_of_part hpart (Form.mem_nodes_self part))
      obtain ⟨hstart, hstop⟩ := h.tilesSpan.inside part hpart
      obtain ⟨hstart', hstop'⟩ := ih part hpart htiled hnode
      exact ⟨by omega, by omega⟩

variable [CharacterNames]

/-- Reading from `origin` on, where nothing is open, comes to `cursor` with the forms of
`stack` open. -/
inductive Passes (text : List Char) (origin : Nat) : Nat → List Pending → Prop where
  | start : Passes text origin origin []
  | step {cursor start : Nat} {stack stack' : List Pending} {lexeme : Lexeme} :
      Passes text origin cursor stack → LexemeAt text cursor start lexeme →
      Pending.absorb stack (lexeme.spanAt start) lexeme.token = .ok (.pending stack') →
      Passes text origin (start + lexeme.width) stack'

section

variable {text : List Char} {origin cursor stop : Nat} {stack : List Pending}
  {names : List String} {top : TopForm}

theorem Passes.take {kept : Nat} (h : Passes text origin cursor stack) (hkept : cursor ≤ kept) :
    Passes (text.take kept) origin cursor stack := by
  induction h with
  | start => exact .start
  | step _ hl ha ih =>
    have hlt := hl.cursor_lt
    exact .step (ih (by omega)) (hl.take hkept) ha

theorem Passes.readFrom_eq (h : Passes text origin cursor stack) :
    ∃ names, readFrom origin (text.drop origin) [] []
      = readFrom cursor (text.drop cursor) stack names := by
  induction h with
  | start => exact ⟨[], rfl⟩
  | step _ hl ha ih =>
    obtain ⟨names, heq⟩ := ih
    exact ⟨_, by rw [heq, hl.readFrom_eq, ha]⟩

/-- What is open where the text is cut is no fault. -/
theorem Passes.readFrom_take (h : Passes text origin cursor stack) :
    readFrom origin ((text.take cursor).drop origin) [] [] = ⟨.endOfText, cursor⟩ := by
  obtain ⟨names, heq⟩ := (h.take (Nat.le_refl cursor)).readFrom_eq
  have hnil : (text.take cursor).drop cursor = [] := by rw [List.drop_take_self]
  rw [heq, hnil]
  exact readFrom_of_end rfl

/-- Reading from `origin` on, which ends at `stop`, comes to where a form ends. -/
def EndsOnTheWay (text : List Char) (origin stop : Nat) (form : Form) : Prop :=
  form.stop = stop ∨ ∃ stack, Passes text origin form.stop stack

/-- All forms inside the one that is read end where a lexeme ends. -/
theorem Reads.endsOnTheWay (h : Reads text cursor stack names top stop)
    (hpasses : Passes text origin cursor stack)
    (hstack : Throughout (EndsOnTheWay text origin stop) (Pending.forms stack)) :
    ∀ node ∈ top.form.nodes, EndsOnTheWay text origin stop node := by
  induction h with
  | finish hl ha =>
    refine Pending.throughout_of_absorb ?_ hstack ha _ List.mem_cons_self
    intro inner outer whole _ hwhole
    exact .inl (Pending.stop_of_absorb hwhole)
  | @step cursor start stop stack stack' names lexeme top hl ha _ ih =>
    have hnext := hpasses.step hl ha
    apply ih hnext
    refine Pending.throughout_of_absorb ?_ hstack ha
    intro inner outer whole _ hwhole
    have hstop : whole.stop = start + lexeme.width := Pending.stop_of_absorb hwhole
    exact .inr ⟨stack', by rwa [hstop]⟩

end

section

variable {text : List Char} {cursor : Nat} {tops : List TopForm}

theorem ReadsInTurn.tiled (h : ReadsInTurn text cursor tops) :
    ∀ top ∈ tops, cursor ≤ top.form.start ∧ Tiled text top.form := by
  induction tops generalizing cursor with
  | nil => simp
  | cons first rest ih =>
    obtain ⟨stop, hreads, hrest⟩ := h
    obtain ⟨hgap, hstop, htiled⟩ := hreads.tiles rfl
    refine List.forall_mem_cons.mpr ⟨⟨hgap.le, htiled⟩, ?_⟩
    intro top htop
    obtain ⟨hle, htiled⟩ := ih hrest top htop
    have hlt := hreads.cursor_lt
    exact ⟨by omega, htiled⟩

/-- If the text is cut where a form inside one of those read in turn ends, those that end
before the cut are read, and nothing else. -/
theorem ReadsInTurn.ofSteps_take (h : ReadsInTurn text cursor tops) {top : TopForm} {node : Form}
    (htop : top ∈ tops) (hnode : node ∈ top.form.nodes) :
    Transcript.ofSteps (readSteps cursor ((text.take node.stop).drop cursor))
      = ⟨tops.filter (·.form.stop ≤ node.stop), none⟩ := by
  induction tops generalizing cursor with
  | nil => exact absurd htop List.not_mem_nil
  | cons first rest ih =>
    obtain ⟨stop, hreads, hrest⟩ := h
    obtain ⟨-, hstop, htiled⟩ := hreads.tiles rfl
    rcases List.mem_cons.mp htop with rfl | htop
    · -- the cut is inside the first form or at its end
      have hle : node.stop ≤ stop := hstop ▸ (htiled.inside_nodes hnode).2
      have hlater : rest.filter (·.form.stop ≤ node.stop) = [] := by
        rw [List.filter_eq_nil_iff]
        intro other hother
        obtain ⟨hstart, hother⟩ := hrest.tiled other hother
        have hlt := hother.within.1
        simp only [decide_eq_true_eq]
        omega
      by_cases heq : node.stop = stop
      · have hkept := hreads.take (Nat.le_refl stop)
        rw [heq, hkept.ofSteps_readSteps, List.drop_take_self, readSteps_nil,
          List.filter_cons_of_pos (by simp [hstop]), ← heq, hlater]
        rfl
      · rcases hreads.endsOnTheWay .start (fun form hform => absurd hform List.not_mem_nil) node
          hnode with hend | ⟨stack, hpasses⟩
        · exact absurd hend heq
        · rw [ofSteps_readSteps_of_end hpasses.readFrom_take, List.filter_cons_of_neg, hlater]
          simp only [hstop, decide_eq_true_eq]
          omega
    · -- the first form ends before the cut
      obtain ⟨hstart, hothers⟩ := hrest.tiled top htop
      have hinside := (hothers.inside_nodes hnode).1
      have hlt := (hothers.of_mem_nodes hnode).within.1
      have hkept : stop ≤ node.stop := by omega
      rw [(hreads.take hkept).ofSteps_readSteps, ih hrest htop,
        List.filter_cons_of_pos (by simpa [hstop] using hkept)]

end

theorem Transcript.ofText_take_stop {text : List Char} {top : TopForm} {node : Form}
    (htop : top ∈ (ofText text).tops) (hnode : node ∈ top.form.nodes) :
    ofText (text.take node.stop) = ⟨(ofText text).tops.filter (·.form.stop ≤ node.stop), none⟩ :=
  (readsInTurn text).ofSteps_take htop hnode

end LispXref
