import LispXref.Proofs.Lexeme.Cut
import LispXref.Proofs.Reader.Names
import LispXref.Proofs.Reader.Shift
import LispXref.Proofs.Reader.Tiling

/-! Every form inside one that was read can be read by itself. As long as a form is open,
what is around it is not looked at, so the lexemes that made it make it again without that. -/
namespace LispXref

namespace Pending

variable {stack stack' inner' outer : List Pending} {form : Form} {span : Span}

theorem split_cons {pending : Pending} (h : pending :: stack = inner' ++ outer)
    (hne : inner' ≠ []) : ∃ inner, inner' = pending :: inner ∧ stack = inner ++ outer := by
  obtain ⟨first, inner, rfl⟩ := List.exists_cons_of_ne_nil hne
  obtain ⟨rfl, rfl⟩ := List.cons.inj h
  exact ⟨inner, rfl, rfl⟩

/-- If something is still open after a form was handed on, so it is when nothing is around. -/
theorem exists_inner_of_deliver (h : deliver form stack = .ok (.pending stack'))
    (hsplit : stack' = inner' ++ outer) (hne : inner' ≠ []) :
    ∃ inner, stack = inner ++ outer ∧ deliver form inner = .ok (.pending inner') := by
  fun_induction deliver form stack with
  | case1 form => cases h
  | case2 form start quotation outer₀ ih =>
    obtain ⟨inner, rfl, hd⟩ := ih h
    exact ⟨.mark start quotation :: inner, rfl, hd⟩
  | case3 form start bracket items outer₀ =>
    cases h
    obtain ⟨inner, rfl, rfl⟩ := split_cons hsplit hne
    exact ⟨.vector start bracket items :: inner, rfl, rfl⟩
  | case4 form start items outer₀ =>
    cases h
    obtain ⟨inner, rfl, rfl⟩ := split_cons hsplit hne
    exact ⟨.list start (.proper items) :: inner, rfl, rfl⟩
  | case5 form start items outer₀ =>
    cases h
    obtain ⟨inner, rfl, rfl⟩ := split_cons hsplit hne
    exact ⟨.list start (.dotSeen items) :: inner, rfl, rfl⟩
  | case6 => cases h

/-- A closing bracket ends the innermost open form, whatever is around it. -/
theorem close_local {bracket : Bracket} {stop : Nat}
    (h : close bracket stop stack = .ok (form, outer)) :
    ∃ pending, stack = pending :: outer ∧ (∀ part ∈ form.parts, part ∈ pending.finished) ∧
      ∀ other, close bracket stop (pending :: other) = .ok (form, other) := by
  rcases close_cases h with ⟨start, items, rfl, rfl⟩ | ⟨start, items, rfl, rfl, rfl⟩ |
    ⟨start, items, tail, rfl, rfl, rfl⟩
  · exact ⟨_, rfl, by simp [Form.parts, finished], by simp [close]⟩
  · exact ⟨_, rfl, by simp [Form.parts, finished], by simp [close]⟩
  · refine ⟨_, rfl, ?_, by simp [close]⟩
    intro part hpart
    rcases List.mem_append.mp hpart with hpart | hpart
    · exact List.mem_cons_of_mem _ (List.mem_reverse.mp hpart)
    · exact List.mem_cons.mpr (.inl (List.mem_singleton.mp hpart))

theorem absorb_closing {bracket : Bracket} {progress : Progress}
    (hc : close bracket span.stop stack = .ok (form, outer))
    (hd : deliver form outer = .ok progress) :
    absorb stack span (.closing bracket) = .ok progress := by
  simp only [absorb, hc]
  exact deliverTaken_of_deliver hd

/-- If something is still open after a token, so it is when nothing is around. -/
theorem exists_inner_of_absorb {token : Token}
    (h : absorb stack span token = .ok (.pending stack')) (hsplit : stack' = inner' ++ outer)
    (hne : inner' ≠ []) :
    ∃ inner, stack = inner ++ outer ∧ absorb inner span token = .ok (.pending inner') := by
  cases token with
  | opening opener =>
    cases opener <;>
    · cases h
      obtain ⟨inner, rfl, rfl⟩ := split_cons hsplit hne
      exact ⟨inner, rfl, rfl⟩
  | mark quotation =>
    cases h
    obtain ⟨inner, rfl, rfl⟩ := split_cons hsplit hne
    exact ⟨inner, rfl, rfl⟩
  | dot =>
    obtain ⟨start, items, outer₀, hitems, rfl, hprogress⟩ := absorb_dot_cases h
    cases hprogress
    obtain ⟨inner, rfl, rfl⟩ := split_cons hsplit hne
    exact ⟨.list start (.proper items) :: inner, rfl, absorb_dot hitems inner span⟩
  | closing bracket =>
    obtain ⟨form, outer₀, hc, hd⟩ := deliver_of_absorb_closing h
    obtain ⟨inner, rfl, hinner⟩ := exists_inner_of_deliver hd hsplit hne
    obtain ⟨pending, rfl, -, hlocal⟩ := close_local hc
    exact ⟨pending :: inner, rfl, absorb_closing (hlocal inner) hinner⟩
  | atom value =>
    obtain ⟨inner, rfl, hinner⟩ := exists_inner_of_deliver (deliver_of_deliverTaken h) hsplit hne
    exact ⟨inner, rfl, deliverTaken_of_deliver hinner⟩

/-- The finished forms inside the open ones. -/
def forms (stack : List Pending) : List Form := stack.flatMap finished

end Pending

def Progress.forms : Progress → List Form
  | .finished form => [form]
  | .pending stack => Pending.forms stack

/-- All forms inside some forms, these included, have a property. -/
def Throughout (P : Form → Prop) (forms : List Form) : Prop :=
  ∀ form ∈ forms, ∀ node ∈ form.nodes, P node

namespace Pending

variable {P : Form → Prop} {stack : List Pending} {form : Form} {progress : Progress}

theorem throughout_cons {pending : Pending} :
    Throughout P (forms (pending :: stack)) ↔
      Throughout P pending.finished ∧ Throughout P (forms stack) := by
  simp only [Throughout, forms, List.flatMap_cons, List.mem_append, or_imp, forall_and]

theorem throughout_singleton (hform : P form) (hparts : Throughout P form.parts) :
    Throughout P [form] := by
  intro whole hwhole
  obtain rfl := List.mem_singleton.mp hwhole
  exact Form.forall_nodes_iff.mpr ⟨hform, hparts⟩

/-- An open form that took in one more. -/
theorem throughout_grown {pending grown : Pending}
    (hgrown : grown.finished = form :: pending.finished) (hform : Throughout P [form])
    (hstack : Throughout P (forms (pending :: stack))) : Throughout P (forms (grown :: stack)) := by
  obtain ⟨hpending, hrest⟩ := throughout_cons.mp hstack
  refine throughout_cons.mpr ⟨?_, hrest⟩
  rw [hgrown]
  exact List.forall_mem_cons.mpr ⟨hform form List.mem_cons_self, hpending⟩

/-- A property of what is open and of every form that becomes finished by handing on one is
one of all that is there then. -/
theorem throughout_of_deliver
    (hnew : ∀ inner outer whole, stack = inner ++ outer →
      deliver form inner = .ok (.finished whole) → P whole)
    (hparts : Throughout P form.parts) (hstack : Throughout P (forms stack))
    (h : deliver form stack = .ok progress) : Throughout P progress.forms := by
  fun_induction deliver form stack with
  | case1 form =>
    cases h
    exact throughout_singleton (hnew [] [] form rfl rfl) hparts
  | case2 form start quotation outer ih =>
    have hform := throughout_singleton (hnew [] _ form rfl rfl) hparts
    refine ih ?_ hform (throughout_cons.mp hstack).2 h
    intro inner outer₀ whole hsplit hd
    exact hnew (.mark start quotation :: inner) outer₀ whole (by rw [hsplit]; rfl) hd
  | case3 form start bracket items outer =>
    cases h
    exact throughout_grown rfl (throughout_singleton (hnew [] _ form rfl rfl) hparts) hstack
  | case4 form start items outer =>
    cases h
    exact throughout_grown rfl (throughout_singleton (hnew [] _ form rfl rfl) hparts) hstack
  | case5 form start items outer =>
    cases h
    exact throughout_grown rfl (throughout_singleton (hnew [] _ form rfl rfl) hparts) hstack
  | case6 => cases h

theorem throughout_of_absorb {span : Span} {token : Token}
    (hnew : ∀ inner outer whole, stack = inner ++ outer →
      absorb inner span token = .ok (.finished whole) → P whole)
    (hstack : Throughout P (forms stack)) (h : absorb stack span token = .ok progress) :
    Throughout P progress.forms := by
  cases token with
  | opening opener =>
    cases opener <;>
    · cases h
      exact throughout_cons.mpr ⟨fun form hform => absurd hform List.not_mem_nil, hstack⟩
  | mark quotation =>
    cases h
    exact throughout_cons.mpr ⟨fun form hform => absurd hform List.not_mem_nil, hstack⟩
  | dot =>
    obtain ⟨start, items, outer, -, rfl, rfl⟩ := absorb_dot_cases h
    exact throughout_cons.mpr (throughout_cons.mp hstack)
  | closing bracket =>
    obtain ⟨form, outer, hc, hd⟩ := deliver_of_absorb_closing h
    obtain ⟨pending, rfl, hparts, hlocal⟩ := close_local hc
    obtain ⟨hpending, houter⟩ := throughout_cons.mp hstack
    refine throughout_of_deliver ?_ (fun part hpart => hpending part (hparts part hpart)) houter hd
    intro inner outer₀ whole hsplit hwhole
    exact hnew (pending :: inner) outer₀ whole (by rw [hsplit]; rfl)
      (absorb_closing (hlocal inner) hwhole)
  | atom value =>
    refine throughout_of_deliver ?_ (fun part hpart => absurd hpart List.not_mem_nil) hstack
      (deliver_of_deliverTaken h)
    intro inner outer whole hsplit hwhole
    exact hnew inner outer whole hsplit (deliverTaken_of_deliver hwhole)

end Pending

section

variable [CharacterNames]

/-- Reading on at `cursor` with the forms of `stack` open ends with `form` at `stop`. -/
def Finishes (text : List Char) (cursor : Nat) (stack : List Pending) (form : Form)
    (stop : Nat) : Prop :=
  ∀ names, ∃ names', Reads text cursor stack names ⟨form, names'⟩ stop

/-- Reading at the start of a form gives the form and nothing more. -/
def Rereadable (text : List Char) (form : Form) : Prop :=
  Finishes text form.start [] form form.stop

/-- Reading has come to these open forms from an offset at which nothing was open and no gap
stood. -/
def Begun (text : List Char) (cursor : Nat) (stack : List Pending) : Prop :=
  ∃ start, Gap.width (text.drop start) = 0 ∧
    ∀ form stop, Finishes text cursor stack form stop → Finishes text start [] form stop

section

variable {text : List Char} {cursor start : Nat} {lexeme : Lexeme} {stack stack' : List Pending}

theorem LexemeAt.begun (h : LexemeAt text cursor start lexeme) : Begun text start [] :=
  ⟨start, h.width_eq_zero, fun _ _ hfinishes => hfinishes⟩

theorem Begun.step (h : Begun text cursor stack) (hl : LexemeAt text cursor start lexeme)
    (ha : Pending.absorb stack (lexeme.spanAt start) lexeme.token = .ok (.pending stack')) :
    Begun text (start + lexeme.width) stack' := by
  obtain ⟨origin, hwidth, horigin⟩ := h
  refine ⟨origin, hwidth, ?_⟩
  intro form stop hfinishes
  apply horigin
  intro names
  obtain ⟨names', hreads⟩ := hfinishes (lexeme.token.addName names)
  exact ⟨names', .step hl ha hreads⟩

theorem Begun.rereadable {form : Form} (h : Begun text cursor stack)
    (hl : LexemeAt text cursor start lexeme)
    (ha : Pending.absorb stack (lexeme.spanAt start) lexeme.token = .ok (.finished form)) :
    Rereadable text form := by
  obtain ⟨origin, hwidth, horigin⟩ := h
  have hfinishes : Finishes text origin [] form (start + lexeme.width) :=
    horigin form _ fun names => ⟨_, .finish hl ha⟩
  obtain ⟨names, hreads⟩ := hfinishes []
  obtain ⟨hgap, hstop, -⟩ := hreads.tiles rfl
  obtain rfl := hgap.eq_of_width_eq_zero hwidth
  rw [← hstop] at hfinishes
  exact hfinishes

/-- Whichever of the open forms are counted from the innermost one, reading has come to them
by itself. -/
def Rooted (text : List Char) (cursor : Nat) (stack : List Pending) : Prop :=
  ∀ inner outer, inner ≠ [] → stack = inner ++ outer → Begun text cursor inner

/-- At a lexeme, this is so even for none of them, if the gap before it is left out. -/
theorem Rooted.begun (h : Rooted text cursor stack) (hl : LexemeAt text cursor start lexeme)
    {inner outer : List Pending} (hsplit : stack = inner ++ outer) :
    ∃ before, LexemeAt text before start lexeme ∧ Begun text before inner := by
  by_cases hne : inner = []
  · subst hne
    exact ⟨start, hl.self, hl.begun⟩
  · exact ⟨cursor, hl, h inner outer hne hsplit⟩

theorem Rooted.step (h : Rooted text cursor stack) (hl : LexemeAt text cursor start lexeme)
    (ha : Pending.absorb stack (lexeme.spanAt start) lexeme.token = .ok (.pending stack')) :
    Rooted text (start + lexeme.width) stack' := by
  intro inner' outer hne hsplit
  obtain ⟨inner, hstack, hinner⟩ := Pending.exists_inner_of_absorb ha hsplit hne
  obtain ⟨before, hl, hbegun⟩ := h.begun hl hstack
  exact hbegun.step hl hinner

/-- All that one lexeme finishes can be read again. -/
theorem Rooted.throughout {progress : Progress} (h : Rooted text cursor stack)
    (hl : LexemeAt text cursor start lexeme)
    (hstack : Throughout (Rereadable text) (Pending.forms stack))
    (ha : Pending.absorb stack (lexeme.spanAt start) lexeme.token = .ok progress) :
    Throughout (Rereadable text) progress.forms := by
  refine Pending.throughout_of_absorb ?_ hstack ha
  intro inner outer whole hsplit hwhole
  obtain ⟨before, hl, hbegun⟩ := h.begun hl hsplit
  exact hbegun.rereadable hl hwhole

end

/-- A run from open forms of which this holds ends in a form all through which it does. -/
theorem Reads.rereadable {text : List Char} {cursor stop : Nat} {stack : List Pending}
    {names : List String} {top : TopForm} (h : Reads text cursor stack names top stop)
    (hrooted : Rooted text cursor stack)
    (hstack : Throughout (Rereadable text) (Pending.forms stack)) :
    ∀ node ∈ top.form.nodes, Rereadable text node := by
  induction h with
  | finish hl ha => exact hrooted.throughout hl hstack ha _ List.mem_cons_self
  | step hl ha _ ih => exact ih (hrooted.step hl ha) (hrooted.throughout hl hstack ha)

theorem rereadable_of_mem_tops {text : List Char} {top : TopForm} {node : Form}
    (htop : top ∈ (Transcript.ofText text).tops) (hnode : node ∈ top.form.nodes) :
    Rereadable text node := by
  obtain ⟨start, stop, hreads⟩ := exists_reads_of_mem_tops htop
  refine hreads.rereadable ?_ ?_ node hnode
  · intro inner outer hne hsplit
    exact absurd (List.append_eq_nil_iff.mp hsplit.symm).1 hne
  · intro form hform
    exact absurd hform List.not_mem_nil

section

variable {text : List Char} {cursor start stop kept : Nat}

theorem LexemeAt.take {lexeme : Lexeme} (h : LexemeAt text cursor start lexeme)
    (hkept : start + lexeme.width ≤ kept) : LexemeAt (text.take kept) cursor start lexeme := by
  have hgap := h.gap.le
  have hstart := h.start_eq
  have hstop := h.stop_le
  have hcursor : cursor ≤ (text.take kept).length := by
    rw [List.length_take]
    omega
  have hwidth : Gap.width ((text.take kept).drop cursor) = Gap.width (text.drop cursor) := by
    rw [List.drop_take]
    exact Gap.width_take _ _ (by omega)
  have heq : start = cursor + Gap.width ((text.take kept).drop cursor) := by rw [hwidth, hstart]
  obtain ⟨c, rest, hdrop, hscan⟩ := h.scanned
  rw [Lexeme.width] at hkept
  obtain ⟨n, hn⟩ : ∃ n, kept - start = n + 1 := ⟨kept - start - 1, by omega⟩
  refine ⟨?_, heq, c, rest.take n, ?_, Lexeme.scan_take hscan (by omega)⟩
  · have := gapIn_width hcursor
    rwa [← heq] at this
  · rw [List.drop_take, hdrop, hn, List.take_succ_cons]

variable {stack : List Pending} {names : List String} {top : TopForm}

/-- A run takes the same course if the text is cut after it. -/
theorem Reads.take (h : Reads text cursor stack names top stop) (hkept : stop ≤ kept) :
    Reads (text.take kept) cursor stack names top stop := by
  induction h with
  | finish hl ha => exact .finish (hl.take hkept) ha
  | step hl ha hrest ih =>
    have hlt := hrest.cursor_lt
    exact .step (hl.take (by omega)) ha (ih hkept)

end

/-- The text of a form that can be read again holds this form alone. -/
theorem Rereadable.transcript_slice {text : List Char} {form : Form} (h : Rereadable text form) :
    ∃ reread, Transcript.ofText (form.span.slice text) = ⟨[reread], none⟩ ∧
      reread.form.shift form.start = form := by
  obtain ⟨names, hreads⟩ := h []
  have hslice : (text.take form.stop).drop form.start = form.span.slice text := List.drop_take
  have hlength : (form.span.slice text).length = form.stop - form.start := by
    rw [← hslice, List.length_drop, List.length_take, Nat.min_eq_left hreads.stop_le]
  have hread := readFrom_of_reads (hreads.take (Nat.le_refl _))
  have hshift := readFrom_shift form.start 0 (form.span.slice text) [] []
  rw [hslice] at hread
  rw [Nat.zero_add, List.map_nil, hread] at hshift
  obtain ⟨reread, hform, hfirst⟩ := ReadStep.eq_of_shift hshift.symm
  rw [← hlength] at hfirst
  exact ⟨⟨reread, names⟩, Transcript.ofText_of_readFrom hfirst, hform⟩

/-- Every form inside one that was read from a text, read by itself from its own characters,
is read without a fault as the same form alone, its offsets counted from where it starts. -/
theorem Transcript.subform_rereads {text : List Char} {top : TopForm} {node : Form}
    (htop : top ∈ (Transcript.ofText text).tops) (hnode : node ∈ top.form.nodes) :
    ∃ reread : TopForm, Transcript.ofText (node.span.slice text) = ⟨[reread], none⟩ ∧
      reread.form.shift node.start = node :=
  (rereadable_of_mem_tops htop hnode).transcript_slice

end

open CharacterNames in
/-- The tail of an improper list before a bracket that closes nothing: a mark of two
characters with a character literal whose digits end at the list's bracket. -/
theorem Transcript.subform_rereads_tail :
    ∃ top ∈ (Transcript.ofText "(f #:g . ,@?\\x41))".toList).tops, ∃ node ∈ top.form.nodes,
      node.span = ⟨9, 16⟩ ∧
      ∃ reread : TopForm,
        Transcript.ofText (node.span.slice "(f #:g . ,@?\\x41))".toList) = ⟨[reread], none⟩ ∧
        reread.form.shift node.start = node := by
  have hread : readFrom 0 "(f #:g . ,@?\\x41))".toList [] [] =
      ⟨.form ⟨.dotted ⟨⟨0, 17⟩, none⟩
        [.atom ⟨⟨1, 2⟩, none⟩ (.symbol "f"), .atom ⟨⟨3, 6⟩, none⟩ (.symbol "g")]
        (.quoted ⟨⟨9, 16⟩, none⟩ .splice (.atom ⟨⟨11, 16⟩, none⟩ (.number (.integer 65)))),
        ["g", "f"]⟩, 17⟩ := by
    with_unfolding_all rfl
  have htop := Transcript.mem_tops_of_readFrom hread
  have hpart :
      Form.quoted ⟨⟨9, 16⟩, none⟩ .splice (.atom ⟨⟨11, 16⟩, none⟩ (.number (.integer 65))) ∈
      (Form.dotted ⟨⟨0, 17⟩, none⟩
        [.atom ⟨⟨1, 2⟩, none⟩ (.symbol "f"), .atom ⟨⟨3, 6⟩, none⟩ (.symbol "g")]
        (.quoted ⟨⟨9, 16⟩, none⟩ .splice (.atom ⟨⟨11, 16⟩, none⟩ (.number (.integer 65))))).parts :=
    List.mem_append_right _ List.mem_cons_self
  have hnode := Form.mem_nodes_of_part hpart (Form.mem_nodes_self _)
  exact ⟨_, htop, _, hnode, rfl, Transcript.subform_rereads htop hnode⟩

end LispXref
