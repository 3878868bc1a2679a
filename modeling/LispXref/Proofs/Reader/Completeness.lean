import LispXref.Proofs.Lexeme.Layout
import LispXref.Proofs.Reader.Run

/-! Forms as they are written, with the separators between their tokens, are read back:
the same forms in the same order, each at the offsets at which it was written. -/
namespace LispXref

mutual

/-- A form as it is written: its tokens and, between any two of them, a separator. -/
inductive Writing where
  | leaf (leaf : Leaf)
  | list (items : Writings) (last : Separator)
  | vector (opening : VectorOpening) (items : Writings) (last : Separator)
  | dotted (lead : Separator) (first : Writing) (more : Writings)
      (beforeDot afterDot : Separator) (tail : Writing) (last : Separator)
  | quoted (mark : Quotation) (after : Separator) (operand : Writing)

/-- Forms in a row, each after a separator. -/
inductive Writings where
  | nil
  | cons (before : Separator) (first : Writing) (more : Writings)

end

mutual

def Writing.text : Writing → List Char
  | .leaf leaf => leaf.spelling
  | .list items last => ['('] ++ (items.text ++ (last.text ++ [')']))
  | .vector opening items last =>
    opening.spelling ++ (items.text ++ (last.text ++ [opening.bracket.closing]))
  | .dotted lead first more beforeDot afterDot tail last =>
    ['('] ++ ((lead.text ++ first.text) ++ (more.text ++ ((beforeDot.text ++ ['.']) ++
      ((afterDot.text ++ tail.text) ++ (last.text ++ [')'])))))
  | .quoted mark after operand => mark.spelling ++ (after.text ++ operand.text)

def Writings.text : Writings → List Char
  | .nil => []
  | .cons before first more => (before.text ++ first.text) ++ more.text

end

/-- The label of what is written from `start` on. -/
def Writing.label (start : Nat) (writing : Writing) : Label :=
  ⟨⟨start, start + writing.text.length⟩, none⟩

mutual

/-- The form that is written from offset `start` on. -/
def Writing.form (start : Nat) : Writing → Form
  | .leaf leaf => .atom ((Writing.leaf leaf).label start) leaf.atom
  | .list items last => .list ((Writing.list items last).label start) (items.forms (start + 1))
  | .vector opening items last =>
    .vector ((Writing.vector opening items last).label start)
      (items.forms (start + opening.spelling.length))
  | .dotted lead first more beforeDot afterDot tail last =>
    let second := start + 1 + lead.text.length + first.text.length
    let point := second + more.text.length + beforeDot.text.length
    .dotted ((Writing.dotted lead first more beforeDot afterDot tail last).label start)
      (first.form (start + 1 + lead.text.length) :: more.forms second)
      (tail.form (point + 1 + afterDot.text.length))
  | .quoted mark after operand =>
    .quoted ((Writing.quoted mark after operand).label start) mark
      (operand.form (start + mark.spelling.length + after.text.length))

def Writings.forms (start : Nat) : Writings → List Form
  | .nil => []
  | .cons before first more =>
    first.form (start + before.text.length)
      :: more.forms (start + before.text.length + first.text.length)

end

theorem Writing.stop_form (writing : Writing) (start : Nat) :
    (writing.form start).stop = start + writing.text.length := by
  cases writing <;> rfl

theorem Writings.boundary (items : Writings) {rest : List Char} (hrest : Boundary rest) :
    Boundary (items.text ++ rest) := by
  cases items with
  | nil => exact hrest
  | cons before first more =>
    rw [Writings.text, List.append_assoc, List.append_assoc]
    exact before.boundary _

namespace Pending

/-- What is open takes every form that is handed to it as its next item. -/
def Gathers (frame : List Form → Pending) : Prop :=
  ∀ form items outer,
    deliver form (frame items :: outer) = .ok (.pending (frame (form :: items) :: outer))

theorem gathers_list (start : Nat) : Gathers fun items => .list start (.proper items) :=
  fun _ _ _ => rfl

theorem gathers_vector (start : Nat) (bracket : Bracket) : Gathers (.vector start bracket) :=
  fun _ _ _ => rfl

theorem deliver_mark {operand : Form} {stop : Nat} (h : operand.stop = stop) (start : Nat)
    (mark : Quotation) (outer : List Pending) :
    deliver operand (.mark start mark :: outer)
      = deliver (.quoted ⟨⟨start, stop⟩, none⟩ mark operand) outer := by
  subst h
  rfl

end Pending

variable [CharacterNames]

/-- Goes on reading with what a token came to. -/
def Progress.readOn (cursor : Nat) (text : List Char) (names : List String) : Progress → ReadStep
  | .finished form => ⟨.form ⟨form, names⟩, cursor⟩
  | .pending stack => readFrom cursor text stack names

/-- Reading takes `chars`, which stand at `cursor` before `rest`, and thereby comes to
`progress`. -/
def Takes (cursor : Nat) (stack : List Pending) (chars rest : List Char) (progress : Progress) :
    Prop :=
  ∀ names, ∃ names', readFrom cursor (chars ++ rest) stack names
    = progress.readOn (cursor + chars.length) rest names'

theorem Takes.trans {cursor cursor' : Nat} {stack stack' : List Pending}
    {chars more rest : List Char} {progress : Progress}
    (h : Takes cursor stack chars (more ++ rest) (.pending stack'))
    (h' : Takes cursor' stack' more rest progress) (hcursor : cursor' = cursor + chars.length) :
    Takes cursor stack (chars ++ more) rest progress := by
  subst hcursor
  intro names
  obtain ⟨names', heq⟩ := h names
  obtain ⟨names'', heq'⟩ := h' names'
  refine ⟨names'', ?_⟩
  rw [List.append_assoc, heq, List.length_append, ← Nat.add_assoc]
  exact heq'

/-- Characters after a gap are taken as a token if it is scanned from them and takes no more. -/
theorem takes_of_scan {token : Token} {c : Char} {more rest : List Char} (gap : List GapPiece)
    (hnoGap : Gap.width (c :: more ++ rest) = 0)
    (hscan : Lexeme.scan c (more ++ rest) = .ok ⟨token, more.length⟩) {cursor start stop : Nat}
    {stack : List Pending} {progress : Progress} (hstart : start = cursor + (gapText gap).length)
    (hstop : stop = start + (c :: more).length)
    (habsorb : Pending.absorb stack ⟨start, stop⟩ token = .ok progress) :
    Takes cursor stack (gapText gap ++ c :: more) rest progress := by
  subst hstart hstop
  have hwidth : Gap.width (gapText gap ++ (c :: more) ++ rest) = (gapText gap).length := by
    rw [List.append_assoc, Gap.width_gapText_append, hnoGap, Nat.add_zero]
  have hdrop : (gapText gap ++ (c :: more) ++ rest).drop (gapText gap).length
      = c :: (more ++ rest) := by
    rw [List.append_assoc, List.drop_left, List.cons_append]
  intro names
  refine ⟨token.addName names, ?_⟩
  rw [readFrom]
  simp only [hwidth]
  split
  · next hnil =>
    rw [hwidth, hdrop] at hnil
    cases hnil
  · next c' rest' hcons =>
    rw [hwidth, hdrop] at hcons
    obtain ⟨rfl, rfl⟩ := List.cons.inj hcons
    simp only [hscan, Lexeme.width, List.drop_left]
    have hstop : cursor + (gapText gap ++ c :: more).length
        = cursor + (gapText gap).length + (more.length + 1) := by
      rw [List.length_append, List.length_cons, Nat.add_assoc]
    rw [List.length_cons] at habsorb
    rw [habsorb, hstop]
    cases progress <;> rfl

theorem Token.WrittenAs.takes {token : Token} {chars rest : List Char} (h : token.WrittenAs chars)
    (gap : List GapPiece) (hrest : Boundary rest) {cursor start stop : Nat} {stack : List Pending}
    {progress : Progress} (hstart : start = cursor + (gapText gap).length)
    (hstop : stop = start + chars.length)
    (habsorb : Pending.absorb stack ⟨start, stop⟩ token = .ok progress) :
    Takes cursor stack (gapText gap ++ chars) rest progress := by
  obtain ⟨c, more, rfl, hscan⟩ := h.scanned
  exact takes_of_scan gap (h.noGap rest) (hscan rest hrest) hstart hstop habsorb

theorem takes_closing (bracket : Bracket) (last : Separator) {rest : List Char}
    (hrest : Boundary rest) {cursor : Nat} (stop : Nat) {stack outer : List Pending} {form : Form}
    {progress : Progress} (hstop : stop = cursor + (last.text ++ [bracket.closing]).length)
    (hclose : Pending.close bracket stop stack = .ok (form, outer))
    (hdeliver : Pending.deliver form outer = .ok progress) :
    Takes cursor stack (last.text ++ [bracket.closing]) rest progress := by
  have habsorb : Pending.absorb stack ⟨cursor + last.text.length, stop⟩ (.closing bracket)
      = .ok progress := by
    simp only [Pending.absorb, hclose]
    exact Pending.deliverTaken_of_deliver hdeliver
  refine (Token.writtenAs_closing bracket).takes last.pieces hrest rfl ?_ habsorb
  rw [hstop, List.length_append, Nat.add_assoc]
  rfl

/-- A bracket, what stands between it and the closing one, and that one are taken if what
stands between is. -/
theorem takes_bracketed {token : Token} {spelling : List Char}
    (hspelling : token.WrittenAs spelling) (bracket : Bracket) (gap : List GapPiece)
    (items : Writings) (last : Separator)
    {rest : List Char} (hrest : Boundary rest) {cursor start : Nat}
    (hstart : start = cursor + (gapText gap).length) {stack : List Pending}
    {opened filled : Pending} {form : Form} {progress : Progress}
    (hopened : Pending.absorb stack ⟨start, start + spelling.length⟩ token
      = .ok (.pending (opened :: stack)))
    (hfilled : Takes (start + spelling.length) (opened :: stack) items.text
      ((last.text ++ [bracket.closing]) ++ rest) (.pending (filled :: stack)))
    (hclose : Pending.close bracket
      (start + (spelling ++ (items.text ++ (last.text ++ [bracket.closing]))).length)
      (filled :: stack) = .ok (form, stack))
    (hdeliver : Pending.deliver form stack = .ok progress) :
    Takes cursor stack
      (gapText gap ++ (spelling ++ (items.text ++ (last.text ++ [bracket.closing])))) rest
      progress := by
  have opening : Takes cursor stack (gapText gap ++ spelling)
      (items.text ++ ((last.text ++ [bracket.closing]) ++ rest)) (.pending (opened :: stack)) :=
    hspelling.takes gap (items.boundary (last.boundary_append _ _)) hstart rfl hopened
  have closing : Takes (start + spelling.length + items.text.length) (filled :: stack)
      (last.text ++ [bracket.closing]) rest progress :=
    takes_closing bracket last hrest _ (by grind) hclose hdeliver
  have := (opening.trans hfilled (by grind)).trans closing (by grind)
  simpa using this

/-- What is written of a dotted list from the separator before its dot on. -/
def dottedEnd (beforeDot afterDot : Separator) (tail : List Char) (last : Separator) : List Char :=
  (beforeDot.text ++ ['.']) ++ ((afterDot.text ++ tail) ++ (last.text ++ [')']))

theorem takes_dottedEnd {start cursor : Nat} {items : List Form} (hitems : items ≠ [])
    (beforeDot afterDot last : Separator) {chars rest : List Char} (hrest : Boundary rest)
    {tail : Form} {stack : List Pending} {progress : Progress} (stop : Nat)
    (hstop : stop = cursor + (dottedEnd beforeDot afterDot chars last).length)
    (taken : Takes (cursor + beforeDot.text.length + 1) (.list start (.dotSeen items) :: stack)
      (afterDot.text ++ chars) ((last.text ++ [')']) ++ rest)
      (.pending (.list start (.tailSeen items tail) :: stack)))
    (h : Pending.deliver (.dotted ⟨⟨start, stop⟩, none⟩ items.reverse tail) stack = .ok progress) :
    Takes cursor (.list start (.proper items) :: stack) (dottedEnd beforeDot afterDot chars last)
      rest progress := by
  have dotted : Takes cursor (.list start (.proper items) :: stack) (beforeDot.text ++ ['.'])
      ((afterDot.text ++ chars) ++ ((last.text ++ [')']) ++ rest))
      (.pending (.list start (.dotSeen items) :: stack)) :=
    Token.writtenAs_dot.takes beforeDot.pieces (afterDot.boundary_append _ _) rfl rfl
      (Pending.absorb_dot hitems stack _)
  have closed : Takes (cursor + beforeDot.text.length + 1 + (afterDot.text ++ chars).length)
      (.list start (.tailSeen items tail) :: stack) (last.text ++ [')']) rest progress := by
    refine takes_closing .round last hrest stop ?_ rfl h
    grind [dottedEnd]
  have := (dotted.trans taken (by grind)).trans closed (by grind)
  simpa [dottedEnd] using this

mutual

/-- A form that is written after a gap is taken as a whole and handed on. -/
theorem Writing.takes (writing : Writing) (gap : List GapPiece) {rest : List Char}
    (hrest : Boundary rest) {cursor start : Nat} (hstart : start = cursor + (gapText gap).length)
    {stack : List Pending} {progress : Progress}
    (h : Pending.deliver (writing.form start) stack = .ok progress) :
    Takes cursor stack (gapText gap ++ writing.text) rest progress := by
  match writing with
  | .leaf leaf =>
    exact leaf.writtenAs.takes gap hrest hstart rfl (Pending.deliverTaken_of_deliver h)
  | .list items last =>
    refine takes_bracketed Token.writtenAs_listOpening .round gap items last hrest hstart rfl
      (items.takes (last.boundary_append _ _) (start + 1) (Pending.gathers_list start) [] stack)
      ?_ h
    simp [Pending.close, Writing.form, Writing.label, Writing.text, Bracket.closing]
  | .vector opening items last =>
    refine takes_bracketed (Token.writtenAs_vectorOpening opening) opening.bracket gap items last
      hrest hstart rfl (items.takes (last.boundary_append _ _) (start + opening.spelling.length)
        (Pending.gathers_vector start opening.bracket) [] stack) ?_ h
    simp [Pending.close, Writing.form, Writing.label, Writing.text]
  | .dotted lead first more beforeDot afterDot tail last =>
    have hdot : Boundary (dottedEnd beforeDot afterDot tail.text last ++ rest) := by
      rw [dottedEnd, List.append_assoc]
      exact beforeDot.boundary_append _ _
    have opened : Takes cursor stack (gapText gap ++ ['('])
        ((lead.text ++ first.text)
          ++ (more.text ++ (dottedEnd beforeDot afterDot tail.text last ++ rest)))
        (.pending (.list start (.proper []) :: stack)) :=
      Token.writtenAs_listOpening.takes gap (lead.boundary_append _ _) hstart rfl rfl
    obtain ⟨second, hsecond⟩ : ∃ n, n = start + 1 + lead.text.length + first.text.length :=
      ⟨_, rfl⟩
    have headed := first.takes lead.pieces (more.boundary hdot) rfl
      (Pending.gathers_list start (first.form (start + 1 + lead.text.length)) [] stack)
    have filled := more.takes hdot second (Pending.gathers_list start)
      [first.form (start + 1 + lead.text.length)] stack
    have ended : Takes (second + more.text.length) (.list start (.proper
        ((more.forms second).reverse ++ [first.form (start + 1 + lead.text.length)])) :: stack)
        (dottedEnd beforeDot afterDot tail.text last) rest progress := by
      refine takes_dottedEnd (by simp) beforeDot afterDot last hrest
        (start + (Writing.dotted lead first more beforeDot afterDot tail last).text.length)
        (by grind [Writing.text, dottedEnd])
        (tail.takes afterDot.pieces (last.boundary_append _ _) rfl rfl) ?_
      rw [List.reverse_append, List.reverse_reverse, hsecond]
      exact h
    have := ((opened.trans headed (by grind)).trans filled (by grind [Separator.text])).trans ended
      (by grind [Separator.text])
    simpa [Writing.text, dottedEnd, Separator.text] using this
  | .quoted mark after operand =>
    have marked : Takes cursor stack (gapText gap ++ mark.spelling)
        ((after.text ++ operand.text) ++ rest) (.pending (.mark start mark :: stack)) :=
      (Token.writtenAs_mark mark).takes gap (after.boundary_append _ _) hstart rfl rfl
    have hstop : (operand.form (start + mark.spelling.length + after.text.length)).stop
        = start + (Writing.quoted mark after operand).text.length := by
      rw [Writing.stop_form]
      grind [Writing.text]
    have taken : Takes (start + mark.spelling.length) (.mark start mark :: stack)
        (after.text ++ operand.text) rest progress := by
      refine operand.takes after.pieces hrest rfl ?_
      rw [← h]
      exact Pending.deliver_mark hstop start mark stack
    have := marked.trans taken (by grind)
    simpa [Writing.text] using this

theorem Writings.takes (items : Writings) {rest : List Char} (hrest : Boundary rest)
    (cursor : Nat) {frame : List Form → Pending} (hframe : Pending.Gathers frame)
    (before : List Form) (outer : List Pending) :
    Takes cursor (frame before :: outer) items.text rest
      (.pending (frame ((items.forms cursor).reverse ++ before) :: outer)) := by
  match items with
  | .nil => exact fun names => ⟨names, rfl⟩
  | .cons separator first more =>
    have taken : Takes cursor (frame before :: outer) (separator.text ++ first.text)
        (more.text ++ rest) (.pending (frame (first.form _ :: before) :: outer)) :=
      first.takes separator.pieces (more.boundary hrest) rfl (hframe _ _ _)
    have others := more.takes hrest (cursor + separator.text.length + first.text.length) hframe
      (first.form (cursor + separator.text.length) :: before) outer
    have := taken.trans others (by rw [List.length_append, Nat.add_assoc])
    simpa [Writings.forms, Writings.text] using this

end

/-- Forms at the top of a text, a separator between any two. -/
inductive Page where
  | blank
  | filled (first : Writing) (more : Writings)

def Page.text : Page → List Char
  | .blank => []
  | .filled first more => first.text ++ more.text

def Page.forms : Page → List Form
  | .blank => []
  | .filled first more => first.form 0 :: more.forms first.text.length

/-- What reading to the end of `text` from `cursor` on gives: the forms, and no fault. -/
def ReadsAll (cursor : Nat) (text : List Char) (forms : List Form) : Prop :=
  (Transcript.ofSteps (readSteps cursor text)).tops.map (·.form) = forms ∧
    (Transcript.ofSteps (readSteps cursor text)).error = none

theorem readsAll_nil (cursor : Nat) : ReadsAll cursor [] [] := by
  unfold ReadsAll
  rw [readSteps_nil]
  exact ⟨rfl, rfl⟩

theorem Takes.readsAll {cursor : Nat} {chars rest : List Char} {form : Form} {forms : List Form}
    (h : Takes cursor [] chars rest (.finished form))
    (hrest : ReadsAll (cursor + chars.length) rest forms) :
    ReadsAll cursor (chars ++ rest) (form :: forms) := by
  obtain ⟨names, hstep⟩ := h []
  have hsteps : readSteps cursor (chars ++ rest)
      = ⟨.form ⟨form, names⟩, cursor + chars.length⟩ :: readSteps (cursor + chars.length) rest := by
    rw [readSteps_of_form hstep, Nat.add_sub_cancel_left, List.drop_left]
  unfold ReadsAll
  rw [hsteps]
  simp only [Transcript.ofSteps, List.map_cons]
  exact ⟨congrArg (form :: ·) hrest.1, hrest.2⟩

theorem Writing.readsAll (writing : Writing) (gap : List GapPiece) {cursor stop : Nat}
    (hstop : stop = cursor + (gapText gap ++ writing.text).length) {more : Writings}
    {forms : List Form} (h : ReadsAll stop more.text forms) :
    ReadsAll cursor ((gapText gap ++ writing.text) ++ more.text)
      (writing.form (cursor + (gapText gap).length) :: forms) := by
  subst hstop
  have hmore := more.boundary boundary_nil
  rw [List.append_nil] at hmore
  exact (writing.takes gap hmore rfl rfl).readsAll h

theorem Writings.readsAll (items : Writings) (cursor : Nat) :
    ReadsAll cursor items.text (items.forms cursor) := by
  match items with
  | .nil => exact readsAll_nil cursor
  | .cons before first more =>
    refine first.readsAll before.pieces ?_ (more.readsAll _)
    rw [List.length_append, Nat.add_assoc]
    rfl

/-- What was written is read: every form of the page in order, with the values, the items
and the offsets it was written with, and without a fault. -/
theorem Page.transcript_text (page : Page) :
    (Transcript.ofText page.text).tops.map (·.form) = page.forms ∧
      (Transcript.ofText page.text).error = none := by
  cases page with
  | blank => exact readsAll_nil 0
  | filled first more =>
    refine first.readsAll [] ?_ (more.readsAll _)
    exact (Nat.zero_add _).symm

/-- Brackets in comments and character literals are no brackets. -/
example :
    let blank : Separator := ⟨' ', by decide, []⟩
    let comment : Separator := ⟨' ', by decide, [.comment [')'] (by decide)]⟩
    (Page.filled (.dotted blank (.leaf (.plain ['f'] (by decide))) .nil comment blank
      (.leaf (.character ')' (by decide))) blank) .nil).text = "( f ;)\n. ?) )".toList := by
  decide

end LispXref
