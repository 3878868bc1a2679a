import LispXref.Proofs.Reader.Completeness
import LispXref.Proofs.Reader.Concatenation
import LispXref.Proofs.Reader.Reread
import LispXref.Proofs.Search.WrittenOut

/-! Texts in which quotes are written out. The tokens of all forms of a text, one on a line and
with a list in the place of every quote, make a text from which the same forms are read, but for
the quotes and for the offsets. -/
namespace LispXref

namespace Form

/-- The same form with every quote written out as a list. Other marks stay, and so do offsets. -/
abbrev quotesWrittenOut : Form → Form := recast (fun label => label) fun mark => mark = .quote

/-- The form without its labels: all offsets are zero and nothing is on record. -/
abbrev unplaced : Form → Form := recast (fun _ => ⟨⟨0, 0⟩, none⟩) fun _ => false

mutual

/-- The tokens of a form of `text`, in order, with every quote written out as a list. -/
def tokens (text : List Char) : Form → List (List Char)
  | .atom label _ => [label.span.slice text]
  | .list _ items => ['('] :: (tokensAll text items ++ [[')']])
  | .dotted _ items tail =>
    ['('] :: (tokensAll text items ++ (['.'] :: (tokens text tail ++ [[')']])))
  | .vector _ items => ['['] :: (tokensAll text items ++ [[']']])
  | .quoted _ mark operand =>
    if mark = .quote then ['('] :: ((mark.head.toList :: tokens text operand) ++ [[')']])
    else mark.spelling :: tokens text operand

def tokensAll (text : List Char) : List Form → List (List Char)
  | [] => []
  | form :: rest => tokens text form ++ tokensAll text rest

end

theorem tokensAll_eq (items : List Form) (text : List Char) :
    tokensAll text items = items.flatMap (tokens text) := by
  induction items with
  | nil => rfl
  | cons form rest ih => rw [tokensAll, ih, List.flatMap_cons]

end Form

/-- Tokens on lines of their own. -/
def laidOut (tokens : List (List Char)) : List Char := tokens.flatMap ('\n' :: ·)

theorem laidOut_append (tokens more : List (List Char)) :
    laidOut (tokens ++ more) = laidOut tokens ++ laidOut more := List.flatMap_append

theorem boundary_laidOut (tokens : List (List Char)) : Boundary (laidOut tokens) := by
  cases tokens with
  | nil => exact boundary_nil
  | cons token more =>
    intro c hc
    obtain rfl : '\n' = c := by simpa [laidOut] using hc
    decide

/-- The gap before a token on a line of its own. -/
def lineGap : List GapPiece := [.blank '\n' (by decide)]

/-- Only an atom is finished as one. -/
theorem Pending.eq_of_deliver_atom {stack : List Pending} {form : Form} {label : Label}
    {value : Atom} (h : deliver form stack = .ok (.finished (.atom label value))) :
    form = .atom label value := by
  fun_induction deliver form stack with
  | case1 form =>
    cases h
    rfl
  | case2 form start quotation outer ih => cases ih h
  | case3 | case4 | case5 | case6 => cases h

theorem Pending.token_of_absorb_atom {stack : List Pending} {label : Label} {covered : Span}
    {token : Token} {value : Atom}
    (h : absorb stack covered token = .ok (.finished (.atom label value))) :
    token = .atom value ∧ label = ⟨covered, none⟩ := by
  cases token with
  | opening opener => cases opener <;> cases h
  | mark quotation => cases h
  | dot =>
    obtain ⟨_, _, _, -, -, hpending⟩ := absorb_dot_cases h
    cases hpending
  | closing bracket =>
    obtain ⟨form, outer, hclose, hdeliver⟩ := deliver_of_absorb_closing h
    obtain rfl := eq_of_deliver_atom hdeliver
    obtain ⟨_, _, -, h⟩ | ⟨_, _, -, -, h⟩ | ⟨_, _, _, -, -, h⟩ := close_cases hclose <;> cases h
  | atom found =>
    cases eq_of_deliver_atom (deliver_of_deliverTaken h)
    exact ⟨rfl, rfl⟩

variable [CharacterNames]

/-- What it takes to write the tokens of a form of `text` elsewhere: an atom is a lexeme of the
text, and an improper list has an item before its dot. -/
def Form.HasTokens (text : List Char) : Form → Prop
  | .atom label value => ∃ lexeme, LexemeAt text label.span.start label.span.start lexeme ∧
      lexeme.token = .atom value ∧ lexeme.spanAt label.span.start = label.span
  | .dotted _ items _ => items ≠ []
  | .list _ _ | .vector _ _ | .quoted _ _ _ => True

section

variable {cursor : Nat} {stack stack' : List Pending} {tokens more : List (List Char)}
  {others : List (List Char)} {progress : Progress}

theorem Takes.trans_laidOut
    (h : Takes cursor stack (laidOut tokens) (laidOut (more ++ others)) (.pending stack'))
    (h' : Takes (cursor + (laidOut tokens).length) stack' (laidOut more) (laidOut others)
      progress) :
    Takes cursor stack (laidOut (tokens ++ more)) (laidOut others) progress := by
  rw [laidOut_append] at h ⊢
  exact h.trans h' rfl

theorem Token.WrittenAs.takes_laidOut {token : Token} {chars : List Char}
    (h : token.WrittenAs chars) (others : List (List Char))
    (habsorb : Pending.absorb stack ⟨cursor + 1, cursor + 1 + chars.length⟩ token = .ok progress) :
    Takes cursor stack (laidOut [chars]) (laidOut others) progress := by
  have := h.takes lineGap (boundary_laidOut others) rfl rfl habsorb
  simpa [laidOut, lineGap, gapText, GapPiece.text] using this

theorem LexemeAt.take_append_laidOut {text : List Char} {start : Nat} {lexeme : Lexeme}
    (h : LexemeAt text start start lexeme) (others : List (List Char)) :
    LexemeAt (text.take (start + lexeme.width) ++ laidOut others) start start lexeme := by
  have hcut := h.take (Nat.le_refl (start + lexeme.width))
  cases others with
  | nil => rwa [laidOut, List.flatMap_nil, List.append_nil]
  | cons token more =>
    refine hcut.append_newline ?_ _
    rw [List.drop_take_self]
    exact List.cons_ne_nil _ _ |>.symm

/-- The characters of a lexeme are taken as the same token where they stand on a line of their
own. -/
theorem LexemeAt.takes_laidOut {text : List Char} {start : Nat} {lexeme : Lexeme}
    (h : LexemeAt text start start lexeme) (others : List (List Char))
    (habsorb : Pending.absorb stack ⟨cursor + 1, cursor + 1 + lexeme.width⟩ lexeme.token
      = .ok progress) :
    Takes cursor stack (laidOut [(lexeme.spanAt start).slice text]) (laidOut others) progress := by
  have hslice : (text.take (start + lexeme.width)).drop start = (lexeme.spanAt start).slice text :=
    List.drop_take
  have hlength : ((lexeme.spanAt start).slice text).length = lexeme.width := by
    rw [← hslice, List.length_drop, List.length_take, Nat.min_eq_left h.stop_le]
    omega
  have hat := h.take_append_laidOut others
  have hstart : start ≤ (text.take (start + lexeme.width)).length := by
    rw [List.length_take, Nat.min_eq_left h.stop_le]
    omega
  have hgap := hat.width_eq_zero
  obtain ⟨c, rest, hdrop, hscan⟩ := hat.scanned
  rw [List.drop_append_of_le_length hstart, hslice] at hgap hdrop
  obtain ⟨more, hmore, rfl⟩ :
      ∃ more, (lexeme.spanAt start).slice text = c :: more ∧ rest = more ++ laidOut others := by
    cases hchars : (lexeme.spanAt start).slice text with
    | nil =>
      rw [hchars] at hlength
      cases hlength
    | cons d more =>
      rw [hchars, List.cons_append] at hdrop
      obtain ⟨rfl, rfl⟩ := List.cons.inj hdrop
      exact ⟨more, rfl, rfl⟩
  rw [hmore] at hgap hlength ⊢
  have htail : more.length = lexeme.tail := Nat.succ.inj hlength
  have := takes_of_scan lineGap hgap (by rw [hscan, htail]) rfl rfl (by rw [hlength]; exact habsorb)
  simpa [laidOut, lineGap, gapText, GapPiece.text] using this

/-- Reading takes a form from the lines of its tokens, whatever is open and whatever lines
follow. -/
def Form.ReadAt (cursor : Nat) (tokens : List (List Char)) (form : Form) : Prop :=
  ∀ others stack progress, Pending.deliver form stack = .ok progress →
    Takes cursor stack (laidOut tokens) (laidOut others) progress

/-- Reading takes forms in a row from the lines of their tokens into what is open. -/
def Form.AllReadAt (cursor : Nat) (tokens : List (List Char)) (forms : List Form) : Prop :=
  ∀ others frame, Pending.Gathers frame → ∀ before outer,
    Takes cursor (frame before :: outer) (laidOut tokens) (laidOut others)
      (.pending (frame (forms.reverse ++ before) :: outer))

end

namespace Form

variable {cursor : Nat} {tokens more : List (List Char)} {form tail : Form} {items : List Form}

theorem allReadAt_nil : AllReadAt cursor [] [] :=
  fun _ _ _ _ _ names => ⟨names, rfl⟩

theorem ReadAt.cons (h : form.ReadAt cursor tokens)
    (hmore : AllReadAt (cursor + (laidOut tokens).length) more items) :
    AllReadAt cursor (tokens ++ more) (form :: items) := by
  intro others frame hframe before outer
  have hrest := hmore others frame hframe (form :: before) outer
  rw [List.reverse_cons, List.append_assoc]
  exact (h _ _ _ (hframe form before outer)).trans_laidOut hrest

theorem readAt_atom {text : List Char} {start : Nat} {lexeme : Lexeme} {value : Atom}
    (h : LexemeAt text start start lexeme) (htoken : lexeme.token = .atom value) :
    ReadAt cursor [(lexeme.spanAt start).slice text]
      (.atom ⟨⟨cursor + 1, cursor + 1 + lexeme.width⟩, none⟩ value) := by
  intro others stack progress hdeliver
  apply h.takes_laidOut others
  rw [htoken]
  exact Pending.deliverTaken_of_deliver hdeliver

theorem takes_closing_laidOut (bracket : Bracket) {stack outer : List Pending} {form : Form}
    {progress : Progress} (others : List (List Char))
    (hclose : Pending.close bracket (cursor + 2) stack = .ok (form, outer))
    (hdeliver : Pending.deliver form outer = .ok progress) :
    Takes cursor stack (laidOut [[bracket.closing]]) (laidOut others) progress := by
  apply (Token.writtenAs_closing bracket).takes_laidOut others
  simp only [Pending.absorb, List.length_cons, List.length_nil, hclose]
  exact Pending.deliverTaken_of_deliver hdeliver

/-- Forms in a row between brackets. -/
theorem AllReadAt.bracketed (h : AllReadAt (cursor + 2) tokens items) {token : Token} {c : Char}
    (hopening : token.WrittenAs [c]) (bracket : Bracket) {frame : List Form → Pending}
    (hframe : Pending.Gathers frame)
    (hopened : ∀ stack, Pending.absorb stack ⟨cursor + 1, cursor + 2⟩ token
      = .ok (.pending (frame [] :: stack)))
    (hclosed : ∀ stack, Pending.close bracket (cursor + 2 + (laidOut tokens).length + 2)
      (frame items.reverse :: stack) = .ok (form, stack)) :
    ReadAt cursor ([c] :: (tokens ++ [[bracket.closing]])) form := by
  intro others stack progress hdeliver
  have hopen : Takes cursor stack (laidOut [[c]])
      (laidOut ((tokens ++ [[bracket.closing]]) ++ others)) (.pending (frame [] :: stack)) :=
    hopening.takes_laidOut _ (hopened stack)
  have hitems := h ([[bracket.closing]] ++ others) frame hframe [] stack
  rw [List.append_nil] at hitems
  exact hopen.trans_laidOut
    (hitems.trans_laidOut (takes_closing_laidOut bracket others (hclosed stack) hdeliver))

theorem AllReadAt.list (h : AllReadAt (cursor + 2) tokens items) :
    ReadAt cursor (['('] :: (tokens ++ [[')']]))
      (.list ⟨⟨cursor + 1, cursor + 2 + (laidOut tokens).length + 2⟩, none⟩ items) :=
  h.bracketed Token.writtenAs_listOpening .round (Pending.gathers_list (cursor + 1))
    (fun _ => rfl) (fun _ => by simp [Pending.close])

theorem AllReadAt.vector (h : AllReadAt (cursor + 2) tokens items) :
    ReadAt cursor (['['] :: (tokens ++ [[']']]))
      (.vector ⟨⟨cursor + 1, cursor + 2 + (laidOut tokens).length + 2⟩, none⟩ items) :=
  h.bracketed (Token.writtenAs_vectorOpening .square) .square
    (Pending.gathers_vector (cursor + 1) .square) (fun _ => rfl) (fun _ => by simp [Pending.close])

theorem AllReadAt.dotted (h : AllReadAt (cursor + 2) tokens items) (hitems : items ≠ [])
    (htail : tail.ReadAt (cursor + 2 + (laidOut tokens).length + 2) more) :
    ReadAt cursor (['('] :: (tokens ++ (['.'] :: (more ++ [[')']]))))
      (.dotted ⟨⟨cursor + 1,
        cursor + 2 + (laidOut tokens).length + 2 + (laidOut more).length + 2⟩, none⟩
        items tail) := by
  intro others stack progress hdeliver
  have hopen : Takes cursor stack (laidOut [['(']])
      (laidOut ((tokens ++ (['.'] :: (more ++ [[')']]))) ++ others))
      (.pending (.list (cursor + 1) (.proper []) :: stack)) :=
    Token.writtenAs_listOpening.takes_laidOut _ rfl
  have hfilled := h ((['.'] :: (more ++ [[')']])) ++ others) _
    (Pending.gathers_list (cursor + 1)) [] stack
  rw [List.append_nil] at hfilled
  have hdot : Takes (cursor + 2 + (laidOut tokens).length)
      (.list (cursor + 1) (.proper items.reverse) :: stack) (laidOut [['.']])
      (laidOut ((more ++ [[')']]) ++ others))
      (.pending (.list (cursor + 1) (.dotSeen items.reverse) :: stack)) :=
    Token.writtenAs_dot.takes_laidOut _
      (Pending.absorb_dot (mt List.reverse_eq_nil_iff.mp hitems) stack _)
  have hended := htail ([[')']] ++ others) (.list (cursor + 1) (.dotSeen items.reverse) :: stack)
    (.pending (.list (cursor + 1) (.tailSeen items.reverse tail) :: stack)) rfl
  refine hopen.trans_laidOut (hfilled.trans_laidOut (hdot.trans_laidOut
    (hended.trans_laidOut (takes_closing_laidOut .round others ?_ hdeliver))))
  simp [Pending.close, laidOut]

theorem ReadAt.quoted (mark : Quotation)
    (h : form.ReadAt (cursor + 1 + mark.spelling.length) tokens) :
    ReadAt cursor (mark.spelling :: tokens)
      (.quoted ⟨⟨cursor + 1, form.stop⟩, none⟩ mark form) := by
  intro others stack progress hdeliver
  have hmark : Takes cursor stack (laidOut [mark.spelling]) (laidOut (tokens ++ others))
      (.pending (.mark (cursor + 1) mark :: stack)) :=
    (Token.writtenAs_mark mark).takes_laidOut _ rfl
  refine hmark.trans_laidOut ?_
  have hlength : (laidOut [mark.spelling]).length = 1 + mark.spelling.length := by
    simp [laidOut, Nat.add_comm]
  rw [hlength, ← Nat.add_assoc]
  exact h others _ _ hdeliver

theorem readAt_quote : ReadAt cursor [Quotation.quote.head.toList]
    (.atom ⟨⟨cursor + 1, cursor + 6⟩, none⟩ (.symbol Quotation.quote.head)) := by
  intro others stack progress hdeliver
  have hspelled : Token.WrittenAs (.atom (.symbol "quote")) "quote".toList :=
    (Leaf.plain "quote".toList (by decide)).writtenAs
  exact hspelled.takes_laidOut others (Pending.deliverTaken_of_deliver hdeliver)

/-- The form that is read at `cursor` from the tokens of a form of `text`. -/
structure WrittenOutAt (text : List Char) (cursor : Nat) (form placed : Form) : Prop where
  unplaced : placed.unplaced = form.quotesWrittenOut.unplaced
  readAt : placed.ReadAt cursor (form.tokens text)

theorem exists_allReadAt {text : List Char}
    (h : ∀ item ∈ items, ∀ cursor, ∃ placed, WrittenOutAt text cursor item placed) (cursor : Nat) :
    ∃ placed : List Form, placed.map unplaced = (items.map quotesWrittenOut).map unplaced ∧
      AllReadAt cursor (items.flatMap (Form.tokens text)) placed := by
  induction items generalizing cursor with
  | nil => exact ⟨[], rfl, allReadAt_nil⟩
  | cons item rest ih =>
    obtain ⟨first, hfirst, hread⟩ := h item List.mem_cons_self cursor
    obtain ⟨more, hmore, hreads⟩ := ih (fun other hother => h other (List.mem_cons_of_mem _ hother))
      (cursor + (laidOut (item.tokens text)).length)
    refine ⟨first :: more, ?_, hread.cons hreads⟩
    rw [List.map_cons, List.map_cons, List.map_cons, hfirst, hmore]

/-- A form all through which there are tokens can be read from them anywhere. -/
theorem exists_writtenOutAt {text : List Char} (h : ∀ node ∈ form.nodes, node.HasTokens text)
    (cursor : Nat) : ∃ placed, WrittenOutAt text cursor form placed := by
  -- where the parts come to stand follows from the lines before them, so that the places are
  -- found on the way and not named in the statement
  induction form using induction_parts generalizing cursor with
  | step form ih =>
    obtain ⟨hform, hparts⟩ := forall_nodes_iff.mp h
    replace ih (part : Form) (hpart : part ∈ form.parts) := ih part hpart (hparts part hpart)
    cases form with
    | atom label value =>
      obtain ⟨lexeme, hlexeme, htoken, hspan⟩ := hform
      have hread : ReadAt cursor _ _ := readAt_atom hlexeme htoken
      rw [hspan] at hread
      exact ⟨.atom ⟨⟨cursor + 1, cursor + 1 + lexeme.width⟩, none⟩ value, rfl, hread⟩
    | list label items =>
      have hitems : ∀ item ∈ items, _ := ih
      obtain ⟨placed, heq, hread⟩ := exists_allReadAt hitems (cursor + 2)
      refine ⟨_, ?_, tokensAll_eq items text ▸ hread.list⟩
      simp only [recast_list, heq]
    | vector label items =>
      have hitems : ∀ item ∈ items, _ := ih
      obtain ⟨placed, heq, hread⟩ := exists_allReadAt hitems (cursor + 2)
      refine ⟨_, ?_, tokensAll_eq items text ▸ hread.vector⟩
      simp only [recast_vector, heq]
    | dotted label items tail =>
      obtain ⟨placed, heq, hread⟩ := exists_allReadAt
        (fun item hitem => ih item (List.mem_append_left _ hitem)) (cursor + 2)
      obtain ⟨last, hlast, htail⟩ := ih tail (List.mem_append_right _ List.mem_cons_self)
        (cursor + 2 + (laidOut (items.flatMap (Form.tokens text))).length + 2)
      have hne : placed ≠ [] := by
        rintro rfl
        rw [List.map_nil, eq_comm, List.map_eq_nil_iff, List.map_eq_nil_iff] at heq
        exact hform heq
      refine ⟨_, ?_, tokensAll_eq items text ▸ hread.dotted hne htail⟩
      simp only [recast_dotted, heq, hlast]
    | quoted label mark operand =>
      have hoperand := ih operand List.mem_cons_self
      by_cases hmark : mark = .quote
      · subst hmark
        obtain ⟨placed, heq, hread⟩ := hoperand (cursor + 2 + 6)
        have hboth := readAt_quote.cons (hread.cons allReadAt_nil)
        rw [List.append_nil] at hboth
        refine ⟨_, ?_, hboth.list⟩
        simp [heq, Quotation.headAt]
      · obtain ⟨placed, heq, hread⟩ := hoperand (cursor + 1 + mark.spelling.length)
        have htokens : Form.tokens text (.quoted label mark operand)
            = mark.spelling :: operand.tokens text := by
          rw [Form.tokens, if_neg hmark]
        refine ⟨_, ?_, htokens ▸ hread.quoted mark⟩
        simp [heq, hmark]

end Form

section

variable {text : List Char} {cursor stop : Nat} {stack : List Pending} {names : List String}
  {top : TopForm}

/-- What holds of every form that a lexeme finishes holds all through what is read. -/
theorem Reads.throughout {P : Form → Prop} (h : Reads text cursor stack names top stop)
    (hnew : ∀ cursor start lexeme inner whole, LexemeAt text cursor start lexeme →
      Pending.absorb inner (lexeme.spanAt start) lexeme.token = .ok (.finished whole) → P whole)
    (hstack : Throughout P (Pending.forms stack)) : ∀ node ∈ top.form.nodes, P node := by
  induction h with
  | finish hl ha =>
    have hforms := Pending.throughout_of_absorb (fun inner _ whole _ => hnew _ _ _ inner whole hl)
      hstack ha
    exact hforms _ List.mem_cons_self
  | step hl ha _ ih =>
    exact ih (Pending.throughout_of_absorb (fun inner _ whole _ => hnew _ _ _ inner whole hl)
      hstack ha)

/-- All that is read from a text has its tokens there. -/
theorem Form.hasTokens_of_mem_tops {node : Form} (htop : top ∈ (Transcript.ofText text).tops)
    (hnode : node ∈ top.form.nodes) : node.HasTokens text := by
  obtain ⟨start, stop, hreads⟩ := exists_reads_of_mem_tops htop
  cases node with
  | atom label value =>
    let P (whole : Form) : Prop := whole = .atom label value → whole.HasTokens text
    have hnew : ∀ cursor start lexeme inner whole, LexemeAt text cursor start lexeme →
        Pending.absorb inner (lexeme.spanAt start) lexeme.token = .ok (.finished whole) →
        P whole := by
      rintro cursor start lexeme inner whole hl ha rfl
      obtain ⟨htoken, rfl⟩ := Pending.token_of_absorb_atom ha
      exact ⟨lexeme, hl.self, htoken, rfl⟩
    exact hreads.throughout hnew (fun form hform => absurd hform List.not_mem_nil) _ hnode rfl
  | dotted label items tail =>
    obtain ⟨-, -, htiled⟩ := hreads.tiles rfl
    obtain ⟨marks, hdecomposes⟩ := htiled _ hnode
    cases hdecomposes with
    | dotted hne => exact hne
  | list | vector | quoted => trivial

end

theorem exists_readsAll {text : List Char} {forms : List Form}
    (h : ∀ form ∈ forms, ∀ cursor, ∃ placed, Form.WrittenOutAt text cursor form placed)
    (cursor : Nat) :
    ∃ placed, placed.map Form.unplaced = (forms.map Form.quotesWrittenOut).map Form.unplaced ∧
      ReadsAll cursor (laidOut (forms.flatMap (Form.tokens text))) placed := by
  induction forms generalizing cursor with
  | nil => exact ⟨[], rfl, readsAll_nil cursor⟩
  | cons form rest ih =>
    obtain ⟨first, hfirst, hread⟩ := h form List.mem_cons_self cursor
    obtain ⟨more, hmore, hreads⟩ := ih (fun other hother => h other (List.mem_cons_of_mem _ hother))
      (cursor + (laidOut (form.tokens text)).length)
    refine ⟨first :: more, ?_, ?_⟩
    · rw [List.map_cons, List.map_cons, List.map_cons, hfirst, hmore]
    · rw [List.flatMap_cons, laidOut_append]
      exact (hread _ [] _ rfl).readsAll hreads

end LispXref
