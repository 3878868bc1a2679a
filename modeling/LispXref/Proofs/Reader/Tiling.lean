import LispXref.Proofs.Form.Nodes
import LispXref.Proofs.Reader.Run

/-! A form that was read tiles its text: between the marks by which it is written and the
forms inside it there are only gaps. The stack of open forms tiles what was read so far. -/
namespace LispXref

/-- `chars` stands at an offset of a text. -/
def Stands (text chars : List Char) (offset : Nat) : Prop :=
  Span.slice ⟨offset, offset + chars.length⟩ text = chars

/-- Forms one after another with a gap before each, from one offset to the end of the
last form. -/
def Row (text : List Char) : Nat → List Form → Nat → Prop
  | start, [], stop => start = stop
  | start, form :: forms, stop => GapIn text start form.start ∧ Row text form.stop forms stop

/-- Characters that belong to a form and to no form inside it. -/
structure Mark where
  offset : Nat
  chars : List Char

/-- The ways in which a form is made up of its marks, of gaps and of the forms inside. -/
inductive Decomposes (text : List Char) : Form → List Mark → Prop where
  | atom {span : Span} {value : Atom} :
      span.start < span.stop → span.stop ≤ text.length →
      Decomposes text (.atom ⟨span, none⟩ value) []
  | list {start last close : Nat} {items : List Form} :
      Stands text ['('] start → Row text (start + 1) items last →
      GapIn text last close → Stands text [')'] close →
      Decomposes text (.list ⟨⟨start, close + 1⟩, none⟩ items) [⟨start, ['(']⟩, ⟨close, [')']⟩]
  | vector {start last close : Nat} {items : List Form} (opening : VectorOpening) :
      Stands text opening.spelling start →
      Row text (start + opening.spelling.length) items last →
      GapIn text last close → Stands text [opening.bracket.closing] close →
      Decomposes text (.vector ⟨⟨start, close + 1⟩, none⟩ items)
        [⟨start, opening.spelling⟩, ⟨close, [opening.bracket.closing]⟩]
  | dotted {start last dot close : Nat} {items : List Form} {tail : Form} :
      items ≠ [] → Stands text ['('] start → Row text (start + 1) items last →
      GapIn text last dot → Stands text ['.'] dot → GapIn text (dot + 1) tail.start →
      GapIn text tail.stop close → Stands text [')'] close →
      Decomposes text (.dotted ⟨⟨start, close + 1⟩, none⟩ items tail)
        [⟨start, ['(']⟩, ⟨dot, ['.']⟩, ⟨close, [')']⟩]
  | quoted {start : Nat} {mark : Quotation} {operand : Form} :
      Stands text mark.spelling start →
      GapIn text (start + mark.spelling.length) operand.start →
      Decomposes text (.quoted ⟨⟨start, operand.stop⟩, none⟩ mark operand) [⟨start, mark.spelling⟩]

/-- Every form inside, the form itself included, is made up as its kind says. -/
def Tiled (text : List Char) (form : Form) : Prop :=
  ∀ node ∈ form.nodes, ∃ marks, Decomposes text node marks

section

variable {text : List Char}

theorem tiled_of_parts {form : Form} {marks : List Mark} (h : Decomposes text form marks)
    (hparts : ∀ part ∈ form.parts, Tiled text part) : Tiled text form :=
  Form.forall_nodes_iff.mpr ⟨⟨marks, h⟩, hparts⟩

theorem Row.append {start middle stop : Nat} {forms others : List Form}
    (h : Row text start forms middle) (h' : Row text middle others stop) :
    Row text start (forms ++ others) stop := by
  induction forms generalizing start with
  | nil =>
    obtain rfl : start = middle := h
    exact h'
  | cons form forms ih => exact ⟨h.1, ih h.2⟩

theorem Row.snoc {start last : Nat} {forms : List Form} {form : Form}
    (h : Row text start forms last) (hgap : GapIn text last form.start) :
    Row text start (forms ++ [form]) form.stop :=
  h.append ⟨hgap, rfl⟩

end

theorem LexemeAt.stands [CharacterNames] {text chars : List Char} {cursor start : Nat}
    {lexeme : Lexeme}
    (h : LexemeAt text cursor start lexeme)
    (hs : (lexeme.spanAt start).slice text = chars) :
    lexeme.width = chars.length ∧ Stands text chars start := by
  have hw : lexeme.width = chars.length := by
    have hlen := congrArg List.length hs
    have hle := h.stop_le
    simp only [Span.slice, Lexeme.spanAt, List.length_take, List.length_drop] at hlen
    omega
  refine ⟨hw, ?_⟩
  unfold Stands
  rw [← hw]
  exact hs

namespace Pending

def start : Pending → Nat
  | .list start _ | .vector start _ _ | .mark start _ => start

/-- An open form tiles the text from its start to `cursor`. -/
def Fits (text : List Char) (cursor : Nat) : Pending → Prop
  | .mark start quotation =>
    Stands text quotation.spelling start ∧ cursor = start + quotation.spelling.length
  | .vector start bracket items =>
    (∃ opening : VectorOpening, opening.bracket = bracket ∧ Stands text opening.spelling start ∧
      Row text (start + opening.spelling.length) items.reverse cursor) ∧
    ∀ item ∈ items, Tiled text item
  | .list start (.proper items) =>
    Stands text ['('] start ∧ Row text (start + 1) items.reverse cursor ∧
    ∀ item ∈ items, Tiled text item
  | .list start (.dotSeen items) =>
    items ≠ [] ∧ Stands text ['('] start ∧
    (∃ last dot, Row text (start + 1) items.reverse last ∧ GapIn text last dot ∧
      Stands text ['.'] dot ∧ cursor = dot + 1) ∧
    ∀ item ∈ items, Tiled text item
  | .list start (.tailSeen items tail) =>
    items ≠ [] ∧ Stands text ['('] start ∧
    (∃ last dot, Row text (start + 1) items.reverse last ∧ GapIn text last dot ∧
      Stands text ['.'] dot ∧ GapIn text (dot + 1) tail.start ∧ cursor = tail.stop) ∧
    (∀ item ∈ items, Tiled text item) ∧ Tiled text tail

/-- The open forms, innermost first, tile the text from `base` to `cursor`. -/
def Opened (text : List Char) (base : Nat) : List Pending → Nat → Prop
  | [], cursor => cursor = base
  | pending :: outer, cursor =>
    ∃ before, Opened text base outer before ∧ GapIn text before pending.start ∧
      pending.Fits text cursor

/-- A form stands, after a gap, where the open forms end. -/
structure Arrived (text : List Char) (base : Nat) (stack : List Pending) (form : Form) : Prop where
  opened : ∃ before, Opened text base stack before ∧ GapIn text before form.start
  tiled : Tiled text form

/-- What has been made of the text from `base` to `cursor`. -/
def Tiles (text : List Char) (base cursor : Nat) : Progress → Prop
  | .pending stack => Opened text base stack cursor
  | .finished form => GapIn text base form.start ∧ form.stop = cursor ∧ Tiled text form

section

variable {text : List Char} {base : Nat} {stack outer : List Pending} {form : Form}
  {progress : Progress}

theorem Arrived.deliver (h : Arrived text base stack form)
    (hd : deliver form stack = .ok progress) : Tiles text base form.stop progress := by
  fun_induction Pending.deliver form stack with
  | case1 form =>
    cases hd
    obtain ⟨before, rfl, hgap⟩ := h.opened
    exact ⟨hgap, rfl, h.tiled⟩
  | case2 form start quotation outer ih =>
    obtain ⟨before, ⟨before', ho, hgap', hstands, rfl⟩, hgap⟩ := h.opened
    refine ih ⟨⟨before', ho, hgap'⟩, ?_⟩ hd
    apply tiled_of_parts (.quoted hstands hgap)
    intro part hpart
    obtain rfl := List.mem_singleton.mp hpart
    exact h.tiled
  | case3 form start bracket items outer =>
    cases hd
    obtain ⟨before, ⟨before', ho, hgap', ⟨opening, hb, hs, hrow⟩, hitems⟩, hgap⟩ := h.opened
    refine ⟨before', ho, hgap', ⟨opening, hb, hs, ?_⟩, List.forall_mem_cons.mpr ⟨h.tiled, hitems⟩⟩
    rw [List.reverse_cons]
    exact hrow.snoc hgap
  | case4 form start items outer =>
    cases hd
    obtain ⟨before, ⟨before', ho, hgap', hs, hrow, hitems⟩, hgap⟩ := h.opened
    refine ⟨before', ho, hgap', hs, ?_, List.forall_mem_cons.mpr ⟨h.tiled, hitems⟩⟩
    rw [List.reverse_cons]
    exact hrow.snoc hgap
  | case5 form start items outer =>
    cases hd
    obtain ⟨before, ⟨before', ho, hgap', hne, hs, hdotted, hitems⟩, hgap⟩ := h.opened
    obtain ⟨last, dot, hrow, hg, hdot, rfl⟩ := hdotted
    exact ⟨before', ho, hgap', hne, hs, ⟨last, dot, hrow, hg, hdot, hgap, rfl⟩, hitems, h.tiled⟩
  | case6 => cases hd

theorem tiled_items {items : List Form} (h : ∀ item ∈ items, Tiled text item) :
    ∀ item ∈ items.reverse, Tiled text item :=
  fun item hitem => h item (List.mem_reverse.mp hitem)

/-- A closing bracket that fits makes the innermost open form a tiled one. -/
theorem Opened.close {before close : Nat} {bracket : Bracket}
    (h : Opened text base stack before) (hgap : GapIn text before close)
    (hs : Stands text [bracket.closing] close)
    (hc : Pending.close bracket (close + 1) stack = .ok (form, outer)) :
    form.stop = close + 1 ∧ Arrived text base outer form := by
  rcases close_cases hc with ⟨start, items, rfl, rfl⟩ | ⟨start, items, rfl, rfl, rfl⟩ |
    ⟨start, items, tail, rfl, rfl, rfl⟩
  · obtain ⟨before', ho, hgap', ⟨opening, rfl, hopen, hrow⟩, hitems⟩ := h
    exact ⟨rfl, ⟨before', ho, hgap'⟩,
      tiled_of_parts (.vector opening hopen hrow hgap hs) (tiled_items hitems)⟩
  · obtain ⟨before', ho, hgap', hopen, hrow, hitems⟩ := h
    exact ⟨rfl, ⟨before', ho, hgap'⟩,
      tiled_of_parts (.list hopen hrow hgap hs) (tiled_items hitems)⟩
  · obtain ⟨before', ho, hgap', hne, hopen, hdotted, hitems, ht⟩ := h
    obtain ⟨last, dot, hrow, hg, hdot, htail, rfl⟩ := hdotted
    refine ⟨rfl, ⟨before', ho, hgap'⟩, tiled_of_parts
      (.dotted (by simpa using hne) hopen hrow hg hdot htail hgap hs) ?_⟩
    intro part hpart
    rcases List.mem_append.mp hpart with hpart | hpart
    · exact tiled_items hitems part hpart
    · obtain rfl := List.mem_singleton.mp hpart
      exact ht

/-- Taking one lexeme keeps the text tiled. -/
theorem Opened.absorb [CharacterNames] {cursor start : Nat} {lexeme : Lexeme}
    (h : Opened text base stack cursor) (hl : LexemeAt text cursor start lexeme)
    (ha : absorb stack (lexeme.spanAt start) lexeme.token = .ok progress) :
    Tiles text base (start + lexeme.width) progress := by
  have hspelled := hl.spelled
  cases htoken : lexeme.token with
  | opening opener =>
    rw [htoken] at ha hspelled
    cases opener with
    | list =>
      cases ha
      obtain ⟨hw, hs⟩ := hl.stands hspelled
      refine ⟨cursor, h, hl.gap, hs, ?_, fun item hitem => absurd hitem List.not_mem_nil⟩
      rw [hw]
      rfl
    | vector bracket =>
      cases ha
      obtain ⟨opening, hb, hspelled⟩ := hspelled
      obtain ⟨hw, hs⟩ := hl.stands hspelled
      refine ⟨cursor, h, hl.gap, ⟨opening, hb, hs, ?_⟩,
        fun item hitem => absurd hitem List.not_mem_nil⟩
      rw [hw]
      rfl
  | mark quotation =>
    rw [htoken] at ha hspelled
    cases ha
    obtain ⟨hw, hs⟩ := hl.stands hspelled
    exact ⟨cursor, h, hl.gap, hs, by rw [hw]; rfl⟩
  | dot =>
    rw [htoken] at ha hspelled
    obtain ⟨first, items, outer, hne, rfl, rfl⟩ := absorb_dot_cases ha
    obtain ⟨hw, hs⟩ := hl.stands hspelled
    obtain ⟨before, ho, hgap, hopen, hrow, hitems⟩ := h
    exact ⟨before, ho, hgap, hne, hopen, ⟨cursor, start, hrow, hl.gap, hs, by rw [hw]; rfl⟩, hitems⟩
  | closing bracket =>
    rw [htoken] at ha hspelled
    obtain ⟨form, outer, hc, hd⟩ := deliver_of_absorb_closing ha
    obtain ⟨hw, hs⟩ := hl.stands hspelled
    have hstop : (lexeme.spanAt start).stop = start + 1 := by
      show start + lexeme.width = start + 1
      rw [hw]
      rfl
    rw [hstop] at hc
    obtain ⟨hform, harrived⟩ := h.close hl.gap hs hc
    have htiles := harrived.deliver hd
    rwa [hform, ← hstop] at htiles
  | atom value =>
    rw [htoken] at ha
    have hatom : Tiled text (.atom ⟨lexeme.spanAt start, none⟩ value) := by
      apply tiled_of_parts (.atom (Nat.lt_add_of_pos_right (Nat.succ_pos _)) hl.stop_le)
      intro part hpart
      exact absurd hpart List.not_mem_nil
    have harrived : Arrived text base stack (.atom ⟨lexeme.spanAt start, none⟩ value) :=
      ⟨⟨cursor, h, hl.gap⟩, hatom⟩
    exact harrived.deliver (deliver_of_deliverTaken ha)

end
end Pending

/-- A run from open forms that tile the text ends in a form that does. -/
theorem Reads.tiles [CharacterNames] {text : List Char} {base cursor stop : Nat}
    {stack : List Pending}
    {names : List String} {top : TopForm} (h : Reads text cursor stack names top stop)
    (hopened : Pending.Opened text base stack cursor) :
    GapIn text base top.form.start ∧ top.form.stop = stop ∧ Tiled text top.form := by
  induction h with
  | finish hl ha => exact hopened.absorb hl ha
  | step hl ha _ ih => exact ih (hopened.absorb hl ha)

/-- An offset inside a gap. -/
def InGap (text : List Char) (i : Nat) : Prop :=
  ∃ start stop, start ≤ i ∧ i < stop ∧ GapIn text start stop

/-- A form that takes at least one character of a text. -/
def Form.Within (text : List Char) (form : Form) : Prop :=
  form.start < form.stop ∧ form.stop ≤ text.length

section

variable {text : List Char} {start stop : Nat} {forms : List Form}

theorem Stands.stop_le {chars : List Char} {offset : Nat} (h : Stands text chars offset)
    (hne : chars ≠ []) : offset + chars.length ≤ text.length := by
  have hlen := congrArg List.length h
  have hpos := List.length_pos_iff.mpr hne
  simp only [Span.slice, List.length_take, List.length_drop] at hlen
  omega

theorem Row.le (h : Row text start forms stop) (hf : ∀ form ∈ forms, form.Within text) :
    start ≤ stop := by
  induction forms generalizing start with
  | nil => exact Nat.le_of_eq h
  | cons form forms ih =>
    obtain ⟨hform, hrest⟩ := List.forall_mem_cons.mp hf
    have := h.1.le
    have := hform.1
    have := ih h.2 hrest
    omega

theorem Row.inside (h : Row text start forms stop) (hf : ∀ form ∈ forms, form.Within text) :
    ∀ form ∈ forms, start ≤ form.start ∧ form.stop ≤ stop := by
  induction forms generalizing start with
  | nil => simp
  | cons form forms ih =>
    obtain ⟨hform, hrest⟩ := List.forall_mem_cons.mp hf
    have hle := h.1.le
    have hlast := Row.le h.2 hrest
    refine List.forall_mem_cons.mpr ⟨⟨hle, hlast⟩, fun other hother => ?_⟩
    obtain ⟨hs, he⟩ := ih h.2 hrest other hother
    have := hform.1
    exact ⟨by omega, he⟩

theorem Row.ordered (h : Row text start forms stop) (hf : ∀ form ∈ forms, form.Within text) :
    forms.Pairwise fun a b => a.stop ≤ b.start := by
  induction forms generalizing start with
  | nil => exact .nil
  | cons form forms ih =>
    obtain ⟨hform, hrest⟩ := List.forall_mem_cons.mp hf
    exact .cons (fun other hother => (Row.inside h.2 hrest other hother).1) (ih h.2 hrest)

theorem Row.covers (h : Row text start forms stop) {i : Nat} (hs : start ≤ i) (he : i < stop) :
    (∃ form ∈ forms, form.start ≤ i ∧ i < form.stop) ∨ InGap text i := by
  induction forms generalizing start with
  | nil =>
    obtain rfl : start = stop := h
    omega
  | cons form forms ih =>
    by_cases hform : i < form.start
    · exact .inr ⟨start, form.start, hs, hform, h.1⟩
    by_cases hin : i < form.stop
    · exact .inl ⟨form, List.mem_cons_self, by omega, hin⟩
    · rcases ih h.2 (by omega) with ⟨other, hother, hi⟩ | hgap
      · exact .inl ⟨other, List.mem_cons_of_mem _ hother, hi⟩
      · exact .inr hgap

end

/-- An offset at which there is a mark, one of some forms, or a gap. -/
def Accounted (text : List Char) (marks : List Mark) (forms : List Form) (i : Nat) : Prop :=
  (∃ mark ∈ marks, mark.offset ≤ i ∧ i < mark.offset + mark.chars.length) ∨
    (∃ form ∈ forms, form.start ≤ i ∧ i < form.stop) ∨ InGap text i

theorem Row.accounts {text : List Char} {start last close i : Nat} {forms : List Form}
    (opening : List Char) (closing : Char) (h : Row text (start + opening.length) forms last)
    (hgap : GapIn text last close) (hs : start ≤ i) (he : i < close + 1) :
    Accounted text [⟨start, opening⟩, ⟨close, [closing]⟩] forms i := by
  by_cases hopen : i < start + opening.length
  · exact .inl ⟨_, List.mem_cons_self, hs, hopen⟩
  by_cases hlast : i < last
  · exact .inr (h.covers (by omega) hlast)
  by_cases hclose : i < close
  · exact .inr (.inr ⟨last, close, by omega, hclose, hgap⟩)
  · exact .inl ⟨⟨close, [closing]⟩, by simp, show close ≤ i by omega, he⟩

namespace Decomposes

variable {text : List Char} {form : Form} {marks : List Mark}

/-- Nothing is put on record while a form is put together. -/
theorem names_label (h : Decomposes text form marks) : form.label.names = none := by
  cases h <;> rfl

theorem within (h : Decomposes text form marks) (hp : ∀ part ∈ form.parts, part.Within text) :
    form.Within text := by
  cases h with
  | atom hs he => exact ⟨hs, he⟩
  | @list start last close items hopen hrow hgap hclose =>
    have := hrow.le hp
    have := hgap.le
    exact ⟨show start < close + 1 by omega, hclose.stop_le (List.cons_ne_nil _ _)⟩
  | @vector start last close items opening hopen hrow hgap hclose =>
    have := hrow.le hp
    have := hgap.le
    exact ⟨show start < close + 1 by omega, hclose.stop_le (List.cons_ne_nil _ _)⟩
  | @dotted start last dot close items tail hne hopen hrow hgap hdot hgap' hgap'' hclose =>
    have := hrow.le fun item hitem => hp item (List.mem_append_left _ hitem)
    have := (hp tail (List.mem_append_right _ List.mem_cons_self)).1
    have := hgap.le
    have := hgap'.le
    have := hgap''.le
    exact ⟨show start < close + 1 by omega, hclose.stop_le (List.cons_ne_nil _ _)⟩
  | @quoted start mark operand hopen hgap =>
    obtain ⟨hlt, hle⟩ := hp operand List.mem_cons_self
    have := hgap.le
    exact ⟨show start < operand.stop by omega, hle⟩

theorem inside (h : Decomposes text form marks) (hp : ∀ part ∈ form.parts, part.Within text) :
    ∀ part ∈ form.parts, form.start ≤ part.start ∧ part.stop ≤ form.stop := by
  intro part hpart
  cases h with
  | atom hs he => exact absurd hpart List.not_mem_nil
  | @list start last close items hopen hrow hgap hclose =>
    obtain ⟨hs, he⟩ := hrow.inside hp part hpart
    have := hgap.le
    exact ⟨show start ≤ part.start by omega, show part.stop ≤ close + 1 by omega⟩
  | @vector start last close items opening hopen hrow hgap hclose =>
    obtain ⟨hs, he⟩ := hrow.inside hp part hpart
    have := hgap.le
    exact ⟨show start ≤ part.start by omega, show part.stop ≤ close + 1 by omega⟩
  | @dotted start last dot close items tail hne hopen hrow hgap hdot hgap' hgap'' hclose =>
    have hitems : ∀ item ∈ items, item.Within text :=
      fun item hitem => hp item (List.mem_append_left _ hitem)
    have := (hp tail (List.mem_append_right _ List.mem_cons_self)).1
    have := hrow.le hitems
    have := hgap.le
    have := hgap'.le
    have := hgap''.le
    show start ≤ part.start ∧ part.stop ≤ close + 1
    rcases List.mem_append.mp hpart with hpart | hpart
    · obtain ⟨hs, he⟩ := hrow.inside hitems part hpart
      omega
    · obtain rfl := List.mem_singleton.mp hpart
      omega
  | @quoted start mark operand hopen hgap =>
    obtain rfl := List.mem_singleton.mp hpart
    have := hgap.le
    exact ⟨show start ≤ part.start by omega, Nat.le_refl _⟩

theorem ordered (h : Decomposes text form marks) (hp : ∀ part ∈ form.parts, part.Within text) :
    form.parts.Pairwise fun a b => a.stop ≤ b.start := by
  cases h with
  | atom hs he => exact .nil
  | list hopen hrow hgap hclose => exact hrow.ordered hp
  | vector opening hopen hrow hgap hclose => exact hrow.ordered hp
  | @dotted start last dot close items tail hne hopen hrow hgap hdot hgap' hgap'' hclose =>
    have hitems : ∀ item ∈ items, item.Within text :=
      fun item hitem => hp item (List.mem_append_left _ hitem)
    refine List.pairwise_append.mpr ⟨hrow.ordered hitems, List.pairwise_singleton _ _, ?_⟩
    intro item hitem other hother
    obtain rfl := List.mem_singleton.mp hother
    have := (hrow.inside hitems item hitem).2
    have := hgap.le
    have := hgap'.le
    omega
  | quoted hopen hgap => exact List.pairwise_singleton _ _

/-- Nothing but marks, gaps and the forms inside stands in a form that is no atom. -/
theorem accounts (h : Decomposes text form marks) {i : Nat} (hs : form.start ≤ i)
    (he : i < form.stop) : form.isAtom = true ∨ Accounted text marks form.parts i := by
  cases h with
  | atom => exact .inl rfl
  | list hopen hrow hgap hclose =>
    exact .inr (Row.accounts ['('] ')' hrow hgap hs he)
  | vector opening hopen hrow hgap hclose => exact .inr (hrow.accounts _ _ hgap hs he)
  | @dotted start last dot close items tail hne hopen hrow hgap hdot hgap' hgap'' hclose =>
    right
    by_cases hbefore : i < dot + 1
    · rcases Row.accounts ['('] '.' hrow hgap hs hbefore with
        ⟨mark, hmark, hi⟩ | ⟨item, hitem, hi⟩ | hgap
      · have hmem : mark ∈ [⟨start, ['(']⟩, ⟨dot, ['.']⟩] ++ [⟨close, [')']⟩] :=
          List.mem_append_left _ hmark
        exact .inl ⟨mark, hmem, hi⟩
      · exact .inr (.inl ⟨item, List.mem_append_left _ hitem, hi⟩)
      · exact .inr (.inr hgap)
    by_cases htail : i < tail.start
    · exact .inr (.inr ⟨_, _, by omega, htail, hgap'⟩)
    by_cases hin : i < tail.stop
    · exact .inr (.inl ⟨tail, List.mem_append_right _ List.mem_cons_self, by omega, hin⟩)
    by_cases hend : i < close
    · exact .inr (.inr ⟨_, _, by omega, hend, hgap''⟩)
    · exact .inl ⟨⟨close, [')']⟩, by simp, show close ≤ i by omega, he⟩
  | @quoted start mark operand hopen hgap =>
    right
    by_cases hmark : i < start + mark.spelling.length
    · exact .inl ⟨_, List.mem_cons_self, hs, hmark⟩
    by_cases hoperand : i < operand.start
    · exact .inr (.inr ⟨_, _, by omega, hoperand, hgap⟩)
    · exact .inr (.inl ⟨operand, List.mem_cons_self, by omega, he⟩)

end Decomposes

theorem Tiled.within {text : List Char} {form : Form} (h : Tiled text form) : form.Within text := by
  induction form using Form.induction_parts with
  | step form ih =>
    obtain ⟨⟨marks, hd⟩, hparts⟩ := Form.forall_nodes_iff.mp h
    exact hd.within fun part hpart => ih part hpart (hparts part hpart)

/-- A form is made up as its kind says, and the forms inside it follow one another. -/
structure Form.TilesSpan (text : List Char) (form : Form) : Prop where
  within : form.Within text
  decomposes : ∃ marks, Decomposes text form marks ∧ ∀ i, form.start ≤ i → i < form.stop →
    form.isAtom = true ∨ Accounted text marks form.parts i
  ordered : form.parts.Pairwise fun a b => a.stop ≤ b.start
  inside : ∀ part ∈ form.parts, form.start ≤ part.start ∧ part.stop ≤ form.stop

theorem Tiled.tilesSpan {text : List Char} {form : Form} (h : Tiled text form) :
    form.TilesSpan text := by
  obtain ⟨⟨marks, hd⟩, hparts⟩ := Form.forall_nodes_iff.mp h
  have hwithin : ∀ part ∈ form.parts, part.Within text :=
    fun part hpart => Tiled.within (hparts part hpart)
  exact ⟨hd.within hwithin, ⟨marks, hd, fun i => hd.accounts⟩, hd.ordered hwithin,
    hd.inside hwithin⟩

theorem Tiled.of_mem_nodes {text : List Char} {node form : Form} (h : Tiled text form)
    (hn : node ∈ form.nodes) : Tiled text node :=
  fun inner hinner => h inner (Form.mem_nodes_trans hinner hn)

theorem Reader.reads_of_next [CharacterNames] {text : List Char} {p : Nat} {top : TopForm}
    {after : Reader} (hp : p ≤ text.length) (h : Reader.next ⟨text, p⟩ = (.form top, after)) :
    ∃ stop : Nat, after = ⟨text, stop⟩ ∧ Reads text p [] [] top stop := by
  have hoffset : Reader.offset ⟨text, p⟩ = p := Nat.min_eq_left hp
  obtain ⟨stop, hafter, hreads⟩ := Reader.exists_reads_of_next h
  rw [hoffset] at hreads
  exact ⟨stop, hafter, hreads⟩

/-- Reading a form from any place skips a gap, stops where the form ends, and gives a form
of which every part tiles its span of the text. -/
theorem Reader.next_tiles_text [CharacterNames] {text : List Char} {p : Nat} {top : TopForm}
    {after : Reader} (hp : p ≤ text.length) (h : Reader.next ⟨text, p⟩ = (.form top, after)) :
    GapIn text p top.form.start ∧ after = ⟨text, top.form.stop⟩ ∧
      ∀ node ∈ top.form.nodes, node.TilesSpan text := by
  obtain ⟨stop, rfl, hreads⟩ := Reader.reads_of_next hp h
  obtain ⟨hgap, rfl, htiled⟩ := hreads.tiles rfl
  exact ⟨hgap, rfl, fun node hnode => (htiled.of_mem_nodes hnode).tilesSpan⟩

open CharacterNames in
/-- A comment, a mark before an improper list, and a record, all in one form. -/
theorem Reader.next_tiles_text_nested :
    ∃ top after, Reader.next ⟨"; c\n(f '(a . b) #s(x))".toList, (0 : Nat)⟩ = (.form top, after) ∧
      GapIn "; c\n(f '(a . b) #s(x))".toList 0 top.form.start ∧
      after = ⟨"; c\n(f '(a . b) #s(x))".toList, top.form.stop⟩ ∧
      ∀ node ∈ top.form.nodes, node.TilesSpan "; c\n(f '(a . b) #s(x))".toList := by
  have h : Reader.next ⟨"; c\n(f '(a . b) #s(x))".toList, (0 : Nat)⟩ =
      (.form ⟨.list ⟨⟨4, 22⟩, none⟩
        [.atom ⟨⟨5, 6⟩, none⟩ (.symbol "f"), .quoted ⟨⟨7, 15⟩, none⟩ .quote
          (.dotted ⟨⟨8, 15⟩, none⟩ [.atom ⟨⟨9, 10⟩, none⟩ (.symbol "a")]
            (.atom ⟨⟨13, 14⟩, none⟩ (.symbol "b"))),
          .vector ⟨⟨16, 21⟩, none⟩ [.atom ⟨⟨19, 20⟩, none⟩ (.symbol "x")]], ["x", "b", "a", "f"]⟩,
        ⟨"; c\n(f '(a . b) #s(x))".toList, 22⟩) := by
    with_unfolding_all rfl
  exact ⟨_, _, h, Reader.next_tiles_text (Nat.zero_le _) h⟩

end LispXref
