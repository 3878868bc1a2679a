import LispXref.Proofs.Form.Nodes
import LispXref.Proofs.Reader.Run

/-! The names met while a form is read are exactly those of the symbols in it. As long as
it is open, they are those of the symbols in the forms on the stack. -/
namespace LispXref

namespace Pending

/-- The finished forms inside an open one. -/
def finished : Pending → List Form
  | .list _ (.proper items) | .list _ (.dotSeen items) | .vector _ _ items => items
  | .list _ (.tailSeen items tail) => tail :: items
  | .mark _ _ => []

/-- The names of the symbols in all forms on a stack. -/
def symbolNames (stack : List Pending) : List String :=
  stack.flatMap fun pending => pending.finished.flatMap Form.symbolNames

end Pending

namespace Progress

def symbolNames : Progress → List String
  | .finished form => form.symbolNames
  | .pending stack => Pending.symbolNames stack

end Progress

namespace Pending

variable {stack outer : List Pending} {form : Form} {progress : Progress} {name : String}

theorem mem_symbolNames_cons {pending : Pending} :
    name ∈ symbolNames (pending :: stack) ↔
      name ∈ pending.finished.flatMap Form.symbolNames ∨ name ∈ symbolNames stack := by
  simp only [symbolNames, List.flatMap_cons, List.mem_append]

theorem mem_symbolNames_of_deliver (h : deliver form stack = .ok progress) :
    name ∈ progress.symbolNames ↔ name ∈ form.symbolNames ∨ name ∈ symbolNames stack := by
  fun_induction deliver form stack with
  | case1 form =>
    cases h
    simp [Progress.symbolNames, symbolNames]
  | case2 form start quotation outer ih =>
    rw [ih h, mem_symbolNames_cons, Form.symbolNames_eq (.quoted _ _ _)]
    simp [finished, Form.symbol?, Form.parts]
  | case3 form start bracket items outer =>
    cases h
    simp only [Progress.symbolNames, mem_symbolNames_cons, finished, List.flatMap_cons,
      List.mem_append, or_assoc]
  | case4 form start items outer =>
    cases h
    simp only [Progress.symbolNames, mem_symbolNames_cons, finished, List.flatMap_cons,
      List.mem_append, or_assoc]
  | case5 form start items outer =>
    cases h
    simp only [Progress.symbolNames, mem_symbolNames_cons, finished, List.flatMap_cons,
      List.mem_append, or_assoc]
  | case6 => cases h

theorem mem_symbolNames_of_close {bracket : Bracket} {stop : Nat}
    (h : close bracket stop stack = .ok (form, outer)) :
    name ∈ symbolNames stack ↔ name ∈ form.symbolNames ∨ name ∈ symbolNames outer := by
  rcases close_cases h with ⟨start, items, rfl, rfl⟩ | ⟨start, items, rfl, rfl, rfl⟩ |
    ⟨start, items, tail, rfl, rfl, rfl⟩ <;>
  · rw [mem_symbolNames_cons, Form.symbolNames_eq]
    simp [finished, Form.symbol?, Form.parts, or_comm]

/-- One token adds its own name, if it is a symbol, and loses none. -/
theorem mem_symbolNames_of_absorb {span : Span} {token : Token}
    (h : absorb stack span token = .ok progress) :
    name ∈ progress.symbolNames ↔ name ∈ token.addName [] ∨ name ∈ symbolNames stack := by
  cases token with
  | opening opener =>
    cases opener <;>
    · cases h
      simp [Progress.symbolNames, mem_symbolNames_cons, finished, Token.addName]
  | mark quotation =>
    cases h
    simp [Progress.symbolNames, mem_symbolNames_cons, finished, Token.addName]
  | dot =>
    obtain ⟨start, items, outer, -, rfl, rfl⟩ := absorb_dot_cases h
    simp [Progress.symbolNames, mem_symbolNames_cons, finished, Token.addName]
  | closing bracket =>
    obtain ⟨form, outer, hc, hd⟩ := deliver_of_absorb_closing h
    rw [mem_symbolNames_of_deliver hd, mem_symbolNames_of_close hc]
    simp [Token.addName]
  | atom value =>
    rw [mem_symbolNames_of_deliver (deliver_of_deliverTaken h), Form.symbolNames_eq]
    cases value <;> simp [Form.symbol?, Form.parts, Token.addName]

end Pending

theorem Token.mem_addName {token : Token} {name : String} {names : List String} :
    name ∈ token.addName names ↔ name ∈ token.addName [] ∨ name ∈ names := by
  unfold Token.addName
  split <;> simp

variable [CharacterNames]

/-- A run that met exactly the names on the stack ends with exactly those of its form. -/
theorem Reads.mem_names {text : List Char} {cursor stop : Nat} {stack : List Pending}
    {names : List String} {top : TopForm} {name : String}
    (h : Reads text cursor stack names top stop)
    (hnames : name ∈ names ↔ name ∈ Pending.symbolNames stack) :
    name ∈ top.names ↔ name ∈ top.form.symbolNames := by
  induction h with
  | finish hl ha =>
    rw [Token.mem_addName, hnames]
    exact (Pending.mem_symbolNames_of_absorb ha).symm
  | step hl ha _ ih =>
    apply ih
    rw [Token.mem_addName, hnames]
    exact (Pending.mem_symbolNames_of_absorb ha).symm

theorem TopForm.mem_names_iff {text : List Char} {top : TopForm} {name : String}
    (h : top ∈ (Transcript.ofText text).tops) :
    name ∈ top.names ↔ name ∈ top.form.symbolNames := by
  obtain ⟨start, stop, hreads⟩ := exists_reads_of_mem_tops h
  exact hreads.mem_names Iff.rfl

end LispXref
