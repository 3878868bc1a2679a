import LispXref.Lexeme.Scan

/-! The reader takes one form at a time from a text. Forms that are still open stand
on a stack, innermost first, so a form is finished as soon as its last lexeme is
taken. The end of the text inside an open form is no fault. -/
namespace LispXref

/-- The inside of an open list; the items taken so far stand in reverse. -/
inductive Interior where
  | proper (items : List Form)
  | dotSeen (items : List Form)
  | tailSeen (items : List Form) (tail : Form)

/-- A form that has been opened and not finished. -/
inductive Pending where
  | list (start : Nat) (interior : Interior)
  | vector (start : Nat) (bracket : Bracket) (items : List Form)
  | mark (start : Nat) (quotation : Quotation)

structure ReadError where
  fault : Fault
  offset : Nat
  deriving DecidableEq, Repr

def ReadError.message (error : ReadError) : String :=
  error.fault.message ++ " (offset " ++ toString error.offset ++ ")"

/-- A token that cannot stand where it does. `taken` says whether reading got past
the token before that came out. -/
structure Refusal where
  error : ReadError
  taken : Bool

inductive Progress where
  | finished (form : Form)
  | pending (stack : List Pending)

namespace Pending

/-- Ends the innermost open form with a closing bracket that stands before `stop`. -/
def close (bracket : Bracket) (stop : Nat) : List Pending → Except Fault (Form × List Pending)
  | .vector start wanted items :: outer =>
    if bracket = wanted then .ok (.vector ⟨⟨start, stop⟩, none⟩ items.reverse, outer)
    else .error (.mismatchedClosing bracket wanted)
  | .list start interior :: outer =>
    if bracket = .round then
      match interior with
      | .proper items => .ok (.list ⟨⟨start, stop⟩, none⟩ items.reverse, outer)
      | .dotSeen _ => .error .missingTail
      | .tailSeen items tail => .ok (.dotted ⟨⟨start, stop⟩, none⟩ items.reverse tail, outer)
    else .error (.mismatchedClosing bracket .round)
  | .mark _ _ :: _ => .error (.unexpectedClosing bracket)
  | [] => .error (.unexpectedClosing bracket)

/-- Hands a finished form to what encloses it. Marks are finished along with their
operands. -/
def deliver (form : Form) : List Pending → Except ReadError Progress
  | [] => .ok (.finished form)
  | .mark start quotation :: outer =>
    deliver (.quoted ⟨⟨start, form.stop⟩, none⟩ quotation form) outer
  | .vector start bracket items :: outer =>
    .ok (.pending (.vector start bracket (form :: items) :: outer))
  | .list start (.proper items) :: outer =>
    .ok (.pending (.list start (.proper (form :: items)) :: outer))
  | .list start (.dotSeen items) :: outer =>
    .ok (.pending (.list start (.tailSeen items form) :: outer))
  | .list _ (.tailSeen _ _) :: _ => .error ⟨.secondTail, form.start⟩

def deliverTaken (form : Form) (stack : List Pending) : Except Refusal Progress :=
  (deliver form stack).mapError (⟨·, true⟩)

/-- A dot may stand in a list, after an item, once. -/
def dot : List Pending → Option (List Pending)
  | .list start (.proper (item :: items)) :: outer =>
    some (.list start (.dotSeen (item :: items)) :: outer)
  | _ => none

/-- Takes one token, which covers `span`. -/
def absorb (stack : List Pending) (span : Span) : Token → Except Refusal Progress
  | .opening .list => .ok (.pending (.list span.start (.proper []) :: stack))
  | .opening (.vector bracket) => .ok (.pending (.vector span.start bracket [] :: stack))
  | .mark quotation => .ok (.pending (.mark span.start quotation :: stack))
  | .dot =>
    match dot stack with
    | some stack => .ok (.pending stack)
    | none => .error ⟨⟨.unexpectedDot, span.start⟩, true⟩
  | .closing bracket =>
    match close bracket span.stop stack with
    | .ok (form, outer) => deliverTaken form outer
    | .error fault => .error ⟨⟨fault, span.start⟩, false⟩
  | .atom value => deliverTaken (.atom ⟨span, none⟩ value) stack

end Pending

/-- A form at the top of a text with the names of the symbols met while reading it,
the last one first. -/
structure TopForm where
  form : Form
  names : List String

/-- The form as it is handed out, with the names put on record. -/
def TopForm.recorded (top : TopForm) : Form :=
  top.form.relabel ⟨top.form.span, some (NameSet.ofList top.names)⟩

def Token.addName (names : List String) : Token → List String
  | .atom (.symbol name) => name :: names
  | _ => names

inductive Reading where
  | form (top : TopForm)
  | endOfText
  | malformed (error : ReadError)

/-- What one attempt at reading gave and the offset at which the next one starts. -/
structure ReadStep where
  reading : Reading
  cursor : Nat

variable [CharacterNames]

/-- Reads on at offset `cursor`, where `text` is what remains, until the outermost
open form is finished. A fault inside a lexeme, or a closing bracket that does not
fit, leaves the cursor where it was before the gap. -/
def readFrom (cursor : Nat) (text : List Char) (stack : List Pending) (names : List String) :
    ReadStep :=
  let start := cursor + Gap.width text
  match _h : text.drop (Gap.width text) with
  | [] => ⟨.endOfText, start⟩
  | c :: rest =>
    match Lexeme.scan c rest with
    | .error fault => ⟨.malformed ⟨fault, start⟩, cursor⟩
    | .ok lexeme =>
      let stop := start + lexeme.width
      let names := lexeme.token.addName names
      match Pending.absorb stack ⟨start, stop⟩ lexeme.token with
      | .error refusal => ⟨.malformed refusal.error, if refusal.taken then stop else cursor⟩
      | .ok (.finished form) => ⟨.form ⟨form, names⟩, stop⟩
      | .ok (.pending stack) => readFrom stop (rest.drop lexeme.tail) stack names
termination_by text.length
decreasing_by
  have hlen := congrArg List.length _h
  simp only [List.length_drop, List.length_cons] at hlen ⊢
  omega

/-- Reading a form takes at least one character. -/
theorem cursor_lt_of_readFrom {cursor : Nat} {text : List Char} {stack : List Pending}
    {names : List String} {top : TopForm}
    (h : (readFrom cursor text stack names).reading = .form top) :
    cursor < (readFrom cursor text stack names).cursor ∧ text ≠ [] := by
  fun_induction readFrom cursor text stack names with
  | case1 => simp at h
  | case2 => simp at h
  | case3 => simp at h
  | case4 cursor text stack names start c rest hdrop lexeme _ stop =>
    refine ⟨?_, ?_⟩
    · simp only [stop, start, Lexeme.width]
      omega
    · rintro rfl
      simp at hdrop
  | case5 cursor text stack names start c rest hdrop lexeme _ stop names' stack' _ ih =>
    have := ih h
    refine ⟨?_, ?_⟩
    · simp only [stop, start, Lexeme.width] at this
      simp only [stop, start, Lexeme.width]
      omega
    · rintro rfl
      simp at hdrop

/-- Every attempt at reading from offset `cursor` on, up to and including the first
one that gives no form. -/
def readSteps (cursor : Nat) (text : List Char) : List ReadStep :=
  let step := readFrom cursor text [] []
  match _h : step.reading with
  | .form _ => step :: readSteps step.cursor (text.drop (step.cursor - cursor))
  | _ => [step]
termination_by text.length
decreasing_by
  have hstep := cursor_lt_of_readFrom _h
  have hpos := List.length_pos_iff.2 hstep.2
  have := hstep.1
  simp only [List.length_drop]
  omega

/-- All forms at the top of a text, up to its end or the first fault. -/
structure Transcript where
  tops : List TopForm
  error : Option ReadError

namespace Transcript

def ofSteps : List ReadStep → Transcript
  | [] => ⟨[], none⟩
  | step :: rest =>
    match step.reading with
    | .form top => let t := ofSteps rest; { t with tops := top :: t.tops }
    | .endOfText => ⟨[], none⟩
    | .malformed error => ⟨[], some error⟩

def ofText (text : List Char) : Transcript := ofSteps (readSteps 0 text)

end Transcript

/-- A text with a place in it from which to read next. A place before the text counts as
its beginning and one after it as its end. -/
structure Reader where
  text : List Char
  place : Int

/-- A number that can be no place in any text. -/
inductive SeekError where
  | outOfRange
  deriving DecidableEq, Repr

def SeekError.message : SeekError → String
  | .outOfRange => "Python int too large to convert to C ssize_t"

namespace Reader

def ofText (text : List Char) : Reader := ⟨text, 0⟩

/-- Places are integers of 64 bits. -/
def seek (reader : Reader) (place : Int) : Except SeekError Reader :=
  if -(1 <<< 63 : Nat) ≤ place ∧ place < (1 <<< 63 : Nat) then .ok { reader with place }
  else .error .outOfRange

/-- The offset in the text at which reading starts. -/
def offset (reader : Reader) : Nat := min reader.place.toNat reader.text.length

/-- Reads one form. A failure before anything was taken leaves the place as it was. -/
def next (reader : Reader) : Reading × Reader :=
  let step := readFrom reader.offset (reader.text.drop reader.offset) [] []
  let moved : Reader := { reader with place := step.cursor }
  match step.reading with
  | .malformed error =>
    (.malformed error, if step.cursor = reader.offset then reader else moved)
  | reading => (reading, moved)

end Reader

/-- A text with a name, usually the path of its file. -/
structure Document where
  name : CodeText
  text : List Char
  deriving DecidableEq, Repr

end LispXref
