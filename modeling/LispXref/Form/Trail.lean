import LispXref.Text.Quoted

/-! Trails: what encloses a form, from the innermost enclosing form outwards. A
trail is a chain of cells that the trails of all forms further inside share. Every cell
keeps the number of cells from there on. -/
namespace LispXref

/-- One level of enclosure: the head of the enclosing form and the position inside. -/
structure Frame where
  head : Option String
  index : Int
  deriving DecidableEq, Hashable, Repr

def Frame.describe (frame : Frame) : String :=
  let head := match frame.head with
    | some name => quoted name
    | none => "None"
  "AncestorFrame(head=" ++ head ++ ", index=" ++ toString frame.index ++ ")"

/-- The cells of a trail, innermost first, each with the depth that is stored in it. -/
inductive Chain where
  | top
  | inside (frame : Frame) (outer : Chain) (depth : Nat)
  deriving DecidableEq, Repr

namespace Chain

/-- The stored depth. -/
def depth : Chain → Nat
  | top => 0
  | inside _ _ depth => depth

/-- Every cell stores a depth one greater than the next one does. -/
def Counted : Chain → Prop
  | top => True
  | inside _ outer depth => depth = outer.depth + 1 ∧ outer.Counted

/-- The frames up to the first cell that stores a depth of zero. -/
def frames : Chain → List Frame
  | top => []
  | inside frame outer depth => if depth = 0 then [] else frame :: outer.frames

/-- The frame of the cell that comes `n` cells later. -/
def frameAt? : Chain → Nat → Option Frame
  | top, _ => none
  | inside frame _ _, 0 => some frame
  | inside _ outer _, n + 1 => outer.frameAt? n

end Chain

structure Trail where
  chain : Chain
  counted : chain.Counted
  deriving DecidableEq

namespace Trail

def top : Trail := ⟨.top, trivial⟩

def depth (trail : Trail) : Nat := trail.chain.depth

def push (trail : Trail) (frame : Frame) : Trail :=
  ⟨.inside frame trail.chain (trail.depth + 1), rfl, trail.counted⟩

/-- The trail of the enclosing form; nothing encloses the outermost one. -/
def parent : Trail → Option Trail
  | ⟨.top, _⟩ => none
  | ⟨.inside _ outer _, h⟩ => some ⟨outer, h.2⟩

/-- The frames of a trail, innermost first. -/
def frames (trail : Trail) : List Frame := trail.chain.frames

/-- Frames are listed from the innermost on and pushed from the outermost on. -/
def ofFrames (frames : List Frame) : Trail := frames.reverse.foldl push top

def frameAt? (trail : Trail) (n : Nat) : Option Frame := trail.chain.frameAt? n

/-- The frame at a position; negative positions count from the outermost frame. -/
def get? (trail : Trail) (index : Int) : Option Frame :=
  let i := if index < 0 then index + trail.depth else index
  if 0 ≤ i ∧ i < trail.depth then trail.frameAt? i.toNat else none

def outOfRange : String := "path index out of range"

/-- Whether a trail has just these frames, innermost first. -/
def hasFrames (trail : Trail) (frames : List Frame) : Bool :=
  trail.depth = frames.length && trail.frames = frames

/-- Whether two trails have the same frames. -/
def same (trail other : Trail) : Bool :=
  trail.depth = other.depth && trail.frames = other.frames

/-- A trail hashes like the list of its frames. -/
instance : Hashable Trail := ⟨fun trail => hash trail.frames⟩

def describe (trail : Trail) : String :=
  let inner := match trail.frames with
    | [] => ""
    | [frame] => frame.describe ++ ","
    | frames => ", ".intercalate (frames.map Frame.describe)
  "PathStack((" ++ inner ++ "))"

/-- Every trail is empty or made by pushing a frame. -/
@[elab_as_elim, induction_eliminator]
theorem induction {motive : Trail → Prop} (top : motive top)
    (push : ∀ outer frame, motive outer → motive (push outer frame)) (trail : Trail) :
    motive trail := by
  obtain ⟨chain, counted⟩ := trail
  induction chain with
  | top => exact top
  | inside frame outer depth ih =>
    obtain ⟨rfl, hcounted⟩ := counted
    exact push ⟨outer, hcounted⟩ frame (ih hcounted)

@[simp] theorem frames_top : top.frames = [] := rfl

@[simp] theorem frames_push (trail : Trail) (frame : Frame) :
    (trail.push frame).frames = frame :: trail.frames := rfl

@[simp] theorem frameAt?_top (n : Nat) : top.frameAt? n = none := rfl

@[simp] theorem depth_push (trail : Trail) (frame : Frame) :
    (trail.push frame).depth = trail.depth + 1 := rfl

theorem ofFrames_cons (frame : Frame) (rest : List Frame) :
    ofFrames (frame :: rest) = (ofFrames rest).push frame := by
  simp [ofFrames]

@[simp] theorem frames_ofFrames (frames : List Frame) : (ofFrames frames).frames = frames := by
  induction frames with
  | nil => rfl
  | cons frame rest ih => rw [ofFrames_cons, frames_push, ih]

@[simp] theorem ofFrames_frames (trail : Trail) : ofFrames trail.frames = trail := by
  induction trail with
  | top => rfl
  | push outer frame ih => rw [frames_push, ofFrames_cons, ih]

end Trail
end LispXref
