import LispXref.Form.Trail

/-! A trail stands for the list of its frames. Whatever trail is made, its depth, its frames by
position, from either end, and its equality with another one are those of the list. -/
namespace LispXref.Trail

/-- The ways in which a trail comes from another one, or from nothing. -/
inductive Move where
  | push (frame : Frame)
  | of (frames : List Frame)
  | parent

/-- The trail after a move. The empty one has no parent. -/
def move (trail : Trail) : Move → Option Trail
  | .push frame => some (trail.push frame)
  | .of frames => some (ofFrames frames)
  | .parent => trail.parent

/-- The trail that moves lead to from the empty one, unless one of them fails. -/
def reach (moves : List Move) : Option Trail := moves.foldlM move top

/-- What a move is for lists of frames. -/
def Move.onFrames (frames : List Frame) : Move → Option (List Frame)
  | .push frame => some (frame :: frames)
  | .of others => some others
  | .parent => frames.tail?

@[simp] theorem parent_push (trail : Trail) (frame : Frame) :
    (trail.push frame).parent = some trail := rfl

theorem map_frames_parent (trail : Trail) : trail.parent.map frames = trail.frames.tail? := by
  induction trail with
  | top => rfl
  | push outer frame => rfl

theorem map_frames_move (trail : Trail) (m : Move) :
    (trail.move m).map frames = m.onFrames trail.frames := by
  cases m with
  | push frame => rfl
  | of frames => exact congrArg some (frames_ofFrames frames)
  | parent => exact trail.map_frames_parent

theorem map_frames_foldlM_move (trail : Trail) (moves : List Move) :
    (moves.foldlM move trail).map frames = moves.foldlM Move.onFrames trail.frames := by
  induction moves generalizing trail with
  | nil => rfl
  | cons m moves ih =>
    rw [List.foldlM_cons, List.foldlM_cons, ← map_frames_move]
    cases trail.move m with
    | none => rfl
    | some next => exact ih next

/-- The stored depth is the number of frames. -/
theorem depth_eq (trail : Trail) : trail.depth = trail.frames.length := by
  induction trail with
  | top => rfl
  | push outer frame ih => rw [depth_push, frames_push, List.length_cons, ih]

theorem frameAt?_eq (trail : Trail) (n : Nat) : trail.frameAt? n = trail.frames[n]? := by
  induction trail generalizing n with
  | top => rfl
  | push outer frame ih =>
    cases n with
    | zero => rfl
    | succ n => exact (ih n).trans List.getElem?_cons_succ.symm

theorem get?_natCast (trail : Trail) (n : Nat) : trail.get? n = trail.frames[n]? := by
  have hneg : ¬ (n : Int) < 0 := by omega
  simp only [get?, if_neg hneg, frameAt?_eq, Int.toNat_natCast, depth_eq]
  split
  · rfl
  · rw [List.getElem?_eq_none]
    omega

/-- The frame at position `-1` is the outermost one. -/
theorem get?_negSucc (trail : Trail) (n : Nat) :
    trail.get? (Int.negSucc n) = trail.frames.reverse[n]? := by
  have hneg : Int.negSucc n < 0 := Int.negSucc_lt_zero n
  simp only [get?, if_pos hneg, depth_eq, frameAt?_eq]
  split
  · next hle =>
    have hlt : n < trail.frames.length := by omega
    have hindex : (Int.negSucc n + trail.frames.length).toNat = trail.frames.length - 1 - n := by
      omega
    rw [hindex, List.getElem?_reverse hlt]
  · next hle =>
    rw [List.getElem?_eq_none]
    rw [List.length_reverse]
    omega

theorem get?_eq_none_iff (trail : Trail) (i : Int) :
    trail.get? i = none ↔ i < -(trail.frames.length : Int) ∨ (trail.frames.length : Int) ≤ i := by
  cases i with
  | ofNat n =>
    rw [Int.ofNat_eq_natCast, get?_natCast, List.getElem?_eq_none_iff]
    omega
  | negSucc n =>
    rw [get?_negSucc, List.getElem?_eq_none_iff, List.length_reverse]
    omega

theorem hasFrames_iff (trail : Trail) (frames : List Frame) :
    trail.hasFrames frames = true ↔ trail.frames = frames := by
  rw [hasFrames, depth_eq, Bool.and_eq_true, decide_eq_true_iff, decide_eq_true_iff]
  exact and_iff_right_of_imp (congrArg List.length)

theorem same_iff (trail other : Trail) : trail.same other = true ↔ trail.frames = other.frames := by
  rw [same, depth_eq other]
  exact trail.hasFrames_iff other.frames

theorem frames_inj {trail other : Trail} : trail.frames = other.frames ↔ trail = other := by
  constructor
  · intro h
    rw [← ofFrames_frames trail, h, ofFrames_frames]
  · rintro rfl
    rfl

theorem hash_eq (trail : Trail) : hash trail = hash trail.frames := rfl

/-- Trails are lists of frames. Moves from the empty trail do to it what they do to a list, the
one to the parent failing where there is none; frames make the trail that has them, by pushing,
and a trail is made by its frames. A pushed frame comes first, before those of the parent. The
stored depth, positions from the inside and from the outside, and equality, also with a list, are
those of the frames, and equal trails hash alike, as the list does. -/
theorem stands_for_frames :
    (∀ moves, (reach moves).map frames = moves.foldlM Move.onFrames []) ∧
    (∀ fs, (ofFrames fs).frames = fs ∧ ofFrames fs = fs.reverse.foldl push top) ∧
    ∀ trail : Trail,
      ofFrames trail.frames = trail ∧
      (∀ frame, (trail.push frame).frames = frame :: trail.frames ∧
        (trail.push frame).parent = some trail) ∧
      trail.depth = trail.frames.length ∧
      (∀ n : Nat, trail.get? n = trail.frames[n]? ∧
        trail.get? (-(n + 1 : Nat)) = trail.frames.reverse[n]?) ∧
      (∀ i : Int, trail.get? i = none ↔
        i < -(trail.frames.length : Int) ∨ (trail.frames.length : Int) ≤ i) ∧
      (∀ fs, (trail.hasFrames fs = true ↔ trail.frames = fs) ∧
        (trail.hasFrames fs = true → hash trail = hash fs)) ∧
      ∀ other : Trail, (trail.same other = true ↔ trail.frames = other.frames) ∧
        (trail.same other = true ↔ trail = other) ∧
        (trail.same other = true → hash trail = hash other) := by
  refine ⟨map_frames_foldlM_move top, fun fs => ⟨frames_ofFrames fs, rfl⟩, ?_⟩
  intro trail
  refine ⟨ofFrames_frames trail, fun frame => ⟨rfl, rfl⟩, trail.depth_eq, ?_,
    trail.get?_eq_none_iff, ?_, ?_⟩
  · intro n
    exact ⟨trail.get?_natCast n, trail.get?_negSucc n⟩
  · intro fs
    refine ⟨trail.hasFrames_iff fs, fun h => ?_⟩
    rw [hash_eq, (trail.hasFrames_iff fs).mp h]
  · intro other
    refine ⟨trail.same_iff other, (trail.same_iff other).trans frames_inj, fun h => ?_⟩
    rw [hash_eq, (trail.same_iff other).mp h, hash_eq]

/-- Two ways to a trail of two frames. -/
theorem stands_for_frames_two_ways :
    let outer : Frame := ⟨some "let", 1⟩
    let inner : Frame := ⟨none, 0⟩
    let pushed := (top.push outer).push inner
    let left := ofFrames [inner, outer]
    reach [.push outer, .push inner] = some pushed ∧
    reach [.of [⟨some "f", 2⟩, inner, outer], .parent] = some left ∧
    reach [.push outer, .parent, .parent] = none ∧
    pushed.frames = [inner, outer] ∧ pushed.depth = 2 ∧
    pushed.get? (-1) = some outer ∧ pushed.get? (-2) = some inner ∧ pushed.get? (-3) = none ∧
    pushed.get? 2 = none ∧
    pushed.same left = true ∧ hash pushed = hash left ∧
    pushed.hasFrames [inner, outer] = true ∧ hash pushed = hash [inner, outer] := by
  intro outer inner pushed left
  obtain ⟨hreach, hof, htrails⟩ := stands_for_frames
  obtain ⟨-, -, hdepth, hget, hrange, hlist, hsame⟩ := htrails pushed
  have hframes : pushed.frames = [inner, outer] := rfl
  have hthese : pushed.hasFrames [inner, outer] = true := (hlist _).1.mpr hframes
  have hequal : pushed.same left = true := (hsame left).1.mpr (hof [inner, outer]).1.symm
  rw [hframes] at hdepth hrange
  refine ⟨rfl, rfl, Option.map_eq_none_iff.mp (hreach _), hframes, hdepth, ?_, ?_, ?_, ?_, hequal,
    (hsame left).2.2 hequal, hthese, (hlist _).2 hthese⟩
  · exact (hget 0).2.trans (by rw [hframes]; rfl)
  · exact (hget 1).2.trans (by rw [hframes]; rfl)
  · exact (hrange _).mpr (.inl (by decide))
  · exact (hrange _).mpr (.inr (by decide))

end LispXref.Trail
