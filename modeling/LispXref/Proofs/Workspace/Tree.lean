import LispXref.Proofs.Workspace.Index
import LispXref.Workspace.Tree

/-! Editing a file moves no path: every path leads where it led before, and only the file
that was edited is another one. -/
namespace LispXref.FileTree

theorem at?_put (tree : FileTree) {place : Place} (hplace : place ≠ []) (node : Node)
    (other : Place) :
    (tree.put place node).at? other = if other = place then some node else tree.at? other := by
  unfold at? put
  by_cases hother : other = place
  · simp [hother, hplace]
  · have hbeq : (other == place) = false := beq_eq_false_iff_ne.mpr hother
    have hfilter := lookup_filter_ne tree.entries place other
    rw [if_neg hother] at hfilter
    simp only [List.lookup_cons, hbeq, hother, ↓reduceIte]
    rw [hfilter]

/-- Following a path depends on the directories only. -/
theorem follow_congr {tree other : FileTree}
    (h : ∀ place, (tree.at? place).map Node.isDirectory = (other.at? place).map Node.isDirectory)
    (path : Path) (place : Place) (parts : List CodeText) :
    tree.follow path place parts = other.follow path place parts := by
  induction parts generalizing place with
  | nil => rfl
  | cons part rest ih =>
    have hplace := h place
    unfold follow
    cases hnode : tree.at? place with
    | none =>
      rw [hnode, Option.map_none] at hplace
      rw [Option.map_eq_none_iff.mp hplace.symm]
    | some node =>
      rw [hnode, Option.map_some] at hplace
      obtain ⟨node', hnode', hsame⟩ := Option.map_eq_some_iff.mp hplace.symm
      rw [hnode']
      cases node <;> cases node' <;> simp_all [Node.isDirectory]

theorem follow_put_file {tree : FileTree} {place : Place} {bytes : List UInt8}
    {mtime : Int} (hfile : tree.at? place = some (.file bytes mtime)) (edited : List UInt8)
    (time : Int) (path : Path) (start : Place) (parts : List CodeText) :
    (tree.put place (.file edited time)).follow path start parts =
      tree.follow path start parts := by
  have hplace : place ≠ [] := by
    rintro rfl
    cases hfile
  apply follow_congr
  intro other
  rw [at?_put tree hplace]
  by_cases hother : other = place
  · rw [if_pos hother, hother, hfile]
    rfl
  · rw [if_neg hother]

theorem node_put_file {tree : FileTree} {place : Place} {bytes : List UInt8} {mtime : Int}
    (hfile : tree.at? place = some (.file bytes mtime)) (edited : List UInt8) (time : Int)
    (path : Path) :
    (tree.put place (.file edited time)).node path =
      (tree.node path).map fun found =>
        (found.1, if found.1 = place then .file edited time else found.2) := by
  have hplace : place ≠ [] := by
    rintro rfl
    cases hfile
  have hhere : (tree.put place (.file edited time)).here = tree.here := rfl
  unfold node
  cases checkPath path with
  | error error => rfl
  | ok _ =>
    rw [hhere, follow_put_file hfile]
    cases tree.follow path [] (tree.here.join path).parts with
    | error error => rfl
    | ok found =>
      simp only [bind, Except.bind, at?_put tree hplace]
      by_cases hfound : found = place
      · simp [hfound, hfile, Except.map]
      · cases tree.at? found <;> simp [hfound, Except.map]

theorem at?_of_node {tree : FileTree} {path : Path} {place : Place} {node : Node}
    (h : tree.node path = .ok (place, node)) : tree.at? place = some node := by
  unfold FileTree.node at h
  cases hcheck : checkPath path with
  | error error => rw [hcheck] at h; cases h
  | ok _ =>
    rw [hcheck] at h
    cases hfollow : tree.follow path [] (tree.here.join path).parts with
    | error error => rw [hfollow] at h; cases h
    | ok found =>
      rw [hfollow] at h
      simp only [bind, Except.bind] at h
      split at h
      · next found' hat =>
        cases h
        exact hat
      · cases h

end LispXref.FileTree
