import LispXref.Workspace.Gather

/-! The index as a map from paths to entries: storing and dropping change what is found at
one path only. Not every path can be a key. -/
namespace LispXref

theorem lookup_filter_ne {α β : Type} [BEq α] [LawfulBEq α] [DecidableEq α]
    (entries : List (α × β)) (key other : α) :
    (entries.filter (·.1 ≠ key)).lookup other =
      if other = key then none else entries.lookup other := by
  induction entries with
  | nil => simp
  | cons first rest ih =>
    obtain ⟨head, value⟩ := first
    by_cases hother : other = head
    · subst hother
      by_cases hkey : other = key
      · simpa [hkey] using ih
      · simp [hkey]
    · have hbeq : (other == head) = false := beq_eq_false_iff_ne.mpr hother
      by_cases hkey : head = key
      · simpa [hkey, List.lookup_cons, hkey ▸ hbeq] using ih
      · simpa [hkey, List.lookup_cons, hbeq] using ih

namespace Index

theorem entry?_drop (index : Index) (path other : Path) :
    entry? (index.drop path) other = if other = path then none else index.entry? other :=
  lookup_filter_ne index.entries path other

theorem entry?_put (index : Index) (path other : Path) (entry : IndexEntry) :
    entry? (index.put path entry) other =
      if other = path then some entry else index.entry? other := by
  have hdrop := index.entry?_drop path other
  unfold entry? at hdrop
  simp only [put, entry?, List.lookup_append, hdrop]
  by_cases hother : other = path
  · simp [hother]
  · have hbeq : (other == path) = false := beq_eq_false_iff_ne.mpr hother
    simp [hother, List.lookup_cons, hbeq]

/-- Names are stored under the stamp that the file has, if it is there. -/
theorem entry?_record (index : Index) (path other : Path) (stamp : Option Stamp)
    (names : NameSet) : entry? (index.record path stamp names) other =
      if other = path then (stamp.map (⟨·, .names names⟩)).or (index.entry? other)
      else index.entry? other := by
  cases stamp with
  | none => simp [record]
  | some s =>
    rw [record, entry?_put]
    by_cases hother : other = path
    · simp [hother]
    · simp [hother]

end Index

/-- A path that is refused leads nowhere. -/
theorem FileTree.stamp?_of_refused (tree : FileTree) {path : Path} {error : FileError}
    (h : refused? path = some error) : tree.stamp? path = none := by
  simp [stamp?, node?, node, checkPath, h, bind, Except.bind]

namespace Gather

variable {tree : FileTree} {path : Path}

/-- Whatever refuses a path in any tree refuses it as a key. -/
theorem keyRefusal?_of_refused {error : FileError} (h : FileTree.refused? path = some error) :
    keyRefusal? tree path = some error := by
  rw [keyRefusal?, h]

/-- A path that leads somewhere is a key exactly if it is text. -/
theorem keyRefusal?_of_stamp {stamp : Stamp} (h : tree.stamp? path = some stamp) :
    keyRefusal? tree path = path.notText?.map .notEncodable := by
  have hrefused : FileTree.refused? path = none := by
    cases hrefused : FileTree.refused? path with
    | none => rfl
    | some error =>
      rw [tree.stamp?_of_refused hrefused] at h
      cases h
  rw [keyRefusal?, hrefused, h]
  rfl

theorem keyRefusal?_of_text (h : path.notText? = none) :
    keyRefusal? tree path = FileTree.refused? path := by
  rw [keyRefusal?, h]
  cases FileTree.refused? path <;> simp

theorem keyRefusal?_eq_none (hrefused : FileTree.refused? path = none)
    (h : path.notText? = none ∨ tree.stamp? path = none) : keyRefusal? tree path = none := by
  rw [keyRefusal?, hrefused]
  rcases h with htext | hstamp
  · simp [htext]
  · simp [hstamp]

theorem keyStamp_of_refusal {error : FileError} (h : keyRefusal? tree path = some error) :
    keyStamp tree path = .error (.path error) := by
  rw [keyStamp, h]

theorem keyStamp_of_no_refusal (h : keyRefusal? tree path = none) :
    keyStamp tree path = .ok (tree.stamp? path) := by
  rw [keyStamp, h]

/-- A path has a stamp as a key exactly if it is text and leads somewhere. -/
theorem keyStamp_eq_some_iff {stamp : Stamp} :
    keyStamp tree path = .ok (some stamp) ↔
      path.notText? = none ∧ tree.stamp? path = some stamp := by
  constructor
  · intro h
    cases hrefusal : keyRefusal? tree path with
    | some error =>
      rw [keyStamp_of_refusal hrefusal] at h
      cases h
    | none =>
      rw [keyStamp_of_no_refusal hrefusal] at h
      have hstamp := Except.ok.inj h
      rw [keyRefusal?_of_stamp hstamp] at hrefusal
      exact ⟨Option.map_eq_none_iff.mp hrefusal, hstamp⟩
  · rintro ⟨htext, hstamp⟩
    have hrefusal : keyRefusal? tree path = none := by
      rw [keyRefusal?_of_stamp hstamp, htext]
      rfl
    rw [keyStamp_of_no_refusal hrefusal, hstamp]

theorem store_of_no_refusal (h : keyRefusal? tree path = none) (index : Index) (names : NameSet) :
    store tree index path names = .ok (index.record path (tree.stamp? path) names) := by
  rw [store, keyStamp_of_no_refusal h]

theorem store_of_refusal {error : FileError} (h : keyRefusal? tree path = some error)
    (index : Index) (names : NameSet) : store tree index path names = .error (.path error) := by
  rw [store, keyStamp_of_refusal h]

/-- What is stored is stored under the stamp of the file. -/
theorem eq_record_of_store {index stored : Index} {names : NameSet}
    (h : store tree index path names = .ok stored) :
    stored = index.record path (tree.stamp? path) names := by
  cases hrefusal : keyRefusal? tree path with
  | some error =>
    rw [store_of_refusal hrefusal] at h
    cases h
  | none =>
    rw [store_of_no_refusal hrefusal] at h
    exact (Except.ok.inj h).symm

end Gather
end LispXref
