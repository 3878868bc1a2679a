import Mathlib.Data.List.Induction
import LispXref.Proofs.Workspace.Index

/-! The index over any history of calls, between which files come, change and go: what is listed
for a file are the names that were stored for it last, as long as its stamp is the one that it had
then. A path that no file can have is refused, and so is one that leads to a file and is no
well-formed text. -/
namespace LispXref

/-- What may be asked of an index. -/
inductive IndexCall where
  | store (path : Path) (names : NameSet)
  | drop (path : Path)
  | clear

/-- The path that a call is about, if it is about one. -/
def IndexCall.path? : IndexCall → Option Path
  | .store path _ => some path
  | .drop path => some path
  | .clear => none

/-- A call with the files as they are when it is made. From one to the next they may have changed
in any way. -/
structure IndexEvent where
  files : FileTree
  call : IndexCall

namespace IndexEvent

/-- The index after a call. A call that is refused leaves it as it was. -/
def apply (index : Index) (event : IndexEvent) : Index :=
  match event.call with
  | .store path names =>
    match Gather.store event.files index path names with
    | .ok stored => stored
    | .error _ => index
  | .drop path =>
    match Gather.drop index path with
    | .ok dropped => dropped
    | .error _ => index
  | .clear => .empty

/-- A call stores names for a file that is there, with the stamp that it has. A path that is no
text is refused. -/
def Stores (event : IndexEvent) (path : Path) (stamp : Stamp) (names : NameSet) : Prop :=
  event.call = .store path names ∧ path.notText? = none ∧ event.files.stamp? path = some stamp

/-- After a call nothing is left of what was stored for a path before it. -/
def Ends (event : IndexEvent) (path : Path) : Prop :=
  event.call = .clear ∨ event.call = .drop path ∨ ∃ stamp names, event.Stores path stamp names

end IndexEvent

/-- The index after all calls of a history, the first of which found it empty. -/
def Index.ofHistory (history : List IndexEvent) : Index := history.foldl IndexEvent.apply .empty

/-- Names were stored for a path while the file was there with some stamp, and nothing ended
them. -/
def LastStored (history : List IndexEvent) (path : Path) (stamp : Stamp) (names : NameSet) : Prop :=
  ∃ before event after, history = before ++ event :: after ∧ event.Stores path stamp names ∧
    ∀ later ∈ after, ¬ later.Ends path

theorem not_lastStored_nil (path : Path) (stamp : Stamp) (names : NameSet) :
    ¬ LastStored [] path stamp names := by
  rintro ⟨before, event, after, hsplit, -⟩
  simp at hsplit

/-- After one more call, the names stored last are those that it stored, or those from before if
it did not end them. -/
theorem lastStored_concat_iff {history : List IndexEvent} {event : IndexEvent} {path : Path}
    {stamp : Stamp} {names : NameSet} :
    LastStored (history ++ [event]) path stamp names ↔
      event.Stores path stamp names ∨
        (¬ event.Ends path ∧ LastStored history path stamp names) := by
  constructor
  · rintro ⟨before, stored, after, hsplit, hstores, hlater⟩
    rcases List.eq_nil_or_concat after with rfl | ⟨after, last, rfl⟩
    · obtain ⟨-, hevent⟩ := List.append_inj' hsplit rfl
      obtain rfl := List.singleton_inj.mp hevent
      exact .inl hstores
    · have hconcat : history ++ [event] = (before ++ stored :: after) ++ [last] := by
        simpa using hsplit
      obtain ⟨hhistory, hevent⟩ := List.append_inj' hconcat rfl
      obtain rfl := List.singleton_inj.mp hevent
      rw [List.concat_eq_append, List.forall_mem_append] at hlater
      exact .inr ⟨hlater.2 event List.mem_cons_self, before, stored, after, hhistory, hstores,
        hlater.1⟩
  · rintro (hstores | ⟨hends, before, stored, after, rfl, hstores, hlater⟩)
    · exact ⟨history, event, [], rfl, hstores, by simp⟩
    · refine ⟨before, stored, after ++ [event], by simp, hstores, ?_⟩
      exact List.forall_mem_append.mpr ⟨hlater, by simpa using hends⟩

/-- Nothing is ever stored for a path that is no text. -/
theorem LastStored.text {history : List IndexEvent} {path : Path} {stamp : Stamp}
    {names : NameSet} (h : LastStored history path stamp names) : path.notText? = none := by
  obtain ⟨before, event, after, -, ⟨-, htext, -⟩, -⟩ := h
  exact htext

/-- Nothing is ever stored for a path that no file can have. -/
theorem LastStored.refused {history : List IndexEvent} {path : Path} {stamp : Stamp}
    {names : NameSet} (h : LastStored history path stamp names) :
    FileTree.refused? path = none := by
  obtain ⟨before, event, after, -, ⟨-, -, hstamp⟩, -⟩ := h
  cases hrefused : FileTree.refused? path with
  | none => rfl
  | some error =>
    rw [event.files.stamp?_of_refused hrefused] at hstamp
    cases hstamp

namespace IndexEvent

/-- Names are stored if the path is text and the file is there; otherwise nothing changes. -/
theorem apply_store_cases (index : Index) (files : FileTree) (path : Path) (names : NameSet) :
    (∃ stamp, path.notText? = none ∧ files.stamp? path = some stamp ∧
      apply index ⟨files, .store path names⟩ = index.put path ⟨stamp, .names names⟩) ∨
    ((∀ stamp, ¬ (path.notText? = none ∧ files.stamp? path = some stamp)) ∧
      apply index ⟨files, .store path names⟩ = index) := by
  simp only [apply, Gather.store]
  cases hkey : Gather.keyStamp files path with
  | error interruption =>
    refine .inr ⟨?_, rfl⟩
    intro stamp hstamp
    rw [Gather.keyStamp_eq_some_iff.mpr hstamp] at hkey
    cases hkey
  | ok found =>
    cases found with
    | none =>
      refine .inr ⟨?_, rfl⟩
      intro stamp hstamp
      rw [Gather.keyStamp_eq_some_iff.mpr hstamp] at hkey
      cases hkey
    | some stamp =>
      obtain ⟨htext, hstamp⟩ := Gather.keyStamp_eq_some_iff.mp hkey
      exact .inl ⟨stamp, htext, hstamp, rfl⟩

/-- An entry is dropped if the path is text; otherwise nothing changes. -/
theorem apply_drop_cases (index : Index) (files : FileTree) (path : Path) :
    (path.notText? = none ∧ apply index ⟨files, .drop path⟩ = index.drop path) ∨
      (path.notText? ≠ none ∧ apply index ⟨files, .drop path⟩ = index) := by
  simp only [apply, Gather.drop]
  cases path.notText? with
  | none => exact .inl ⟨rfl, rfl⟩
  | some run => exact .inr ⟨nofun, rfl⟩

/-- What a call does to the entry of one path. -/
theorem entry?_apply (index : Index) (event : IndexEvent) {path : Path} {entry : IndexEntry}
    (htext : index.entry? path = some entry → path.notText? = none) :
    Index.entry? (event.apply index) path = some entry ↔
      (∃ stamp names, event.Stores path stamp names ∧ entry = ⟨stamp, .names names⟩) ∨
        (¬ event.Ends path ∧ index.entry? path = some entry) := by
  obtain ⟨files, call⟩ := event
  cases call with
  | clear => simp [apply, Stores, Ends, Index.empty, Index.entry?]
  | drop dropped =>
    rcases apply_drop_cases index files dropped with ⟨-, happly⟩ | ⟨hnot, happly⟩
    · rw [happly, Index.entry?_drop]
      by_cases hpath : path = dropped
      · simp [Stores, Ends, hpath]
      · simp [Stores, Ends, hpath, Ne.symm hpath]
    · rw [happly]
      by_cases hpath : path = dropped
      · subst hpath
        simpa [Stores, Ends] using mt htext hnot
      · simp [Stores, Ends, Ne.symm hpath]
  | store stored names =>
    rcases apply_store_cases index files stored names with
      ⟨stamp, hstored, hstamp, happly⟩ | ⟨hnot, happly⟩
    · rw [happly, Index.entry?_put]
      by_cases hpath : path = stored
      · subst hpath
        simp [Stores, Ends, hstored, hstamp, eq_comm]
      · simp [Stores, Ends, hpath, Ne.symm hpath]
    · rw [happly]
      by_cases hpath : path = stored
      · subst hpath
        simp [Stores, Ends, hnot]
      · simp [Stores, Ends, Ne.symm hpath]

/-- A call about one path leaves the entry of any other. -/
theorem entry?_apply_of_ne (index : Index) {event : IndexEvent} {path other : Path}
    (habout : event.call.path? = some path) (hother : other ≠ path) :
    Index.entry? (event.apply index) other = index.entry? other := by
  obtain ⟨files, call⟩ := event
  cases call with
  | clear => cases habout
  | drop dropped =>
    cases habout
    rcases apply_drop_cases index files path with ⟨-, happly⟩ | ⟨-, happly⟩
    · rw [happly, Index.entry?_drop, if_neg hother]
    · rw [happly]
  | store stored names =>
    cases habout
    rcases apply_store_cases index files path names with ⟨stamp, -, -, happly⟩ | ⟨-, happly⟩
    · rw [happly, Index.entry?_put, if_neg hother]
    · rw [happly]

end IndexEvent

theorem Index.ofHistory_concat (history : List IndexEvent) (event : IndexEvent) :
    ofHistory (history ++ [event]) = event.apply (ofHistory history) := by
  rw [ofHistory, List.foldl_append]
  rfl

/-- The entry of a path holds the names that were stored for it last. -/
theorem Index.entry?_ofHistory (history : List IndexEvent) (path : Path) (entry : IndexEntry) :
    entry? (ofHistory history) path = some entry ↔
      ∃ stamp names, LastStored history path stamp names ∧ entry = ⟨stamp, .names names⟩ := by
  induction history using List.reverseRecOn with
  | nil => simp [ofHistory, empty, entry?, not_lastStored_nil]
  | append_singleton history event ih =>
    have htext : entry? (ofHistory history) path = some entry → path.notText? = none := by
      intro hentry
      obtain ⟨stamp, names, hlast, -⟩ := ih.mp hentry
      exact hlast.text
    rw [ofHistory_concat, IndexEvent.entry?_apply _ _ htext, ih]
    simp only [lastStored_concat_iff]
    constructor
    · rintro (⟨stamp, names, hstores, rfl⟩ | ⟨hends, stamp, names, hlast, rfl⟩)
      · exact ⟨stamp, names, .inl hstores, rfl⟩
      · exact ⟨stamp, names, .inr ⟨hends, hlast⟩, rfl⟩
    · rintro ⟨stamp, names, hstores | ⟨hends, hlast⟩, rfl⟩
      · exact .inl ⟨stamp, names, hstores, rfl⟩
      · exact .inr ⟨hends, stamp, names, hlast, rfl⟩

namespace Index

/-- The paths that have an entry. -/
def paths (index : Index) : List Path := index.entries.map Prod.fst

theorem nodup_paths_drop {index : Index} (h : index.paths.Nodup) (path : Path) :
    (index.drop path).paths.Nodup :=
  h.sublist (List.filter_sublist.map Prod.fst)

theorem nodup_paths_put {index : Index} (h : index.paths.Nodup) (path : Path)
    (entry : IndexEntry) : (index.put path entry).paths.Nodup := by
  rw [paths, put, List.map_append, List.nodup_append]
  refine ⟨nodup_paths_drop h path, by simp, ?_⟩
  intro other hother added hadded
  obtain rfl : added = path := by simpa using hadded
  obtain ⟨listed, hlisted, rfl⟩ := List.mem_map.mp hother
  simpa using (List.mem_filter.mp hlisted).2

theorem nodup_paths_apply {index : Index} (h : index.paths.Nodup) (event : IndexEvent) :
    (event.apply index).paths.Nodup := by
  obtain ⟨files, call⟩ := event
  cases call with
  | clear => exact List.nodup_nil
  | drop path =>
    rcases IndexEvent.apply_drop_cases index files path with ⟨-, happly⟩ | ⟨-, happly⟩
    · rw [happly]
      exact nodup_paths_drop h path
    · rwa [happly]
  | store path names =>
    rcases IndexEvent.apply_store_cases index files path names with
      ⟨stamp, -, -, happly⟩ | ⟨-, happly⟩
    · rw [happly]
      exact nodup_paths_put h path _
    · rwa [happly]

/-- A path never has two entries. -/
theorem nodup_paths_ofHistory (history : List IndexEvent) : (ofHistory history).paths.Nodup := by
  induction history using List.reverseRecOn with
  | nil => exact List.nodup_nil
  | append_singleton history event ih =>
    rw [ofHistory_concat]
    exact nodup_paths_apply ih event

theorem mem_entries_iff {index : Index} (h : index.paths.Nodup) (path : Path)
    (entry : IndexEntry) : (path, entry) ∈ index.entries ↔ index.entry? path = some entry := by
  obtain ⟨entries⟩ := index
  simp only [paths, entry?] at h ⊢
  induction entries with
  | nil => simp
  | cons first rest ih =>
    obtain ⟨head, found⟩ := first
    rw [List.map_cons, List.nodup_cons] at h
    by_cases hpath : path = head
    · subst hpath
      have hrest : (path, entry) ∉ rest := fun hmem => h.1 (List.mem_map.mpr ⟨_, hmem, rfl⟩)
      simp [hrest, eq_comm]
    · have hbeq : (path == head) = false := beq_eq_false_iff_ne.mpr hpath
      simp [List.lookup_cons, hbeq, hpath, ih h.2]

/-- Of entries that hold names, all names are listed. -/
theorem exists_allListed {entries : List (Path × IndexEntry)}
    (h : ∀ listed ∈ entries, ∃ names, listed.2.recorded = .names names) :
    ∃ all, allListed entries = .ok (.ofNames all) ∧ ∀ name, name ∈ all ↔
      ∃ listed ∈ entries, ∃ names, listed.2.recorded = .names names ∧ name ∈ names := by
  induction entries with
  | nil => exact ⟨∅, rfl, by simp⟩
  | cons first rest ih =>
    obtain ⟨path, entry⟩ := first
    obtain ⟨hfirst, hrest⟩ := List.forall_mem_cons.mp h
    obtain ⟨names, hnames⟩ := hfirst
    obtain ⟨all, hall, hmem⟩ := ih hrest
    change entry.recorded = .names names at hnames
    refine ⟨names ∪ all, ?_, ?_⟩
    · rw [allListed, hnames, hall]
      rfl
    · intro name
      simp [hnames, hmem]

/-- The counts of an index: its paths, and the names that were stored last for any of them. -/
theorem stats_ofHistory (history : List IndexEvent) : ∃ (counted : List Path) (all : NameSet),
    counted.Nodup ∧
    (∀ path, path ∈ counted ↔ ∃ stamp names, LastStored history path stamp names) ∧
    (∀ name, name ∈ all ↔
      ∃ path stamp names, LastStored history path stamp names ∧ name ∈ names) ∧
    (ofHistory history).stats = .ok ⟨counted.length, all.size⟩ := by
  have hdistinct := nodup_paths_ofHistory history
  have hentries : ∀ path entry, (path, entry) ∈ (ofHistory history).entries ↔
      ∃ stamp names, LastStored history path stamp names ∧ entry = ⟨stamp, .names names⟩ :=
    fun path entry => (mem_entries_iff hdistinct path entry).trans
      (entry?_ofHistory history path entry)
  obtain ⟨all, hall, hmem⟩ : ∃ all, allListed (ofHistory history).entries = .ok (.ofNames all) ∧
      ∀ name, name ∈ all ↔ ∃ listed ∈ (ofHistory history).entries, ∃ names,
        listed.2.recorded = .names names ∧ name ∈ names := by
    apply exists_allListed
    rintro ⟨path, entry⟩ hlisted
    obtain ⟨stamp, names, -, rfl⟩ := (hentries path entry).mp hlisted
    exact ⟨names, rfl⟩
  refine ⟨(ofHistory history).paths, all, hdistinct, ?_, ?_, ?_⟩
  · intro path
    simp [paths, hentries]
  · intro name
    rw [hmem]
    constructor
    · rintro ⟨⟨path, entry⟩, hlisted, names, hnames, hname⟩
      obtain ⟨stamp, stored, hlast, rfl⟩ := (hentries path entry).mp hlisted
      cases hnames
      exact ⟨path, stamp, names, hlast, hname⟩
    · rintro ⟨path, stamp, names, hlast, hname⟩
      exact ⟨(path, ⟨stamp, .names names⟩), (hentries _ _).mpr ⟨stamp, names, hlast, rfl⟩, names,
        rfl, hname⟩
  · rw [stats, hall, paths, List.length_map]
    rfl

end Index

/-- What a path is found to hold depends on its own entry only. -/
theorem Gather.lookUp_congr (files : FileTree) {index other : Index} {path : Path}
    (h : index.entry? path = other.entry? path) :
    lookUp files index path = lookUp files other path := by
  simp only [lookUp, Index.listing?, Index.fresh?, h]

/-- A path is found with the names that were stored for it last if the file is there with the
stamp that it had then, and else without any. -/
theorem Gather.lookUp_ofHistory (files : FileTree) (history : List IndexEvent) {path : Path}
    (hkey : keyRefusal? files path = none) :
    ∃ answer : Option NameSet,
      lookUp files (.ofHistory history) path = .ok (answer.isSome, answer.map .ofNames) ∧
      ∀ names, answer = some names ↔
        ∃ stamp, LastStored history path stamp names ∧ files.stamp? path = some stamp := by
  have hfreshIff : ∀ stamp names,
      (Index.ofHistory history).fresh? path (files.stamp? path) = some ⟨stamp, .names names⟩ ↔
        LastStored history path stamp names ∧ files.stamp? path = some stamp := by
    intro stamp names
    rw [Index.fresh?, Option.filter_eq_some_iff, Index.entry?_ofHistory]
    simp
  cases hfresh : (Index.ofHistory history).fresh? path (files.stamp? path) with
  | none =>
    refine ⟨none, ?_, ?_⟩
    · simp [lookUp, Index.listing?, keyStamp_of_no_refusal hkey, hfresh]
    · intro names
      simp [← hfreshIff, hfresh]
  | some entry =>
    obtain ⟨stamp, names, -, rfl⟩ :=
      (Index.entry?_ofHistory history path entry).mp (Option.filter_eq_some_iff.mp hfresh).1
    refine ⟨some names, ?_, ?_⟩
    · simp [lookUp, Index.listing?, keyStamp_of_no_refusal hkey, hfresh, Recorded.read]
    · intro other
      simp [← hfreshIff, hfresh]

/-- After any history of stores, drops and clearings, with files changed in any way between them:
a path that some file can have is found with the names that were stored for it last while the file
was there, if the file is there with the stamp that it had then, and else without any, unless it
leads to a file and is no text. A call about one path changes nothing for another. Counted are all
paths for which names were stored last, whatever became of the files, and all those names. A path
that no file can have can neither be looked up nor stored; nor can a path that is no text while it
leads to a file, and it can never be dropped. Neither is ever counted. -/
theorem Index.last_stored_unless_refused (history : List IndexEvent) :
    (∀ files path, FileTree.refused? path = none →
      path.notText? = none ∨ files.stamp? path = none → ∃ answer : Option NameSet,
      Gather.lookUp files (ofHistory history) path = .ok (answer.isSome, answer.map .ofNames) ∧
      ∀ names, answer = some names ↔
        ∃ stamp, LastStored history path stamp names ∧ files.stamp? path = some stamp) ∧
    (∀ event path other, IndexCall.path? event.call = some path → other ≠ path → ∀ files,
      Gather.lookUp files (ofHistory (history ++ [event])) other
        = Gather.lookUp files (ofHistory history) other) ∧
    (∃ (counted : List Path) (all : NameSet), counted.Nodup ∧
      (∀ path, path ∈ counted ↔ ∃ stamp names, LastStored history path stamp names) ∧
      (∀ name, name ∈ all ↔
        ∃ path stamp names, LastStored history path stamp names ∧ name ∈ names) ∧
      (ofHistory history).stats = .ok ⟨counted.length, all.size⟩) ∧
    (∀ path error, FileTree.refused? path = some error →
      (∀ stamp names, ¬ LastStored history path stamp names) ∧
      ∀ files, Gather.lookUp files (ofHistory history) path = .error (.path error) ∧
        ∀ names, Gather.store files (ofHistory history) path names = .error (.path error)) ∧
    ∀ path run, path.notText? = some run →
      (∀ stamp names, ¬ LastStored history path stamp names) ∧
      Gather.drop (ofHistory history) path = .error (.path (.notEncodable run)) ∧
      ∀ files, (files.stamp? path).isSome →
        Gather.lookUp files (ofHistory history) path = .error (.path (.notEncodable run)) ∧
        ∀ names, Gather.store files (ofHistory history) path names
          = .error (.path (.notEncodable run)) := by
  have hrefused {files : FileTree} {path : Path} {error : FileError}
      (hkey : Gather.keyRefusal? files path = some error) :
      Gather.lookUp files (ofHistory history) path = .error (.path error) ∧
        ∀ names, Gather.store files (ofHistory history) path names = .error (.path error) := by
    refine ⟨?_, fun names => Gather.store_of_refusal hkey _ names⟩
    rw [Gather.lookUp, Gather.keyStamp_of_refusal hkey]
  refine ⟨?_, ?_, stats_ofHistory history, ?_, ?_⟩
  · intro files path hpath hthere
    exact Gather.lookUp_ofHistory files history (Gather.keyRefusal?_eq_none hpath hthere)
  · intro event path other habout hother files
    rw [ofHistory_concat]
    exact Gather.lookUp_congr files (event.entry?_apply_of_ne _ habout hother)
  · intro path error herror
    refine ⟨?_, fun files => hrefused (Gather.keyRefusal?_of_refused herror)⟩
    intro stamp names hlast
    rw [hlast.refused] at herror
    cases herror
  · intro path run hrun
    refine ⟨?_, by rw [Gather.drop, hrun], ?_⟩
    · intro stamp names hlast
      rw [hlast.text] at hrun
      cases hrun
    · intro files hthere
      obtain ⟨stamp, hstamp⟩ := Option.isSome_iff_exists.mp hthere
      apply hrefused
      rw [Gather.keyRefusal?_of_stamp hstamp, hrun]
      rfl

/-- Names are stored for a file. The file goes, and what is stored for it then is lost. When the
file is back with its old stamp, the first names are found again; with another stamp none are,
though the entry still counts. -/
theorem Index.last_stored_unless_refused_restored :
    let name : FileName := [97, 46, 101, 108]
    let path : Path := ⟨.here, [CodeText.ofString "a.el"]⟩
    let files : FileTree := ⟨[([name], .file [40, 41] 1000)], .root, ⟨0, 0⟩, ⟨0, 0⟩⟩
    let gone := files.erase [name]
    let edited := files.put [name] (.file [40, 41] 2000)
    let first : NameSet := ⟨["foo"], List.pairwise_singleton _ _⟩
    let second : NameSet := ⟨["bar"], List.pairwise_singleton _ _⟩
    let history : List IndexEvent := [⟨files, .store path first⟩, ⟨gone, .store path second⟩]
    LastStored history path ⟨1000, 2⟩ first ∧
      Gather.lookUp files (ofHistory history) path = .ok (true, some (.ofNames first)) ∧
      Gather.lookUp edited (ofHistory history) path = .ok (false, none) ∧
      (ofHistory history).stats = .ok ⟨1, 1⟩ := by
  intro name path files gone edited first second history
  have hlast : LastStored history path ⟨1000, 2⟩ first := by
    refine ⟨[], _, [⟨gone, .store path second⟩], rfl, ⟨rfl, rfl, rfl⟩, ?_⟩
    have hgone : gone.stamp? path = none := rfl
    simp [IndexEvent.Ends, IndexEvent.Stores, hgone]
  obtain ⟨answer, hlook, hanswer⟩ :=
    (last_stored_unless_refused history).1 files path rfl (.inl rfl)
  obtain rfl : answer = some first := (hanswer first).mpr ⟨_, hlast, rfl⟩
  exact ⟨hlast, hlook, rfl, by with_unfolding_all rfl⟩

/-- A path with a null character or with half of a surrogate pair is refused, and so is one that
leads to a file and is no text; a path that leads nowhere has no names. -/
theorem Index.lookUp_refused :
    let null : Path := ⟨.here, [CodeText.ofString "a\x00b.el"]⟩
    let half : Path := ⟨.here, [CodePoint.ofNat 0xD800 :: CodeText.ofString ".el"]⟩
    let stray : Path := ⟨.here, [CodePoint.ofStrayByte 0xFF :: CodeText.ofString ".el"]⟩
    let files : FileTree := ⟨[([[0xFF, 46, 101, 108]], .file [] 0)], .root, ⟨0, 0⟩, ⟨0, 0⟩⟩
    files.stamp? null = none ∧ files.stamp? stray = some ⟨0, 0⟩ ∧
      Gather.lookUp files .empty ⟨.here, [CodeText.ofString "ab.el"]⟩ = .ok (false, none) ∧
      Gather.lookUp files .empty null = .error (.path .nullCharacter) ∧
      Gather.lookUp files .empty half
        = .error (.path (.notEncodable ⟨CodePoint.ofNat 0xD800, 0, 1⟩)) ∧
      Gather.lookUp files .empty stray
        = .error (.path (.notEncodable ⟨CodePoint.ofStrayByte 0xFF, 0, 1⟩)) :=
  ⟨rfl, rfl, rfl, rfl, rfl, rfl⟩

end LispXref
