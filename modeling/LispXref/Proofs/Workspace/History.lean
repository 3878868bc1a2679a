import Mathlib.Data.List.Forall2
import LispXref.Proofs.Search.Prefilter
import LispXref.Proofs.Workspace.Tree
import LispXref.Workspace.Gather

/-! Searching with the index gives what searching without it gives, over every history of
searches and changes in which the stamp of a file tells its contents. A search that comes upon a
path that cannot be a key of the index ends there. -/
namespace LispXref

/-- Where a file has the same stamp in two of the trees, it has the same contents. -/
def StampsTell (trees : List FileTree) : Prop :=
  ∀ tree ∈ trees, ∀ other ∈ trees, ∀ path stamp,
    tree.stamp? path = some stamp → other.stamp? path = some stamp →
    tree.readBytes path = other.readBytes path

theorem StampsTell.of_subset {trees others : List FileTree} (h : StampsTell others)
    (hsubset : ∀ tree ∈ trees, tree ∈ others) : StampsTell trees :=
  fun tree htree other hother => h tree (hsubset tree htree) other (hsubset other hother)

/-- An edit of a file leaves what a path leads to as it was, or gives it the new stamp. -/
theorem stamp?_put_file {tree : FileTree} {place : Place} {bytes : List UInt8}
    {mtime : Int} (hfile : tree.at? place = some (.file bytes mtime)) (edited : List UInt8)
    (time : Int) (path : Path) :
    ((tree.put place (.file edited time)).stamp? path = tree.stamp? path ∧
        (tree.put place (.file edited time)).readBytes path = tree.readBytes path) ∨
      tree.stamp? path = some ⟨mtime, bytes.length⟩ ∧
        (tree.put place (.file edited time)).stamp? path = some ⟨time, edited.length⟩ := by
  simp only [FileTree.stamp?, FileTree.node?, FileTree.readBytes]
  rw [FileTree.node_put_file hfile]
  cases hnode : tree.node path with
  | error error => exact .inl ⟨rfl, rfl⟩
  | ok found =>
    obtain ⟨spot, node⟩ := found
    by_cases hplace : spot = place
    · have hnode' := FileTree.at?_of_node hnode
      rw [hplace, hfile] at hnode'
      cases hnode'
      exact .inr (by simp [Except.map, hplace, Node.stamp])
    · exact .inl (by simp [Except.map, hplace])

/-- Stamps tell an edit that gives the file another time. -/
theorem stampsTell_put_file {tree : FileTree} {place : Place} {bytes : List UInt8}
    {mtime time : Int} (hfile : tree.at? place = some (.file bytes mtime)) (edited : List UInt8)
    (htime : mtime ≠ time) : StampsTell [tree, tree.put place (.file edited time)] := by
  have hboth (path : Path) (stamp : Stamp) (h : tree.stamp? path = some stamp)
      (h' : (tree.put place (.file edited time)).stamp? path = some stamp) :
      tree.readBytes path = (tree.put place (.file edited time)).readBytes path := by
    rcases stamp?_put_file hfile edited time path with ⟨-, hbytes⟩ | ⟨hbefore, hafter⟩
    · exact hbytes.symm
    · rw [hbefore] at h
      rw [hafter, ← h] at h'
      exact absurd (congrArg Stamp.mtime (Option.some.inj h')).symm htime
  intro first hfirst second hsecond path stamp h h'
  simp only [List.mem_cons, List.not_mem_nil, or_false] at hfirst hsecond
  rcases hfirst with rfl | rfl <;> rcases hsecond with rfl | rfl
  · rfl
  · exact hboth path stamp h h'
  · exact (hboth path stamp h' h).symm
  · rfl

/-- The names in all forms of a text. -/
def Transcript.nameSet (transcript : Transcript) : NameSet :=
  .ofList (transcript.tops.flatMap (·.names))

/-- What a result shows of an outcome. -/
def Outcome.shown (outcome : Outcome) : Option (Document × List Match) × Option DocumentError :=
  (outcome.group?, outcome.error?)

theorem SearchResult.merge_eq_of_shown (outcomes : List Outcome) :
    merge outcomes = ⟨(outcomes.map Outcome.shown).filterMap Prod.fst,
      (outcomes.map Outcome.shown).filterMap Prod.snd, (outcomes.map Outcome.shown).length⟩ := by
  rw [List.filterMap_map, List.filterMap_map, List.length_map]
  rfl

namespace Gather

variable {trees : List FileTree} {tree : FileTree} {path : Path}

theorem load_eq_of_stamp {other : FileTree} {stamp : Stamp} (hstamps : StampsTell trees)
    (htree : tree ∈ trees) (hother : other ∈ trees) (h : tree.stamp? path = some stamp)
    (h' : other.stamp? path = some stamp) : load tree path = load other path := by
  have hbytes := hstamps tree htree other hother path stamp h h'
  simp only [load, FileTree.readText, hbytes]

theorem exists_remember_of_no_refusal (h : keyRefusal? tree path = none) (index : Index)
    (outcome : Outcome) : ∃ after, remember tree index path outcome = .ok after := by
  unfold remember
  cases recordable? outcome with
  | none => exact ⟨index, rfl⟩
  | some names => exact ⟨_, store_of_no_refusal h index names⟩

theorem loadedAll_cons (rest : List Path) (h : FileTree.refused? path = none) :
    loadedAll tree (path :: rest) = (loadedAll tree rest).map (loaded tree path :: ·) := by
  simp only [loadedAll, List.findSome?_cons, h]
  cases rest.findSome? FileTree.refused? <;> rfl

theorem map_cons_map {ε α β : Type} (x : Except ε (List α)) (first : α) (f : α → β) :
    (x.map (first :: ·)).map (·.map f) = (x.map (·.map f)).map (f first :: ·) := by
  cases x <;> rfl

/-- What comes of a search with an index if `plain` comes of it without one: it ends at the first
path that cannot be a key. -/
def orRefused {α : Type} (tree : FileTree) (paths : List Path) (plain : Except Interruption α) :
    Except Interruption α :=
  match paths.findSome? (keyRefusal? tree) with
  | some error => .error (.path error)
  | none => plain

theorem orRefused_map {α β : Type} (paths : List Path) (plain : Except Interruption α)
    (f : α → β) : orRefused tree paths (plain.map f) = (orRefused tree paths plain).map f := by
  unfold orRefused
  cases paths.findSome? (keyRefusal? tree) <;> rfl

theorem orRefused_cons {α : Type} (h : keyRefusal? tree path = none) (rest : List Path)
    (plain : Except Interruption α) :
    orRefused tree (path :: rest) plain = orRefused tree rest plain := by
  rw [orRefused, List.findSome?_cons, h, orRefused]

/-- What is completed with an index is completed without one. -/
theorem eq_ok_of_orRefused {α : Type} {paths : List Path} {plain : Except Interruption α}
    {result : α} (h : orRefused tree paths plain = .ok result) : plain = .ok result := by
  unfold orRefused at h
  split at h
  · cases h
  · exact h

end Gather

/-- Something that happens in a workspace: a search to its end, a search abandoned after
some files, a change that leaves other files behind, or a command to the index. -/
inductive Event where
  | run (search : Search) (paths : List Path)
  | abandon (search : Search) (paths : List Path) (count : Nat)
  | change (tree : FileTree)
  | invalidate (path : Path)
  | clear

/-- The files after an event. -/
def Event.tree (tree : FileTree) : Event → FileTree
  | .change changed => changed
  | _ => tree

/-- The files at every moment of a history. -/
def moments (tree : FileTree) : List Event → List FileTree
  | [] => [tree]
  | event :: rest => tree :: moments (event.tree tree) rest

/-- What comes of the searches of a history that were not abandoned, if `result` comes of a search
among files. -/
def resultsBy (result : FileTree → Search → List Path → Except Gather.Interruption SearchResult)
    (tree : FileTree) : List Event → List (Except Gather.Interruption SearchResult)
  | [] => []
  | event :: rest =>
    let others := resultsBy result (event.tree tree) rest
    match event with
    | .run search paths => result tree search paths :: others
    | _ => others

section

variable {first second : FileTree → Search → List Path → Except Gather.Interruption SearchResult}

theorem resultsBy_congr {events : List Event} (tree : FileTree)
    (h : ∀ tree search paths, .run search paths ∈ events →
      first tree search paths = second tree search paths) :
    resultsBy first tree events = resultsBy second tree events := by
  induction events generalizing tree with
  | nil => rfl
  | cons event rest ih =>
    have hrest := ih (event.tree tree) fun tree search paths hrun =>
      h tree search paths (List.mem_cons_of_mem event hrun)
    cases event with
    | run search paths =>
      rw [resultsBy, hrest, h tree search paths List.mem_cons_self]
      rfl
    | abandon | change | invalidate | clear => exact hrest

theorem resultsBy_forall₂ {R : Except Gather.Interruption SearchResult →
    Except Gather.Interruption SearchResult → Prop}
    (h : ∀ tree search paths, R (first tree search paths) (second tree search paths))
    (tree : FileTree) (events : List Event) :
    List.Forall₂ R (resultsBy first tree events) (resultsBy second tree events) := by
  induction events generalizing tree with
  | nil => exact .nil
  | cons event rest ih =>
    have hrest := ih (event.tree tree)
    cases event with
    | run search paths => exact .cons (h tree search paths) hrest
    | abandon | change | invalidate | clear => exact hrest

end

section

variable [CharacterNames]

/-- An entry that holds the names of a file as the tree has it, which was read to its end. -/
structure IndexEntry.MadeFrom (entry : IndexEntry) (tree : FileTree) (path : Path)
    (document : Document) : Prop where
  stamp : tree.stamp? path = some entry.stamp
  loaded : Gather.load tree path = .ok document
  complete : (Transcript.ofText document.text).error = none
  recorded : entry.recorded = .names (Transcript.ofText document.text).nameSet

/-- Every entry was made from the file at its path in one of the trees. -/
def Index.Truthful (trees : List FileTree) (index : Index) : Prop :=
  ∀ path entry, index.entry? path = some entry →
    ∃ tree ∈ trees, ∃ document, entry.MadeFrom tree path document

namespace Search

variable (search : Search) {document : Document}

theorem recordable?_outcome (document : Document) :
    Gather.recordable? (search.outcome (.document document)) =
      if (Transcript.ofText document.text).error.isSome then none
      else some (Transcript.ofText document.text).nameSet := rfl

/-- A document without the symbol holds no references to it. -/
theorem found_eq_nil (h : search.symbol ∉ (Transcript.ofText document.text).nameSet) :
    (search.inDocument document).found = [] := by
  have hfound : (search.inDocument document).found =
      (Transcript.ofText document.text).tops.flatMap fun top => search.references top.form :=
    search.flatMap_inTop document.text
  rw [hfound, List.flatMap_eq_nil_iff]
  intro top htop
  apply search.references_eq_nil
  intro hmem
  apply h
  rw [Transcript.nameSet, NameSet.mem_ofList, List.mem_flatMap]
  exact ⟨top, htop, (TopForm.mem_names_iff htop).mpr hmem⟩

end Search

theorem Search.shown_of_not_mem (search : Search) {document : Document} (name : CodeText)
    (hcomplete : (Transcript.ofText document.text).error = none)
    (h : search.symbol ∉ (Transcript.ofText document.text).nameSet) :
    (search.outcome (.document document)).shown = (search.outcome (.skipped name)).shown := by
  have hgroup : (search.outcome (.document document)).group? = none := by
    simp only [outcome, Outcome.group?, search.found_eq_nil h, List.isEmpty_nil, ↓reduceIte]
  have herror : (search.outcome (.document document)).error? = none := by
    simp only [outcome, Outcome.error?, inDocument, hcomplete, Option.map_none]
  rw [Outcome.shown, hgroup, herror]
  rfl

namespace Gather

variable {trees : List FileTree} {tree : FileTree} {index : Index} {path : Path}

/-- A file is passed over only if it can be read to its end and lacks the symbol. -/
theorem source_of_truthful (hstamps : StampsTell trees) (htree : tree ∈ trees)
    (hindex : index.Truthful trees) (hkey : keyRefusal? tree path = none) (symbol : String) :
    source tree index symbol path = .ok (loaded tree path) ∨
      source tree index symbol path = .ok (.skipped path.toText) ∧
        ∃ document, loaded tree path = .document document ∧
          (Transcript.ofText document.text).error = none ∧
          symbol ∉ (Transcript.ofText document.text).nameSet := by
  unfold source lookUp Index.listing?
  rw [keyStamp_of_no_refusal hkey]
  dsimp only
  cases hfresh : index.fresh? path (tree.stamp? path) with
  | none => exact .inl rfl
  | some entry =>
    obtain ⟨hentry, hstamp⟩ := Option.filter_eq_some_iff.mp hfresh
    obtain ⟨other, hother, document, hmade⟩ := hindex path entry hentry
    have hload : load tree path = .ok document := by
      rw [load_eq_of_stamp hstamps htree hother (of_decide_eq_true hstamp) hmade.stamp]
      exact hmade.loaded
    have hloaded : loaded tree path = .document document := by
      rw [loaded, hload]
    simp only [hmade.recorded, Recorded.read]
    by_cases hsymbol : symbol ∈ (Transcript.ofText document.text).nameSet
    · left
      simp [Listing.ofNames, hsymbol]
    · right
      refine ⟨by simp [Listing.ofNames, hsymbol], document, hloaded, hmade.complete, hsymbol⟩

/-- An entry after an outcome was recorded was there before, or holds the names of the document
under the stamp that the file has by now. -/
theorem entry?_of_remember {search : Search} {document : Document} {after : Index} {other : Path}
    {entry : IndexEntry}
    (hafter : remember tree index path (search.outcome (.document document)) = .ok after)
    (h : after.entry? other = some entry) :
    index.entry? other = some entry ∨
      other = path ∧ tree.stamp? path = some entry.stamp ∧
        (Transcript.ofText document.text).error = none ∧
        entry.recorded = .names (Transcript.ofText document.text).nameSet := by
  simp only [remember, search.recordable?_outcome] at hafter
  cases hcomplete : (Transcript.ofText document.text).error with
  | some error =>
    rw [hcomplete] at hafter
    cases hafter
    exact .inl h
  | none =>
    rw [hcomplete] at hafter
    rw [eq_record_of_store hafter, Index.entry?_record] at h
    by_cases hother : other = path
    · rw [if_pos hother] at h
      cases hstamp : tree.stamp? path with
      | none =>
        rw [hstamp] at h
        exact .inl h
      | some stamp =>
        rw [hstamp] at h
        cases h
        exact .inr ⟨hother, rfl, rfl, rfl⟩
    · rw [if_neg hother] at h
      exact .inl h

/-- Recording what was found in a file as the tree has it keeps the index truthful. -/
theorem truthful_of_remember (htree : tree ∈ trees) (hindex : index.Truthful trees)
    {search : Search} {after : Index}
    (hafter : remember tree index path (search.outcome (loaded tree path)) = .ok after) :
    after.Truthful trees := by
  unfold loaded at hafter
  cases hload : load tree path with
  | error error =>
    rw [hload] at hafter
    cases hafter
    exact hindex
  | ok document =>
    rw [hload] at hafter
    intro other entry hentry
    rcases entry?_of_remember hafter hentry with hentry | ⟨rfl, hstamp, hcomplete, hrecorded⟩
    · exact hindex other entry hentry
    · exact ⟨tree, htree, document, hstamp, hload, hcomplete, hrecorded⟩

theorem searchFiles_cons {search : Search} {found : Source} {after : Index} (rest : List Path)
    (h : source tree index search.symbol path = .ok found)
    (hafter : remember tree index path (search.outcome found) = .ok after) :
    searchFiles search tree index (path :: rest) =
      let others := searchFiles search tree after rest
      (others.1.map (search.outcome found :: ·), others.2) := by
  rw [searchFiles, h]
  dsimp only
  rw [hafter]

/-- A search of files leaves the index truthful and shows what a search without it shows. -/
theorem searchFiles_of_truthful (hstamps : StampsTell trees) (htree : tree ∈ trees)
    (hindex : index.Truthful trees) (search : Search) (paths : List Path) :
    (searchFiles search tree index paths).2.Truthful trees ∧
      (searchFiles search tree index paths).1.map (·.map Outcome.shown) =
        orRefused tree paths
          ((loadedAll tree paths).map (·.map fun source => (search.outcome source).shown)) := by
  induction paths generalizing index with
  | nil => exact ⟨hindex, rfl⟩
  | cons path rest ih =>
    cases hkey : keyRefusal? tree path with
    | some error =>
      have hsource : source tree index search.symbol path = .error (.path error) := by
        rw [source, lookUp, keyStamp_of_refusal hkey]
      rw [searchFiles, hsource, orRefused, List.findSome?_cons, hkey]
      exact ⟨hindex, rfl⟩
    | none =>
      have hrefused : FileTree.refused? path = none := by
        cases hrefused : FileTree.refused? path with
        | none => rfl
        | some error =>
          rw [keyRefusal?_of_refused hrefused] at hkey
          cases hkey
      have hnext {found : Source} {after : Index}
          (hsource : source tree index search.symbol path = .ok found)
          (hshown : (search.outcome found).shown = (search.outcome (loaded tree path)).shown)
          (hafter : remember tree index path (search.outcome found) = .ok after)
          (htruthful : after.Truthful trees) :
          (searchFiles search tree index (path :: rest)).2.Truthful trees ∧
            (searchFiles search tree index (path :: rest)).1.map (·.map Outcome.shown) =
              orRefused tree (path :: rest) ((loadedAll tree (path :: rest)).map
                (·.map fun source => (search.outcome source).shown)) := by
        obtain ⟨htruthful, hothers⟩ := ih htruthful
        rw [searchFiles_cons rest hsource hafter, loadedAll_cons rest hrefused,
          orRefused_cons hkey]
        refine ⟨htruthful, ?_⟩
        rw [map_cons_map, map_cons_map, hothers, hshown, ← orRefused_map]
      rcases source_of_truthful hstamps htree hindex hkey search.symbol with
        hsource | ⟨hsource, document, hloaded, hcomplete, hsymbol⟩
      · obtain ⟨after, hafter⟩ := exists_remember_of_no_refusal hkey index
          (search.outcome (loaded tree path))
        exact hnext hsource rfl hafter (truthful_of_remember htree hindex hafter)
      · refine hnext hsource ?_ rfl hindex
        rw [hloaded]
        exact (search.shown_of_not_mem _ hcomplete hsymbol).symm

/-- With a truthful index a search has the result that it has without one. -/
theorem merge_searchFiles (hstamps : StampsTell trees) (htree : tree ∈ trees)
    (hindex : index.Truthful trees) (search : Search) (paths : List Path) :
    (searchFiles search tree index paths).1.map SearchResult.merge =
      orRefused tree paths ((loadedAll tree paths).map search.run) := by
  have hmerge (outcomes : Except Interruption (List Outcome)) :
      outcomes.map SearchResult.merge = (outcomes.map (·.map Outcome.shown)).map fun shown =>
        ⟨shown.filterMap Prod.fst, shown.filterMap Prod.snd, shown.length⟩ := by
    cases outcomes with
    | error interruption => rfl
    | ok outcomes => exact congrArg Except.ok (SearchResult.merge_eq_of_shown outcomes)
  have hrun : (loadedAll tree paths).map search.run
      = ((loadedAll tree paths).map (·.map search.outcome)).map SearchResult.merge := by
    cases loadedAll tree paths <;> rfl
  have hshown : ((loadedAll tree paths).map (·.map search.outcome)).map (·.map Outcome.shown)
      = (loadedAll tree paths).map (·.map fun source => (search.outcome source).shown) := by
    cases loadedAll tree paths with
    | error interruption => rfl
    | ok sources => exact congrArg Except.ok (List.map_map ..)
  rw [hmerge, (searchFiles_of_truthful hstamps htree hindex search paths).2, hrun, hmerge, hshown,
    orRefused_map, orRefused_map, orRefused_map]

/-- Over paths that are text, a search ends where it ends without an index. -/
theorem orRefused_of_text {paths : List Path} (h : ∀ path ∈ paths, path.notText? = none)
    (search : Search) :
    orRefused tree paths ((loadedAll tree paths).map search.run)
      = (loadedAll tree paths).map search.run := by
  have hsame : paths.findSome? (keyRefusal? tree) = paths.findSome? FileTree.refused? := by
    induction paths with
    | nil => rfl
    | cons path rest ih =>
      obtain ⟨hpath, hrest⟩ := List.forall_mem_cons.mp h
      rw [List.findSome?_cons, List.findSome?_cons, ih hrest, keyRefusal?_of_text hpath]
  rw [orRefused, hsame, loadedAll]
  cases paths.findSome? FileTree.refused? <;> rfl

end Gather

/-- The index after an event. -/
def Event.index (tree : FileTree) (index : Index) : Event → Index
  | .run search paths => (Gather.searchFiles search tree index paths).2
  | .abandon search paths count =>
    (Gather.searchFiles search tree index (paths.take count)).2
  | .change _ => index
  | .invalidate path =>
    match Gather.drop index path with
    | .ok dropped => dropped
    | .error _ => index
  | .clear => .empty

/-- The results of the searches of a history that were not abandoned, made with the index. -/
def indexedResults (tree : FileTree) (index : Index) :
    List Event → List (Except Gather.Interruption SearchResult)
  | [] => []
  | event :: rest =>
    let others := indexedResults (event.tree tree) (event.index tree index) rest
    match event with
    | .run search paths => (Gather.searchFiles search tree index paths).1.map .merge :: others
    | _ => others

/-- The results of the same searches made without an index. -/
def plainResults : FileTree → List Event → List (Except Gather.Interruption SearchResult) :=
  resultsBy fun tree search paths => (Gather.loadedAll tree paths).map search.run

/-- The results of the same searches made without an index, but ended at the first path that cannot
be a key of one. -/
def refusedResults : FileTree → List Event → List (Except Gather.Interruption SearchResult) :=
  resultsBy fun tree search paths =>
    Gather.orRefused tree paths ((Gather.loadedAll tree paths).map search.run)

theorem Event.index_truthful {trees : List FileTree} {tree : FileTree} {index : Index}
    (hstamps : StampsTell trees) (htree : tree ∈ trees) (hindex : index.Truthful trees)
    (event : Event) : (event.index tree index).Truthful trees := by
  cases event with
  | run search paths => exact (Gather.searchFiles_of_truthful hstamps htree hindex search paths).1
  | abandon search paths count =>
    exact (Gather.searchFiles_of_truthful hstamps htree hindex search (paths.take count)).1
  | change changed => exact hindex
  | invalidate path =>
    simp only [Event.index, Gather.drop]
    cases path.notText? with
    | some run => exact hindex
    | none =>
      intro other entry hentry
      rw [Index.entry?_drop] at hentry
      split at hentry
      · cases hentry
      · exact hindex other entry hentry
  | clear =>
    intro other entry hentry
    cases hentry

/-- From a truthful index on, the rest of a history has the same results with and without
it. -/
theorem indexedResults_of_truthful {trees : List FileTree} {tree : FileTree} {index : Index}
    (hstamps : StampsTell trees) (events : List Event)
    (htrees : ∀ moment ∈ moments tree events, moment ∈ trees) (hindex : index.Truthful trees) :
    indexedResults tree index events = refusedResults tree events := by
  induction events generalizing tree index with
  | nil => rfl
  | cons event rest ih =>
    have htree : tree ∈ trees := htrees tree List.mem_cons_self
    have hrest := ih (fun moment hmoment => htrees moment (List.mem_cons_of_mem tree hmoment))
      (event.index_truthful hstamps htree hindex)
    cases event with
    | run search paths =>
      rw [indexedResults, hrest, Gather.merge_searchFiles hstamps htree hindex search paths]
      rfl
    | abandon search paths count => exact hrest
    | change changed => exact hrest
    | invalidate path => exact hrest
    | clear => exact hrest

/-- Over every history that starts with an empty index, every search that was not abandoned
has the result that it has without an index at that moment, if it is completed. All searches whose
paths are text are as they are without an index. Any other ends at the first path that cannot be a
key. -/
theorem indexedResults_transparent (tree : FileTree) (events : List Event)
    (hstamps : StampsTell (moments tree events)) :
    List.Forall₂ (fun indexed plain => ∀ result, indexed = .ok result → plain = .ok result)
      (indexedResults tree .empty events) (plainResults tree events) ∧
    ((∀ search paths, .run search paths ∈ events → ∀ path ∈ paths, path.notText? = none) →
      indexedResults tree .empty events = plainResults tree events) ∧
    indexedResults tree .empty events = refusedResults tree events := by
  have hall : indexedResults tree .empty events = refusedResults tree events := by
    apply indexedResults_of_truthful hstamps events (fun _ h => h)
    intro path entry hentry
    cases hentry
  refine ⟨?_, ?_, hall⟩
  · rw [hall]
    exact resultsBy_forall₂ (fun _ _ _ _ => Gather.eq_ok_of_orRefused) tree events
  · intro htext
    rw [hall]
    apply resultsBy_congr
    intro tree search paths hrun
    exact Gather.orRefused_of_text (htext search paths hrun) search

end

open CharacterNames in
/-- A file that is searched, passed over, edited so that it holds the symbol, and searched
again; and one whose name is no text, at which the last search ends. -/
theorem indexedResults_transparent_edited :
    let name : FileName := "a.el".toUTF8.toList
    let path : Path := ⟨.here, [CodeText.ofString "a.el"]⟩
    let stray : Path := ⟨.here, [[CodePoint.ofStrayByte 0xFF]]⟩
    let tree : FileTree := ⟨[([name], .file "(f)".toUTF8.toList 1),
      ([[0xFF]], .file "(f)".toUTF8.toList 1)], .root, ⟨0, 0⟩, ⟨0, 0⟩⟩
    let edited : FileTree := tree.put [name] (.file "(g)".toUTF8.toList 2)
    let events : List Event := [.run ⟨"f", .occurrence, true⟩ [path],
      .run ⟨"g", .variableUse, true⟩ [path], .change edited, .run ⟨"g", .occurrence, true⟩ [path],
      .abandon ⟨"h", .occurrence, false⟩ [path, path] 1, .invalidate path, .clear,
      .run ⟨"f", .occurrence, true⟩ [path, stray]]
    StampsTell (moments tree events) ∧
      List.Forall₂ (fun indexed plain => ∀ result, indexed = .ok result → plain = .ok result)
        (indexedResults tree .empty events) (plainResults tree events) ∧
      (indexedResults tree .empty events).dropLast = (plainResults tree events).dropLast ∧
      (indexedResults tree .empty events).getLast?
        = some (.error (.path (.notEncodable ⟨CodePoint.ofStrayByte 0xFF, 0, 1⟩))) := by
  intro name path stray tree edited events
  have hfile : tree.at? [name] = some (.file "(f)".toUTF8.toList 1) := by with_unfolding_all rfl
  have hedited : StampsTell [tree, edited] := stampsTell_put_file hfile _ (by decide)
  have hstamps : StampsTell (moments tree events) := by
    apply hedited.of_subset
    intro moment hmoment
    simpa [moments, events, Event.tree] using hmoment
  obtain ⟨hcompleted, -, hresults⟩ := indexedResults_transparent tree events hstamps
  refine ⟨hstamps, hcompleted, ?_⟩
  rw [hresults]
  exact ⟨by with_unfolding_all rfl, by with_unfolding_all rfl⟩

end LispXref
