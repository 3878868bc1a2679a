import LispXref.Proofs.Workspace.History

/-! Loading, searching and recording as steps of their own, between which files may be edited.
Names are stored under the stamp that the file has when they are stored, not under the one that
it had when it was loaded. They are those of the file if it was not edited in between, and may
hide a symbol for good if it was. -/
namespace LispXref

/-- A document in hand, with the files as they were when it was loaded. -/
structure Held where
  path : Path
  document : Document
  origin : FileTree
  loaded : Gather.load origin path = .ok document

/-- Every file is as it was before, with the stamp that it had, or has a stamp that it never
had. -/
def Restamps (past : List FileTree) (before after : FileTree) : Prop :=
  ∀ path, (after.stamp? path = before.stamp? path ∧ after.readBytes path = before.readBytes path) ∨
    ∀ moment ∈ before :: past, ∀ stamp,
      after.stamp? path = some stamp → moment.stamp? path ≠ some stamp

/-- The files now and at the moments before each edit, the index, the documents in hand, and
the searches of these that are finished. -/
structure Session where
  tree : FileTree
  past : List FileTree
  index : Index
  held : List Held
  searched : List (Held × Search)

namespace Session

def trees (session : Session) : List FileTree := session.tree :: session.past

/-- A session that has not begun. -/
def start (tree : FileTree) : Session := ⟨tree, [], .empty, [], []⟩

/-- If the document comes from the path, the file there has by now the stamp that it had when
the document was loaded. -/
def Undisturbed (path : Path) (session : Session) (held : Held) : Prop :=
  held.path = path → held.origin.stamp? path = session.tree.stamp? path

end Session

/-- An edit with a new stamp leaves stamps that tell the contents. -/
theorem StampsTell.restamps {past : List FileTree} {before after : FileTree}
    (h : StampsTell (before :: past)) (hedit : Restamps past before after) :
    StampsTell (after :: before :: past) := by
  have hnew (moment : FileTree) (hmoment : moment ∈ before :: past) (path : Path) (stamp : Stamp)
      (hafter : after.stamp? path = some stamp) (hstamp : moment.stamp? path = some stamp) :
      after.readBytes path = moment.readBytes path := by
    rcases hedit path with ⟨hsame, hbytes⟩ | hnever
    · rw [hbytes]
      exact h before List.mem_cons_self moment hmoment path stamp (hsame ▸ hafter) hstamp
    · exact absurd hstamp (hnever moment hmoment stamp hafter)
  intro tree htree other hother path stamp hstamp hstamp'
  rcases List.mem_cons.mp htree with rfl | hold <;>
    rcases List.mem_cons.mp hother with rfl | hold'
  · rfl
  · exact hnew other hold' path stamp hstamp hstamp'
  · exact (hnew tree hold path stamp hstamp' hstamp).symm
  · exact h tree hold other hold' path stamp hstamp hstamp'

/-- A first edit that gives the file another time. -/
theorem restamps_put_file {tree : FileTree} {place : Place} {bytes : List UInt8}
    {mtime time : Int} (hfile : tree.at? place = some (.file bytes mtime)) (edited : List UInt8)
    (htime : mtime ≠ time) : Restamps [] tree (tree.put place (.file edited time)) := by
  intro path
  rcases stamp?_put_file hfile edited time path with hsame | ⟨hbefore, hafter⟩
  · exact .inl hsame
  · right
    intro moment hmoment stamp hstamp hstamp'
    obtain rfl := List.mem_singleton.mp hmoment
    rw [hafter, ← hstamp', hbefore] at hstamp
    exact absurd (congrArg Stamp.mtime (Option.some.inj hstamp)).symm htime

namespace Gather

variable {tree : FileTree} {index : Index} {path : Path}

/-- What is listed for a file is what an entry with the stamp of the file holds. -/
theorem exists_entry_of_lookUp {fresh : Bool} {listing : Listing}
    (h : lookUp tree index path = .ok (fresh, some listing)) :
    ∃ entry, index.entry? path = some entry ∧ tree.stamp? path = some entry.stamp ∧
      entry.recorded.read = .ok listing := by
  cases hkey : keyRefusal? tree path with
  | some error =>
    rw [lookUp, keyStamp_of_refusal hkey] at h
    cases h
  | none =>
    rw [lookUp, keyStamp_of_no_refusal hkey] at h
    dsimp only at h
    split at h
    · cases h
    · next found hlisting =>
      cases h
      unfold Index.listing? at hlisting
      split at hlisting
      · cases hlisting
      · next entry hfresh =>
        obtain ⟨hentry, hstamp⟩ := Option.filter_eq_some_iff.mp hfresh
        refine ⟨entry, hentry, of_decide_eq_true hstamp, ?_⟩
        split at hlisting
        · next read hread =>
          cases hlisting
          exact hread
        · cases hlisting
        · cases hlisting

/-- A file is passed over because of what is listed for it. -/
theorem exists_listing_of_skipped {symbol : String} {name : CodeText}
    (h : source tree index symbol path = .ok (.skipped name)) :
    ∃ fresh listing, lookUp tree index path = .ok (fresh, some listing) ∧
      symbol ∉ listing.names := by
  have hloaded : loaded tree path ≠ .skipped name := by
    unfold loaded
    split <;> exact nofun
  unfold source at h
  split at h
  · cases h
  · next fresh listing hlook =>
    refine ⟨fresh, listing, hlook, ?_⟩
    split at h
    · exact absurd (Except.ok.inj h) hloaded
    · next hsymbol => exact hsymbol
  · exact absurd (Except.ok.inj h) hloaded

end Gather

/-- Bytes below 128 are characters by themselves. -/
theorem Utf8.decodeFrom_of_ascii {bytes : List UInt8} (h : ∀ b ∈ bytes, b.toNat < 0x80)
    (offset : Nat) (done : List Char) :
    decodeFrom offset done bytes
      = .ok (done.reverse ++ bytes.map fun b => Char.ofNat b.toNat) := by
  induction bytes generalizing offset done with
  | nil => rw [decodeFrom.eq_def, List.map_nil, List.append_nil]
  | cons b rest ih =>
    have hfollowing : following? b.toNat = some [] := by
      rw [following?, if_pos (h b List.mem_cons_self)]
    have hrest := ih (fun c hc => h c (List.mem_cons_of_mem b hc)) (offset + 1)
      (Char.ofNat b.toNat :: done)
    rw [List.reverse_cons, List.append_assoc] at hrest
    rw [decodeFrom.eq_def]
    simp only [hfollowing]
    exact hrest

theorem Gather.load_of_ascii {tree : FileTree} {path : Path} (bytes : List UInt8)
    (hbytes : tree.readBytes path = .ok bytes) (h : ∀ b ∈ bytes, b.toNat < 0x80) :
    load tree path
      = .ok ⟨path.toText, unifyLineEnds (bytes.map fun b => Char.ofNat b.toNat)⟩ := by
  have hdecode := Utf8.decodeFrom_of_ascii h 0 []
  rw [List.reverse_nil, List.nil_append] at hdecode
  simp only [load, FileTree.readText, hbytes, Utf8.decode, hdecode]
  rfl

section

variable [CharacterNames]

namespace Session

/-- One step of a session, in any order with the others. `mayStore` says of which documents the
outcome may be recorded when. -/
inductive Step (mayStore : Session → Held → Prop) (session : Session) : Session → Prop where
  | load (held : Held) : held.origin = session.tree →
      Step mayStore session { session with held := held :: session.held }
  | search {held : Held} (search : Search) : held ∈ session.held →
      Step mayStore session { session with searched := (held, search) :: session.searched }
  | remember {held : Held} {search : Search} {index : Index} :
      (held, search) ∈ session.searched → mayStore session held →
      Gather.remember session.tree session.index held.path
        (search.outcome (.document held.document)) = .ok index →
      Step mayStore session { session with index }
  | edit (tree : FileTree) : Restamps session.past session.tree tree →
      Step mayStore session { session with tree, past := session.trees }

/-- What any number of steps lead to. -/
inductive Reached (mayStore : Session → Held → Prop) (tree : FileTree) : Session → Prop where
  | start : Reached mayStore tree (Session.start tree)
  | step {session next : Session} :
      Reached mayStore tree session → Step mayStore session next → Reached mayStore tree next

/-- What holds at every moment of a session. Every entry lists the names of a document that was
loaded from its path, and if no disturbed one from there was recorded, the entry has the stamp
that the file had then. -/
structure Sound (mayStore : Session → Held → Prop) (session : Session) : Prop where
  stampsTell : StampsTell session.trees
  held : ∀ held ∈ session.held, held.origin ∈ session.trees
  searched : ∀ done ∈ session.searched, done.1.origin ∈ session.trees
  listed : ∀ path entry, session.index.entry? path = some entry → ∃ held : Held,
    held.path = path ∧ held.origin ∈ session.trees ∧
    (Transcript.ofText held.document.text).error = none ∧
    entry.recorded = .names (Transcript.ofText held.document.text).nameSet ∧
    ((∀ moment other, mayStore moment other → Undisturbed path moment other) →
      held.origin.stamp? path = some entry.stamp)

variable {mayStore : Session → Held → Prop} {session next : Session}

theorem sound_start (tree : FileTree) : (start tree).Sound mayStore where
  stampsTell := by
    intro first hfirst second hsecond path stamp _ _
    rw [List.mem_singleton.mp hfirst, List.mem_singleton.mp hsecond]
  held := by simp [start]
  searched := by simp [start]
  listed := by
    intro path entry hentry
    cases hentry

theorem Step.sound (hstep : Step mayStore session next) (h : session.Sound mayStore) :
    next.Sound mayStore := by
  cases hstep with
  | load held horigin =>
    refine ⟨h.stampsTell, ?_, h.searched, h.listed⟩
    refine List.forall_mem_cons.mpr ⟨?_, h.held⟩
    rw [horigin]
    exact List.mem_cons_self
  | search search hheld =>
    exact ⟨h.stampsTell, h.held, List.forall_mem_cons.mpr ⟨h.held _ hheld, h.searched⟩, h.listed⟩
  | @remember held search index hdone hmay hindex =>
    refine ⟨h.stampsTell, h.held, h.searched, ?_⟩
    intro path entry hentry
    rcases Gather.entry?_of_remember hindex hentry with hentry | ⟨rfl, hstamp, hcomplete, hrecorded⟩
    · exact h.listed path entry hentry
    · refine ⟨held, rfl, h.searched _ hdone, hcomplete, hrecorded, ?_⟩
      intro hundisturbed
      rw [hundisturbed session held hmay rfl, hstamp]
  | edit tree hedit =>
    have hlater {moment : FileTree} (hmoment : moment ∈ session.trees) :
        moment ∈ tree :: session.trees := List.mem_cons_of_mem tree hmoment
    refine ⟨h.stampsTell.restamps hedit, ?_, ?_, ?_⟩
    · intro held hheld
      exact hlater (h.held held hheld)
    · intro done hdone
      exact hlater (h.searched done hdone)
    · intro path entry hentry
      obtain ⟨held, hpath, horigin, hlisted⟩ := h.listed path entry hentry
      exact ⟨held, hpath, hlater horigin, hlisted⟩

theorem Reached.sound {tree : FileTree} (h : Reached mayStore tree session) :
    session.Sound mayStore := by
  induction h with
  | start => exact sound_start tree
  | step _ hstep ih => exact hstep.sound ih

end Session

namespace Gather

variable {tree : FileTree} {path : Path}

/-- What was found in a document that was read to its end can be recorded if the file is there, and
is listed from then on. -/
theorem exists_lookUp_remember (search : Search) (document : Document) {stamp : Stamp}
    (htext : path.notText? = none) (hstamp : tree.stamp? path = some stamp)
    (hcomplete : (Transcript.ofText document.text).error = none) (index : Index) :
    ∃ after, remember tree index path (search.outcome (.document document)) = .ok after ∧
      lookUp tree after path
        = .ok (true, some (.ofNames (Transcript.ofText document.text).nameSet)) := by
  have hkey : keyStamp tree path = .ok (some stamp) := keyStamp_eq_some_iff.mpr ⟨htext, hstamp⟩
  let names := (Transcript.ofText document.text).nameSet
  let after := index.record path (some stamp) names
  have hafter : remember tree index path (search.outcome (.document document)) = .ok after := by
    simp only [remember, search.recordable?_outcome, hcomplete, Option.isSome_none,
      Bool.false_eq_true, ↓reduceIte, store, hkey]
    rfl
  have hentry : after.entry? path = some ⟨stamp, .names names⟩ := by
    rw [Index.entry?_record, if_pos rfl]
    rfl
  have hfresh : after.fresh? path (some stamp) = some ⟨stamp, .names names⟩ := by
    rw [Index.fresh?, hentry, Option.filter_some, if_pos (decide_eq_true rfl)]
  refine ⟨after, hafter, ?_⟩
  rw [lookUp, hkey]
  dsimp only
  rw [Index.listing?, hfresh]
  rfl

end Gather

namespace Session

variable {mayStore : Session → Held → Prop} {session : Session} {path : Path}

/-- What is listed for a file are the names of a document that was loaded from there, which is
the file as it is now if no disturbed one was recorded. -/
theorem Sound.listing (h : session.Sound mayStore) {fresh : Bool} {listing : Listing}
    (hlook : Gather.lookUp session.tree session.index path = .ok (fresh, some listing)) :
    ∃ held : Held, held.path = path ∧ held.origin ∈ session.trees ∧
      (Transcript.ofText held.document.text).error = none ∧
      listing = .ofNames (Transcript.ofText held.document.text).nameSet ∧
      ((∀ moment other, mayStore moment other → Undisturbed path moment other) →
        Gather.load session.tree path = .ok held.document) := by
  obtain ⟨entry, hentry, hstamp, hread⟩ := Gather.exists_entry_of_lookUp hlook
  obtain ⟨held, rfl, horigin, hcomplete, hrecorded, hsame⟩ := h.listed path entry hentry
  rw [hrecorded] at hread
  refine ⟨held, rfl, horigin, hcomplete, (Except.ok.inj hread).symm, ?_⟩
  intro hundisturbed
  rw [Gather.load_eq_of_stamp h.stampsTell List.mem_cons_self horigin hstamp (hsame hundisturbed)]
  exact held.loaded

/-- Over every interleaving of loads, searches, recordings and edits that start with an empty
index, what is listed for a file are all names of a document that was loaded from there at some
moment. If, whenever the outcome for a document from there was recorded, the file still had the
stamp with which it was loaded, they are the names in the file as it is now, so that no search
passes over it unless the symbol does not occur in it. -/
theorem listing_current_if_undisturbed (tree : FileTree) :
    (∀ session, Reached (fun _ _ => True) tree session → ∀ path fresh listing,
      Gather.lookUp session.tree session.index path = .ok (fresh, some listing) →
      ∃ moment ∈ session.trees, ∃ document, Gather.load moment path = .ok document ∧
        (Transcript.ofText document.text).error = none ∧
        listing = .ofNames (Transcript.ofText document.text).nameSet) ∧
    ∀ path session, Reached (Undisturbed path) tree session →
      (∀ fresh listing,
        Gather.lookUp session.tree session.index path = .ok (fresh, some listing) →
        ∃ document, Gather.load session.tree path = .ok document ∧
          (Transcript.ofText document.text).error = none ∧
          listing = .ofNames (Transcript.ofText document.text).nameSet) ∧
      ∀ symbol name,
        Gather.source session.tree session.index symbol path = .ok (.skipped name) →
        ∃ document, Gather.load session.tree path = .ok document ∧
          (Transcript.ofText document.text).error = none ∧
          symbol ∉ (Transcript.ofText document.text).nameSet := by
  constructor
  · intro session hreached path fresh listing hlook
    obtain ⟨held, rfl, horigin, hcomplete, hlisting, -⟩ := hreached.sound.listing hlook
    exact ⟨held.origin, horigin, held.document, held.loaded, hcomplete, hlisting⟩
  · intro path session hreached
    have hcurrent (fresh : Bool) (listing : Listing)
        (hlook : Gather.lookUp session.tree session.index path = .ok (fresh, some listing)) :
        ∃ document, Gather.load session.tree path = .ok document ∧
          (Transcript.ofText document.text).error = none ∧
          listing = .ofNames (Transcript.ofText document.text).nameSet := by
      obtain ⟨held, -, -, hcomplete, hlisting, hload⟩ := hreached.sound.listing hlook
      exact ⟨held.document, hload fun _ _ h => h, hcomplete, hlisting⟩
    refine ⟨hcurrent, ?_⟩
    intro symbol name hskipped
    obtain ⟨fresh, listing, hlook, hsymbol⟩ := Gather.exists_listing_of_skipped hskipped
    obtain ⟨document, hload, hcomplete, rfl⟩ := hcurrent fresh listing hlook
    exact ⟨document, hload, hcomplete, hsymbol⟩

/-- Whatever edit falls between loading a file and recording what was found in it, the names
that the file had before are listed for it from then on. -/
theorem exists_reached_stale (held : Held) (search : Search) {edited : FileTree} {stamp : Stamp}
    (hedit : Restamps [] held.origin edited) (htext : held.path.notText? = none)
    (hstamp : edited.stamp? held.path = some stamp)
    (hcomplete : (Transcript.ofText held.document.text).error = none) :
    ∃ session, Reached (fun _ _ => True) held.origin session ∧ session.tree = edited ∧
      Gather.lookUp session.tree session.index held.path
        = .ok (true, some (.ofNames (Transcript.ofText held.document.text).nameSet)) := by
  obtain ⟨index, hindex, hlook⟩ :=
    Gather.exists_lookUp_remember search held.document htext hstamp hcomplete .empty
  refine ⟨⟨edited, [held.origin], index, [held], [(held, search)]⟩, ?_, rfl, hlook⟩
  have hload : Reached (fun _ _ => True) held.origin ⟨held.origin, [], .empty, [held], []⟩ :=
    Reached.start.step (.load held rfl)
  have hsearch := hload.step (.search search (List.mem_singleton_self held))
  have hedited := hsearch.step (.edit edited hedit)
  exact hedited.step (.remember (List.mem_singleton_self (held, search)) trivial hindex)

end Session

end

namespace Session

open CharacterNames in
/-- A file whose names are stored, which is then edited, and whose names are stored again. -/
theorem listing_current_if_undisturbed_edited :
    let name : FileName := [97, 46, 101, 108]
    let path : Path := ⟨.here, [CodeText.ofString "a.el"]⟩
    let tree : FileTree :=
      ⟨[([name], .file [40, 102, 111, 111, 41] 1000)], .root, ⟨0, 0⟩, ⟨0, 0⟩⟩
    let edited : FileTree := tree.put [name] (.file [40, 113, 117, 117, 120, 41] 2000)
    ∃ session, Reached (Undisturbed path) tree session ∧ session.tree = edited ∧
      Gather.lookUp session.tree session.index path
        = .ok (true, some (.ofNames (.ofList ["quux"]))) ∧
      ∃ document, Gather.load session.tree path = .ok document ∧
        (Transcript.ofText document.text).error = none ∧
        Listing.ofNames (.ofList ["quux"])
          = .ofNames (Transcript.ofText document.text).nameSet := by
  intro name path tree edited
  let title := CodeText.ofString "a.el"
  have hload : Gather.load tree path = .ok ⟨title, "(foo)".toList⟩ :=
    Gather.load_of_ascii [40, 102, 111, 111, 41] rfl (by simp)
  have hedited : Gather.load edited path = .ok ⟨title, "(quux)".toList⟩ :=
    Gather.load_of_ascii [40, 113, 117, 117, 120, 41] rfl (by simp)
  have hfoo : (Transcript.ofText "(foo)".toList).error = none := by with_unfolding_all rfl
  have hquux : Transcript.ofText "(quux)".toList =
      ⟨[⟨.list ⟨⟨0, 6⟩, none⟩ [.atom ⟨⟨1, 5⟩, none⟩ (.symbol "quux")], ["quux"]⟩], none⟩ := by
    with_unfolding_all rfl
  have hfile : tree.at? [name] = some (.file [40, 102, 111, 111, 41] 1000) := rfl
  have hedit : Restamps [] tree edited := restamps_put_file hfile _ (by decide)
  let search : Search := ⟨"foo", .occurrence, true⟩
  let first : Held := ⟨path, ⟨title, "(foo)".toList⟩, tree, hload⟩
  let second : Held := ⟨path, ⟨title, "(quux)".toList⟩, edited, hedited⟩
  have htext : path.notText? = none := rfl
  have hstamp : tree.stamp? path = some ⟨1000, 5⟩ := rfl
  have hstamp' : edited.stamp? path = some ⟨2000, 6⟩ := rfl
  obtain ⟨stored, hstored, -⟩ :=
    Gather.exists_lookUp_remember search first.document htext hstamp hfoo .empty
  obtain ⟨again, hagain, hlook⟩ := Gather.exists_lookUp_remember search second.document htext
    hstamp' (congrArg Transcript.error hquux) stored
  rw [hquux] at hlook
  have hfirst : Reached (Undisturbed path) tree ⟨tree, [], .empty, [first], [(first, search)]⟩ :=
    (Reached.start.step (.load first rfl)).step (.search search (List.mem_singleton_self first))
  have hkept := hfirst.step
    (.remember (List.mem_singleton_self (first, search)) (fun _ => rfl) hstored)
  have hchanged := hkept.step (.edit edited hedit)
  have hsecond := (hchanged.step (.load second rfl)).step (.search search List.mem_cons_self)
  have hlast := hsecond.step (.remember List.mem_cons_self (fun _ => rfl) hagain)
  exact ⟨_, hlast, rfl, hlook, ((listing_current_if_undisturbed tree).2 path _ hlast).1 _ _ hlook⟩

open CharacterNames in
/-- The file holds `(foo)` when it is loaded and `(quux)` when its names are stored. A search for
`quux` passes over it. -/
theorem remembering_after_edit_hides_symbol :
    let name : FileName := [97, 46, 101, 108]
    let path : Path := ⟨.here, [CodeText.ofString "a.el"]⟩
    let tree : FileTree :=
      ⟨[([name], .file [40, 102, 111, 111, 41] 1000)], .root, ⟨0, 0⟩, ⟨0, 0⟩⟩
    let edited : FileTree := tree.put [name] (.file [40, 113, 117, 117, 120, 41] 2000)
    ∃ session, Reached (fun _ _ => True) tree session ∧ session.tree = edited ∧
      Gather.load session.tree path = .ok ⟨CodeText.ofString "a.el", "(quux)".toList⟩ ∧
      "quux" ∈ (Transcript.ofText "(quux)".toList).nameSet ∧
      Gather.lookUp session.tree session.index path
        = .ok (true, some (.ofNames (.ofList ["foo"]))) ∧
      Gather.source session.tree session.index "quux" path
        = .ok (.skipped (CodeText.ofString "a.el")) := by
  intro name path tree edited
  let title := CodeText.ofString "a.el"
  have hload : Gather.load tree path = .ok ⟨title, "(foo)".toList⟩ :=
    Gather.load_of_ascii [40, 102, 111, 111, 41] rfl (by simp)
  have hedited : Gather.load edited path = .ok ⟨title, "(quux)".toList⟩ :=
    Gather.load_of_ascii [40, 113, 117, 117, 120, 41] rfl (by simp)
  have hfoo : Transcript.ofText "(foo)".toList =
      ⟨[⟨.list ⟨⟨0, 5⟩, none⟩ [.atom ⟨⟨1, 4⟩, none⟩ (.symbol "foo")], ["foo"]⟩], none⟩ := by
    with_unfolding_all rfl
  have hquux : Transcript.ofText "(quux)".toList =
      ⟨[⟨.list ⟨⟨0, 6⟩, none⟩ [.atom ⟨⟨1, 5⟩, none⟩ (.symbol "quux")], ["quux"]⟩], none⟩ := by
    with_unfolding_all rfl
  have hfile : tree.at? [name] = some (.file [40, 102, 111, 111, 41] 1000) := rfl
  have hedit : Restamps [] tree edited := restamps_put_file hfile _ (by decide)
  obtain ⟨session, hreached, hsession, hlook⟩ := exists_reached_stale
    ⟨path, ⟨title, "(foo)".toList⟩, tree, hload⟩ ⟨"foo", .occurrence, true⟩ hedit rfl rfl
    (congrArg Transcript.error hfoo)
  rw [hfoo] at hlook
  have hlisted : Gather.lookUp session.tree session.index path
      = .ok (true, some (.ofNames (.ofList ["foo"]))) := hlook
  have habsent : "quux" ∉ (Listing.ofNames (.ofList ["foo"])).names := by
    simp [Listing.ofNames]
  refine ⟨session, hreached, hsession, by rw [hsession, hedited], ?_, hlisted, ?_⟩
  · rw [hquux]
    exact NameSet.mem_ofList.mpr List.mem_cons_self
  · simp only [Gather.source, hlisted, if_neg habsent]
    rfl

end Session
end LispXref
