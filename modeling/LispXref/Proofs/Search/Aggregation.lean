import LispXref.Proofs.Search.Matches
import LispXref.Report

/-! Results put together from outcomes. Documents are told apart by what they are and not by
name or text, so that a table with a row for each document loses nothing and mixes nothing up:
what it shows are the matches and errors of all outcomes, each once and in their order. -/
namespace LispXref

/-- A result while outcomes are added to it. The matches stand in a table under the keys of their
documents, in the order in which the keys came. -/
structure Tally (κ : Type) where
  rows : List (κ × Document × List Match)
  errors : List DocumentError
  scanned : Nat

namespace Tally

variable {κ : Type}

def result (tally : Tally κ) : SearchResult := ⟨tally.rows.map (·.2), tally.errors, tally.scanned⟩

/-- The row for the document of an outcome, if anything was found in it. -/
def row? (entry : κ × Outcome) : Option (κ × Document × List Match) :=
  entry.2.group?.map (entry.1, ·)

/-- The key of the document of an outcome, if it was searched. -/
def documentKey? (entry : κ × Outcome) : Option κ :=
  match entry.2 with
  | .searched _ => some entry.1
  | _ => none

/-- The documents that were searched are all different. -/
def Distinct (entries : List (κ × Outcome)) : Prop := (entries.filterMap documentKey?).Nodup

theorem map_row?_sublist (entry : κ × Outcome) :
    ((row? entry).toList.map (·.1)).Sublist (documentKey? entry).toList := by
  obtain ⟨key, outcome⟩ := entry
  cases outcome with
  | skipped | failed => exact .slnil
  | searched findings =>
    by_cases hfound : findings.found = [] <;> simp [row?, Outcome.group?, documentKey?, hfound]

variable [DecidableEq κ] {key : κ}

/-- Puts a value under a key, in place of one that is there or else at the end. -/
def put {β : Type} (key : κ) (value : β) : List (κ × β) → List (κ × β)
  | [] => [(key, value)]
  | row :: rest => if row.1 = key then (key, value) :: rest else row :: put key value rest

def add (tally : Tally κ) (key : κ) (outcome : Outcome) : Tally κ :=
  let counted := { tally with scanned := tally.scanned + 1 }
  match outcome with
  | .skipped _ => counted
  | .failed name error => { counted with errors := tally.errors ++ [⟨name, .unloadable error⟩] }
  | .searched findings =>
    { counted with
      rows :=
        if findings.found = [] then tally.rows
        else put key (findings.document, findings.allMatches) tally.rows
      errors := match findings.error with
        | some error => tally.errors ++ [⟨findings.document.name, .unreadable error⟩]
        | none => tally.errors }

/-- The tally of outcomes, each with the key of its document. -/
def ofOutcomes (entries : List (κ × Outcome)) : Tally κ :=
  entries.foldl (fun tally entry => tally.add entry.1 entry.2) ⟨[], [], 0⟩

theorem put_of_not_mem {β : Type} {value : β} {rows : List (κ × β)} (h : key ∉ rows.map (·.1)) :
    put key value rows = rows ++ [(key, value)] := by
  induction rows with
  | nil => rfl
  | cons row rest ih =>
    rw [List.map_cons, List.mem_cons, not_or] at h
    rw [put, if_neg (Ne.symm h.1), ih h.2, List.cons_append]

/-- One more outcome, of a document that has no row yet. -/
theorem add_of_not_mem (tally : Tally κ) (outcome : Outcome)
    (h : outcome.group?.isSome = true → key ∉ tally.rows.map (·.1)) :
    tally.add key outcome = ⟨tally.rows ++ (row? (key, outcome)).toList,
      tally.errors ++ outcome.error?.toList, tally.scanned + 1⟩ := by
  cases outcome with
  | skipped name => simp [add, row?, Outcome.group?, Outcome.error?]
  | failed name error => simp [add, row?, Outcome.group?, Outcome.error?]
  | searched findings =>
    by_cases hfound : findings.found = []
    · cases herror : findings.error <;>
        simp [add, row?, Outcome.group?, Outcome.error?, hfound, herror]
    · have hfresh : key ∉ tally.rows.map (·.1) := h (by simp [Outcome.group?, hfound])
      cases herror : findings.error <;>
        simp [add, row?, Outcome.group?, Outcome.error?, hfound, herror, put_of_not_mem hfresh]

/-- Outcomes of documents that are all different and have no rows yet. -/
theorem foldl_add (tally : Tally κ) (entries : List (κ × Outcome))
    (h : (tally.rows.map (·.1) ++ entries.filterMap documentKey?).Nodup) :
    entries.foldl (fun tally entry => tally.add entry.1 entry.2) tally
      = ⟨tally.rows ++ entries.filterMap row?, tally.errors ++ entries.filterMap (·.2.error?),
          tally.scanned + entries.length⟩ := by
  induction entries generalizing tally with
  | nil => simp
  | cons entry rest ih =>
    have hkeys := map_row?_sublist entry
    have hcons : (entry :: rest).filterMap documentKey?
        = (documentKey? entry).toList ++ rest.filterMap documentKey? := by
      rw [List.filterMap_cons]
      cases documentKey? entry <;> rfl
    rw [hcons] at h
    have hfresh : entry.2.group?.isSome = true → entry.1 ∉ tally.rows.map (·.1) := by
      intro hgroup hmem
      have hkey : entry.1 ∈ (row? entry).toList.map (·.1) := by
        obtain ⟨group, hgroup⟩ := Option.isSome_iff_exists.mp hgroup
        simp [row?, hgroup]
      have hlater := List.mem_append_left (rest.filterMap documentKey?) (hkeys.subset hkey)
      exact (List.nodup_append.mp h).2.2 _ hmem _ hlater rfl
    have hrest : ((tally.rows ++ (row? entry).toList).map (·.1)
        ++ rest.filterMap documentKey?).Nodup := by
      rw [List.map_append, List.append_assoc]
      exact h.sublist ((hkeys.append_right _).append_left _)
    rw [List.foldl_cons, add_of_not_mem tally entry.2 hfresh, ih _ hrest]
    cases hrow : row? entry <;> cases herror : entry.2.error? <;>
      simp [hrow, herror, Nat.add_comm, Nat.add_left_comm]

variable {entries : List (κ × Outcome)}

theorem ofOutcomes_eq (h : Distinct entries) :
    ofOutcomes entries
      = ⟨entries.filterMap row?, entries.filterMap (·.2.error?), entries.length⟩ := by
  rw [ofOutcomes, foldl_add ⟨[], [], 0⟩ entries h]
  simp

/-- A table with keys shows what the outcomes show by themselves. -/
theorem result_ofOutcomes (h : Distinct entries) :
    (ofOutcomes entries).result = .merge (entries.map (·.2)) := by
  rw [ofOutcomes_eq h, result, SearchResult.merge, List.map_filterMap, List.filterMap_map,
    List.filterMap_map, List.length_map]
  congr 2
  funext entry
  simp [row?, Function.comp_def]

end Tally

def Outcome.allMatches : Outcome → List Match
  | .searched findings => findings.allMatches
  | _ => []

/-- An outcome has a group of matches exactly if it has matches, and the group holds them. -/
theorem Outcome.elim_group? (outcome : Outcome) :
    outcome.group?.elim [] (·.2) = outcome.allMatches := by
  cases outcome with
  | skipped | failed => rfl
  | searched findings =>
    by_cases hfound : findings.found = [] <;>
      simp [group?, allMatches, Findings.allMatches, hfound]

namespace SearchResult

theorem allMatches_merge (outcomes : List Outcome) :
    (merge outcomes).allMatches = outcomes.flatMap Outcome.allMatches := by
  induction outcomes with
  | nil => rfl
  | cons outcome rest ih =>
    rw [List.flatMap_cons, ← ih, ← outcome.elim_group?]
    simp only [merge, allMatches, List.filterMap_cons]
    cases outcome.group? <;> rfl

theorem documentCount_merge (outcomes : List Outcome) :
    (merge outcomes).documentCount = outcomes.countP fun outcome => outcome.allMatches ≠ [] := by
  rw [documentCount, merge, List.length_filterMap_eq_countP]
  refine List.countP_congr fun outcome _ => ?_
  cases outcome with
  | skipped | failed => simp [Outcome.group?, Outcome.allMatches]
  | searched findings =>
    by_cases hfound : findings.found = [] <;>
      simp [Outcome.group?, Outcome.allMatches, Findings.allMatches, hfound]

end SearchResult

/-- What went wrong with a document. -/
def Outcome.faults : Outcome → List DocumentError
  | .skipped _ => []
  | .failed name error => [⟨name, .unloadable error⟩]
  | .searched findings =>
    findings.error.toList.map fun error => ⟨findings.document.name, .unreadable error⟩

theorem Outcome.toList_error? (outcome : Outcome) : outcome.error?.toList = outcome.faults := by
  cases outcome with
  | skipped | failed => rfl
  | searched findings => cases herror : findings.error <;> simp [error?, faults, herror]

theorem SearchResult.errors_merge (outcomes : List Outcome) :
    (merge outcomes).errors = outcomes.flatMap Outcome.faults := by
  induction outcomes with
  | nil => rfl
  | cons outcome rest ih =>
    rw [List.flatMap_cons, ← ih, ← outcome.toList_error?]
    simp only [merge, List.filterMap_cons]
    cases outcome.error? <;> rfl

/-- The matches in a document follow one another, also if it could not be read to its end. -/
theorem Search.allMatches_ascend [CharacterNames] (search : Search) (document : Document) :
    (search.inDocument document).allMatches.Pairwise fun a b =>
      a.start < b.start ∧ a.stop ≤ b.start := by
  have hfound : (search.inDocument document).found = _ := search.flatMap_inTop document.text
  have hordered := (search.spread_references document.text).ordered
  rw [← hfound] at hordered
  rw [Findings.allMatches, List.pairwise_map]
  apply hordered.imp_of_mem
  intro a b ha _ hle
  have hlt := (within_of_mem_found ha).1
  simp only [Match.start, Match.stop]
  omega

/-- The JSON of a result that was put together from outcomes. -/
theorem Report.json_merge (tree : FileTree) (root : Option Path) (outcomes : List Outcome) :
    let matched := outcomes.flatMap fun outcome => outcome.allMatches.map fun m =>
      Json.ofFields [("file", .string (displayName tree root m.document.name)),
        ("line", .nat m.line), ("start", .nat m.start), ("end", .nat m.stop),
        ("text", .string (m.text.map .ofChar))]
    let faults := outcomes.flatMap fun outcome => outcome.faults.map fun error =>
      Json.ofFields [("file", .string (displayName tree root error.name)),
        ("offset", error.offset?.elim .null .nat), ("message", .text error.message)]
    json tree root (.merge outcomes) =
      .ofFields [("matches", .array matched), ("match_count", .nat matched.length),
        ("document_count", .nat (outcomes.countP fun outcome => outcome.allMatches ≠ [])),
        ("documents_scanned", .nat outcomes.length), ("errors", .array faults)] := by
  intro matched faults
  have hmatched : (SearchResult.merge outcomes).allMatches.map (matchJson tree root) = matched := by
    rw [SearchResult.allMatches_merge, List.map_flatMap]
    rfl
  have hfaults : (SearchResult.merge outcomes).errors.map (errorJson tree root) = faults := by
    have hentry : errorJson tree root = fun error =>
        Json.ofFields [("file", .string (displayName tree root error.name)),
          ("offset", error.offset?.elim .null .nat), ("message", .text error.message)] := by
      funext error
      rw [errorJson]
      cases error.offset? <;> rfl
    rw [SearchResult.errors_merge, List.map_flatMap, hentry]
  have hcount : (SearchResult.merge outcomes).matchCount = matched.length := by
    rw [← hmatched, List.length_map, SearchResult.matchCount]
  rw [json, hmatched, hfaults, hcount, SearchResult.documentCount_merge]
  rfl

/-- Outcomes of documents that are all different, whatever their names and texts, are put together
without loss: the result of two lists is that of the first followed by that of the second, and the
counts add up. The JSON shows the matches of all outcomes, by document in their order, as many as
it says there are, and one error for each document that could not be loaded or read to its end.
The matches in a document ascend, and a fault leaves those before it. -/
theorem Tally.outcomes_shown_once [CharacterNames] {κ : Type} [DecidableEq κ]
    {xs ys : List (κ × Outcome)} (hdistinct : Distinct (xs ++ ys)) (tree : FileTree)
    (root : Option Path) :
    let first := ofOutcomes xs
    let second := ofOutcomes ys
    let whole := ofOutcomes (xs ++ ys)
    let outcomes := (xs ++ ys).map (·.2)
    let matched := outcomes.flatMap fun outcome => outcome.allMatches.map fun m =>
      Json.ofFields [("file", .string (Report.displayName tree root m.document.name)),
        ("line", .nat m.line), ("start", .nat m.start), ("end", .nat m.stop),
        ("text", .string (m.text.map .ofChar))]
    let faults := outcomes.flatMap fun outcome => outcome.faults.map fun error =>
      Json.ofFields [("file", .string (Report.displayName tree root error.name)),
        ("offset", error.offset?.elim .null .nat), ("message", .text error.message)]
    (whole.rows = first.rows ++ second.rows ∧ whole.errors = first.errors ++ second.errors ∧
      whole.scanned = first.scanned + second.scanned ∧
      whole.result.matchCount = first.result.matchCount + second.result.matchCount ∧
      whole.result.documentCount = first.result.documentCount + second.result.documentCount) ∧
    (first.result = .merge (xs.map (·.2)) ∧ second.result = .merge (ys.map (·.2)) ∧
      whole.result = .merge outcomes) ∧
    Report.json tree root whole.result =
      .ofFields [("matches", .array matched), ("match_count", .nat matched.length),
        ("document_count", .nat (outcomes.countP fun outcome => outcome.allMatches ≠ [])),
        ("documents_scanned", .nat outcomes.length), ("errors", .array faults)] ∧
    ∀ (search : Search) (document : Document),
      let outcome := search.outcome (.document document)
      outcome.allMatches = ((Transcript.ofText document.text).tops.flatMap fun top =>
        search.references top.form).map (⟨document, ·⟩) ∧
      outcome.allMatches.Pairwise (fun a b => a.start < b.start ∧ a.stop ≤ b.start) ∧
      outcome.faults = (Transcript.ofText document.text).error.toList.map fun error =>
        ⟨document.name, .unreadable error⟩ := by
  intro first second whole outcomes matched faults
  have hboth : Distinct xs ∧ Distinct ys := by
    rw [Distinct, List.filterMap_append] at hdistinct
    exact ⟨(List.nodup_append.mp hdistinct).1, (List.nodup_append.mp hdistinct).2.1⟩
  have hwhole : whole = ⟨first.rows ++ second.rows, first.errors ++ second.errors,
      first.scanned + second.scanned⟩ := by
    simp only [whole, first, second, ofOutcomes_eq hdistinct, ofOutcomes_eq hboth.1,
      ofOutcomes_eq hboth.2, List.filterMap_append, List.length_append]
  have hresult : whole.result = .merge outcomes := result_ofOutcomes hdistinct
  refine ⟨⟨?_, ?_, ?_, ?_, ?_⟩,
    ⟨result_ofOutcomes hboth.1, result_ofOutcomes hboth.2, hresult⟩, ?_, ?_⟩
  · rw [hwhole]
  · rw [hwhole]
  · rw [hwhole]
  · simp [hwhole, SearchResult.matchCount, SearchResult.allMatches, result]
  · simp [hwhole, SearchResult.documentCount, result]
  · rw [hresult]
    exact Report.json_merge tree root outcomes
  · intro search document outcome
    exact ⟨search.allMatches_inDocument document, search.allMatches_ascend document, rfl⟩

open CharacterNames in
/-- Two documents with one name and one text, in which the fault comes after a match on the second
line, beside one that was passed over and one that is not there. Names are shown as seen from the
directory, where they lie in it. -/
theorem Tally.outcomes_shown_once_equal_documents :
    let files : FileTree := ⟨[], .root, ⟨0, 0⟩, ⟨0, 0⟩⟩
    let root : Path := ⟨.root, [CodeText.ofString "p"]⟩
    let document : Document := ⟨CodeText.ofString "/p/a.el", "\n(f))".toList⟩
    let findings : Findings :=
      ⟨document, [.atom ⟨⟨2, 3⟩, none⟩ (.symbol "f")], some ⟨.unexpectedClosing .round, 4⟩, none⟩
    let missing := CodeText.ofString "c.el"
    let xs : List (Nat × Outcome) :=
      [(0, .searched findings), (1, .skipped (CodeText.ofString "b.el"))]
    let ys : List (Nat × Outcome) :=
      [(2, .searched findings), (3, .failed missing (.missing missing))]
    let whole := ofOutcomes (xs ++ ys)
    Distinct (xs ++ ys) ∧
    (Search.mk "f" .occurrence false).outcome (.document document) = .searched findings ∧
    whole.rows = (ofOutcomes xs).rows ++ (ofOutcomes ys).rows ∧
    whole.result.groups = List.replicate 2 (document, findings.allMatches) ∧
    Report.json files (some root) whole.result = .ofFields [
      ("matches", .array (List.replicate 2 (.ofFields [("file", .text "a.el"), ("line", .nat 2),
        ("start", .nat 3), ("end", .nat 4), ("text", .text "f")]))),
      ("match_count", .nat 2), ("document_count", .nat 2), ("documents_scanned", .nat 4),
      ("errors", .array [
        .ofFields [("file", .text "a.el"), ("offset", .nat 4),
          ("message", .text "unexpected ')' (offset 4)")],
        .ofFields [("file", .text "a.el"), ("offset", .nat 4),
          ("message", .text "unexpected ')' (offset 4)")],
        .ofFields [("file", .text "c.el"), ("offset", .null),
          ("message", .text "[Errno 2] No such file or directory: 'c.el'")]])] := by
  intro files root document findings missing xs ys whole
  have hdistinct : Distinct (xs ++ ys) := by
    rw [Distinct]
    decide
  have hmessage : (FileError.missing missing).message
      = "[Errno 2] No such file or directory: 'c.el'" := by
    decide +kernel
  have hinside : Json.text "a.el" = .string (Report.displayName files (some root) document.name) :=
    congrArg Json.string (by decide +kernel)
  have houtside : Json.text "c.el" = .string (Report.displayName files (some root) missing) :=
    congrArg Json.string (by decide +kernel)
  obtain ⟨⟨hrows, -⟩, ⟨-, -, hresult⟩, hjson, -⟩ :=
    outcomes_shown_once hdistinct files (some root)
  have hmerged : whole.result = .merge ((xs ++ ys).map (·.2)) := hresult
  refine ⟨hdistinct, by with_unfolding_all rfl, hrows, ?_, hjson.trans ?_⟩
  · rw [hmerged]
    rfl
  · rw [← hmessage, hinside, houtside]
    with_unfolding_all rfl

end LispXref
