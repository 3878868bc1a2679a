import LispXref.Search

/-! Chains of lexicons. However deeply chains are nested, whatever is asked about a name is
answered by one table: the first one that holds the name in any class. -/
namespace LispXref

namespace NameTable

variable {table : NameTable} {name : String}

/-- The name stands in at least one class of the table. -/
def Holds (table : NameTable) (name : String) : Prop := ∃ cls, name ∈ table.names cls

theorem mentions_iff : table.mentions name = true ↔ table.Holds name := by
  simp only [mentions, Bool.or_eq_true, decide_eq_true_eq]
  constructor
  · rintro (((h | h) | h) | h)
    · exact ⟨.functionName, h⟩
    · exact ⟨.macroName, h⟩
    · exact ⟨.specialFormName, h⟩
    · exact ⟨.variableName, h⟩
  · rintro ⟨cls, h⟩
    cases cls with
    | functionName => exact .inl (.inl (.inl h))
    | macroName => exact .inl (.inl (.inr h))
    | specialFormName => exact .inl (.inr h)
    | variableName => exact .inr h

/-- A table that holds a name in one class has an answer for every class. -/
theorem answer_of_holds (h : table.Holds name) (cls : NameClass) :
    table.answer cls name = some (decide (name ∈ table.names cls)) := by
  unfold answer
  split
  · next hmem => simp [hmem]
  · next hmem => simp [mentions_iff.mpr h, hmem]

theorem answer_of_not_holds (h : ¬ table.Holds name) (cls : NameClass) :
    table.answer cls name = none := by
  unfold answer
  rw [if_neg fun hmem => h ⟨cls, hmem⟩, if_neg fun hmentions => h (mentions_iff.mp hmentions)]

end NameTable

/-- A table in a list that holds a name, and none before it does. -/
structure FirstHolds (name : String) (tables : List NameTable) (table : NameTable) : Prop where
  holds : table.Holds name
  first : ∃ before after, tables = before ++ table :: after ∧ ∀ other ∈ before, ¬ other.Holds name

section

variable {name : String} {tables : List NameTable}

theorem FirstHolds.mem {table : NameTable} (h : FirstHolds name tables table) : table ∈ tables := by
  obtain ⟨before, after, rfl, -⟩ := h.first
  exact List.mem_append_right _ List.mem_cons_self

theorem exists_firstHolds (h : ∃ table ∈ tables, table.Holds name) :
    ∃ table, FirstHolds name tables table := by
  induction tables with
  | nil =>
    obtain ⟨table, hmem, -⟩ := h
    exact absurd hmem List.not_mem_nil
  | cons first rest ih =>
    by_cases hfirst : first.Holds name
    · exact ⟨first, hfirst, [], rest, rfl, by simp⟩
    · obtain ⟨table, hmem, hholds⟩ := h
      have hrest : table ∈ rest := by
        rcases List.mem_cons.mp hmem with rfl | hmem
        · exact absurd hholds hfirst
        · exact hmem
      obtain ⟨found, hfound, before, after, rfl, hbefore⟩ := ih ⟨table, hrest, hholds⟩
      exact ⟨found, hfound, first :: before, after, rfl,
        List.forall_mem_cons.mpr ⟨hfirst, hbefore⟩⟩

theorem findSome?_answer_of_not_holds (h : ∀ table ∈ tables, ¬ table.Holds name)
    (cls : NameClass) : tables.findSome? (·.answer cls name) = none := by
  rw [List.findSome?_eq_none_iff]
  intro table hmem
  exact NameTable.answer_of_not_holds (h table hmem) cls

/-- No table before the first one that holds the name has an answer. -/
theorem FirstHolds.findSome?_answer {table : NameTable} (h : FirstHolds name tables table)
    (cls : NameClass) :
    tables.findSome? (·.answer cls name) = some (decide (name ∈ table.names cls)) := by
  obtain ⟨before, after, rfl, hbefore⟩ := h.first
  rw [List.findSome?_append, findSome?_answer_of_not_holds hbefore, Option.none_or,
    List.findSome?_cons, NameTable.answer_of_holds h.holds]

end

namespace Lexicon

mutual

/-- The tables of a lexicon in the order in which they are asked. -/
def tables : Lexicon → List NameTable
  | .table names => [names]
  | .chain parts => tablesOfAll parts

def tablesOfAll : List Lexicon → List NameTable
  | [] => []
  | part :: rest => tables part ++ tablesOfAll rest

end

mutual

/-- A lexicon gives the first answer of one of its tables. -/
theorem answer_eq_findSome? (cls : NameClass) (name : String) : (lexicon : Lexicon) →
    answer cls name lexicon = lexicon.tables.findSome? (·.answer cls name)
  | .table names => by
    rw [answer, tables, List.findSome?_singleton]
  | .chain parts => answerFirst_eq_findSome? cls name parts

theorem answerFirst_eq_findSome? (cls : NameClass) (name : String) : (parts : List Lexicon) →
    answerFirst cls name parts = (tablesOfAll parts).findSome? (·.answer cls name)
  | [] => rfl
  | part :: rest => by
    rw [answerFirst, tablesOfAll, List.findSome?_append, answer_eq_findSome? cls name part,
      answerFirst_eq_findSome? cls name rest]

end

/-- The table that decides about a name. -/
def Decides (lexicon : Lexicon) (name : String) (table : NameTable) : Prop :=
  FirstHolds name lexicon.tables table

variable {lexicon : Lexicon} {name : String} {table : NameTable}

theorem Decides.answer (h : lexicon.Decides name table) (cls : NameClass) :
    lexicon.answer cls name = some (decide (name ∈ table.names cls)) := by
  rw [answer_eq_findSome?, FirstHolds.findSome?_answer h]

theorem answer_of_not_holds (h : ∀ table ∈ lexicon.tables, ¬ table.Holds name) (cls : NameClass) :
    lexicon.answer cls name = none := by
  rw [answer_eq_findSome?, findSome?_answer_of_not_holds h]

/-- Either no table holds the name, or one decides about it. -/
theorem undecided_or_decides (lexicon : Lexicon) (name : String) :
    (∀ table ∈ lexicon.tables, ¬ table.Holds name) ∨ ∃ table, lexicon.Decides name table := by
  by_cases h : ∃ table ∈ lexicon.tables, table.Holds name
  · exact .inr (exists_firstHolds h)
  · exact .inl fun table hmem hholds => h ⟨table, hmem, hholds⟩

end Lexicon

namespace Search

section

variable {lexicon : Lexicon} {name : String} {kind : ReferenceKind} {cls : NameClass}

theorem prepare_of_not_holds (hkind : kind.requiredClass? = some cls)
    (h : ∀ table ∈ lexicon.tables, ¬ table.Holds name) (prefilter : Bool) :
    prepare name kind (some lexicon) prefilter = .error (.unknown name kind) := by
  simp only [prepare, checkClass, hkind, Option.bind_some, Lexicon.answer_of_not_holds h]

theorem prepare_of_decides {table : NameTable} (hkind : kind.requiredClass? = some cls)
    (h : lexicon.Decides name table) (prefilter : Bool) :
    prepare name kind (some lexicon) prefilter =
      if name ∈ table.names cls then .ok ⟨name, kind, prefilter⟩
      else .error (.mismatch name kind) := by
  simp only [prepare, checkClass, hkind, Option.bind_some, h.answer]
  by_cases hmem : name ∈ table.names cls
  · rw [decide_eq_true hmem, if_pos hmem]
  · rw [decide_eq_false hmem, if_neg hmem]

theorem prepare_eq_unknown_iff (hkind : kind.requiredClass? = some cls) (prefilter : Bool) :
    prepare name kind (some lexicon) prefilter = .error (.unknown name kind) ↔
      ∀ table ∈ lexicon.tables, ¬ table.Holds name := by
  constructor
  · intro hunknown
    rcases lexicon.undecided_or_decides name with h | ⟨table, h⟩
    · exact h
    · rw [prepare_of_decides hkind h] at hunknown
      split at hunknown <;> cases hunknown
  · intro h
    exact prepare_of_not_holds hkind h prefilter

theorem prepare_eq_mismatch_iff (hkind : kind.requiredClass? = some cls) (prefilter : Bool) :
    prepare name kind (some lexicon) prefilter = .error (.mismatch name kind) ↔
      ∃ table, lexicon.Decides name table ∧ name ∉ table.names cls := by
  constructor
  · intro hmismatch
    rcases lexicon.undecided_or_decides name with h | ⟨table, h⟩
    · rw [prepare_of_not_holds hkind h] at hmismatch
      cases hmismatch
    · rw [prepare_of_decides hkind h] at hmismatch
      split at hmismatch
      · cases hmismatch
      · next hmem => exact ⟨table, h, hmem⟩
  · rintro ⟨table, h, hmem⟩
    rw [prepare_of_decides hkind h, if_neg hmem]

theorem prepare_eq_ok_iff (hkind : kind.requiredClass? = some cls) (prefilter : Bool) :
    prepare name kind (some lexicon) prefilter = .ok ⟨name, kind, prefilter⟩ ↔
      ∃ table, lexicon.Decides name table ∧ name ∈ table.names cls := by
  constructor
  · intro hok
    rcases lexicon.undecided_or_decides name with h | ⟨table, h⟩
    · rw [prepare_of_not_holds hkind h] at hok
      cases hok
    · rw [prepare_of_decides hkind h] at hok
      split at hok
      · next hmem => exact ⟨table, h, hmem⟩
      · cases hok
  · rintro ⟨table, h, hmem⟩
    rw [prepare_of_decides hkind h, if_pos hmem]

end

/-- One table of a lexicon, however its chains are nested, answers for all classes: the first
one that holds the name, if there is one. So a search for calls is refused as unknown exactly
if no table holds the name, and as a mismatch exactly if the first one that does has it in
other classes only. A search for variables or symbols is never refused. -/
theorem prepared_by_first_table (lexicon : Lexicon) (name : String) :
    ((∃ table, lexicon.Decides name table) ↔ ∃ table ∈ lexicon.tables, table.Holds name) ∧
    ((¬ ∃ table, lexicon.Decides name table) → ∀ cls, lexicon.answer cls name = none) ∧
    (∀ table, lexicon.Decides name table →
      (∀ cls, lexicon.answer cls name = some (decide (name ∈ table.names cls))) ∧
        ∃ cls, lexicon.answer cls name = some true) ∧
    (∀ kind cls, (kind, cls) ∈ [(ReferenceKind.functionCall, NameClass.functionName),
        (.macroCall, .macroName), (.specialCall, .specialFormName)] → ∀ prefilter,
      let prepared := prepare name kind (some lexicon) prefilter
      (prepared = .error (.unknown name kind) ↔ ∀ table ∈ lexicon.tables, ¬ table.Holds name) ∧
      (prepared = .error (.mismatch name kind) ↔
        ∃ table, lexicon.Decides name table ∧ name ∉ table.names cls) ∧
      (prepared = .ok ⟨name, kind, prefilter⟩ ↔
        ∃ table, lexicon.Decides name table ∧ name ∈ table.names cls)) ∧
    ∀ kind ∈ [ReferenceKind.variableUse, .occurrence], ∀ known prefilter,
      prepare name kind known prefilter = .ok ⟨name, kind, prefilter⟩ := by
  refine ⟨⟨?_, exists_firstHolds⟩, ?_, ?_, ?_, ?_⟩
  · rintro ⟨table, h⟩
    exact ⟨table, h.mem, h.holds⟩
  · intro hnone
    rcases lexicon.undecided_or_decides name with h | h
    · exact Lexicon.answer_of_not_holds h
    · exact absurd h hnone
  · intro table h
    obtain ⟨cls, hmem⟩ := h.holds
    refine ⟨h.answer, cls, ?_⟩
    rw [h.answer, decide_eq_true hmem]
  · intro kind cls hpair prefilter
    have hkind : kind.requiredClass? = some cls := by
      simp only [List.mem_cons, Prod.mk.injEq, List.not_mem_nil, or_false] at hpair
      rcases hpair with ⟨rfl, rfl⟩ | ⟨rfl, rfl⟩ | ⟨rfl, rfl⟩ <;> rfl
    exact ⟨prepare_eq_unknown_iff hkind prefilter, prepare_eq_mismatch_iff hkind prefilter,
      prepare_eq_ok_iff hkind prefilter⟩
  · intro kind hkind known prefilter
    simp only [List.mem_cons, List.not_mem_nil, or_false] at hkind
    rcases hkind with rfl | rfl <;> rfl

end Search
end LispXref
