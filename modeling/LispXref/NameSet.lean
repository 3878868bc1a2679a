/-! Finite sets of names. A set is a strictly increasing list, so two sets with
the same members are the same value and listing one needs no sorting. -/
namespace LispXref

structure NameSet where
  toList : List String
  increasing : toList.Pairwise (· < ·)
  deriving DecidableEq, Repr

namespace NameSet

instance : Membership String NameSet := ⟨fun s name => name ∈ s.toList⟩

theorem mem_def {s : NameSet} {name : String} : name ∈ s ↔ name ∈ s.toList := Iff.rfl

instance (name : String) (s : NameSet) : Decidable (name ∈ s) :=
  inferInstanceAs (Decidable (name ∈ s.toList))

/-- Keeps one of each run of equal neighbours. -/
def squeeze : List String → List String
  | [] => []
  | [a] => [a]
  | a :: b :: rest => if a = b then squeeze (b :: rest) else a :: squeeze (b :: rest)

@[simp] theorem mem_squeeze {name : String} {names : List String} :
    name ∈ squeeze names ↔ name ∈ names := by
  fun_induction squeeze names with
  | case1 => simp
  | case2 => simp
  | case3 a rest ih => simp [ih]
  | case4 a b rest h ih => simp [ih]

theorem squeeze_increasing {names : List String} (h : names.Pairwise (· ≤ ·)) :
    (squeeze names).Pairwise (· < ·) := by
  fun_induction squeeze names with
  | case1 => simp
  | case2 => simp
  | case3 a rest ih => exact ih h.of_cons
  | case4 a b rest hab ih =>
    refine List.pairwise_cons.2 ⟨fun x hx => ?_, ih h.of_cons⟩
    have hb : a < b :=
      Std.lt_of_le_of_ne (List.rel_of_pairwise_cons h List.mem_cons_self) hab
    rcases List.mem_cons.1 (mem_squeeze.1 hx) with rfl | hx
    · exact hb
    · exact Std.lt_of_lt_of_le hb (List.rel_of_pairwise_cons h.of_cons hx)

def sort (names : List String) : List String := names.mergeSort (fun a b => decide (a ≤ b))

theorem sort_pairwise (names : List String) : (sort names).Pairwise (· ≤ ·) := by
  have h := @List.pairwise_mergeSort _ (fun a b : String => decide (a ≤ b))
    (fun a b c hab hbc => by simpa using Std.le_trans (by simpa using hab) (by simpa using hbc))
    (fun a b => by simpa using @Std.le_total _ _ _ a b) names
  exact h.imp (fun h => by simpa using h)

def ofList (names : List String) : NameSet :=
  ⟨squeeze (sort names), squeeze_increasing (sort_pairwise names)⟩

@[simp] theorem mem_ofList {name : String} {names : List String} :
    name ∈ ofList names ↔ name ∈ names := by
  simp [mem_def, ofList, sort]

def empty : NameSet := ⟨[], .nil⟩

instance : EmptyCollection NameSet := ⟨empty⟩
instance : Inhabited NameSet := ⟨empty⟩

@[simp] theorem not_mem_empty {name : String} : name ∉ (∅ : NameSet) := by
  intro h
  exact absurd h List.not_mem_nil

instance : Union NameSet := ⟨fun s t => ofList (s.toList ++ t.toList)⟩

@[simp] theorem mem_union {name : String} {s t : NameSet} :
    name ∈ s ∪ t ↔ name ∈ s ∨ name ∈ t := by
  change name ∈ ofList (s.toList ++ t.toList) ↔ _
  rw [mem_ofList]
  simp [mem_def]

def size (s : NameSet) : Nat := s.toList.length

end NameSet
end LispXref
