import Tabular.Proofs.Storage.ColumnLists

/-!
# Names in turn

Names are read from the front, and the names before it tell whether there is something wrong with
one.  The index of a schema refuses a name that it has already; a column list refuses a name that is
listed already, and one that the schema does not have.  Either stops at the first name that it
refuses and takes every list without one, and then each name has the position of its column.
-/

namespace Tabular

theorem exists_forall₂_iff {α β : Type} {R : α → β → Prop} {l : List α} :
    (∃ bs, List.Forall₂ R l bs) ↔ ∀ a ∈ l, ∃ b, R a b := by
  induction l with
  | nil => simp
  | cons a l ih =>
      rw [List.forall_mem_cons, ← ih]
      constructor
      · rintro ⟨_, _ | ⟨first, rest⟩⟩
        exact ⟨⟨_, first⟩, _, rest⟩
      · rintro ⟨⟨b, first⟩, bs, rest⟩
        exact ⟨b :: bs, .cons first rest⟩

/-! ## The first fault -/

/-- The first name that something is wrong with, given the names before it. -/
def FirstFault (wrong : List String → String → Error → Prop) (names : List String) (e : Error) :
    Prop :=
  ∃ i name, names[i]? = some name ∧ wrong (names.take i) name e ∧
    ∀ j < i, ∀ other, names[j]? = some other → ∀ e', ¬ wrong (names.take j) other e'

variable {wrong : List String → String → Error → Prop} {name : String} {names before : List String}
  {e : Error}

theorem not_firstFault_nil : ¬ FirstFault wrong [] e := by
  rintro ⟨i, name, ⟨⟩, -⟩

theorem firstFault_cons :
    FirstFault wrong (name :: names) e ↔
      wrong [] name e ∨ (∀ e', ¬ wrong [] name e') ∧
        FirstFault (fun before => wrong (name :: before)) names e := by
  constructor
  · rintro ⟨i, other, here, fault, earlier⟩
    cases i with
    | zero =>
        cases here
        exact .inl fault
    | succ i =>
        refine .inr ⟨earlier 0 (Nat.succ_pos i) name rfl, i, other, here, fault, ?_⟩
        exact fun j less => earlier (j + 1) (Nat.succ_lt_succ less)
  · rintro (fault | ⟨right, i, other, here, fault, earlier⟩)
    · exact ⟨0, name, rfl, fault, nofun⟩
    · refine ⟨i + 1, other, here, fault, fun j less => ?_⟩
      cases j with
      | zero =>
          rintro _ ⟨⟩
          exact right
      | succ j => exact earlier j (Nat.lt_of_succ_lt_succ less)

theorem exists_firstFault_iff :
    (∃ e, FirstFault wrong names e) ↔
      ∃ i name, names[i]? = some name ∧ ∃ e, wrong (names.take i) name e := by
  classical
  constructor
  · rintro ⟨e, i, name, here, fault, -⟩
    exact ⟨i, name, here, e, fault⟩
  · intro faulty
    obtain ⟨name, here, e, fault⟩ := Nat.find_spec faulty
    refine ⟨e, Nat.find faulty, name, here, fault, fun j less other there e' fault' => ?_⟩
    exact Nat.find_min faulty less ⟨other, there, e', fault'⟩

/-! ## What is wrong with a name -/

/-- The name stands among those before it. -/
def Repeated (before : List String) (name : String) (e : Error) : Prop :=
  name ∈ before ∧ e = .duplicateColumn name

/-- The name cannot be resolved: it has been resolved before, or no column has it. -/
def Unresolved (s : Schema) (before : List String) (name : String) (e : Error) : Prop :=
  Repeated before name e ∨ name ∉ before ∧ name ∉ s.columnNames ∧ e = .columnNotFound name

theorem mem_take_iff {i : Nat} : name ∈ names.take i ↔ ∃ j < i, names[j]? = some name := by
  simp only [List.mem_iff_getElem?, List.getElem?_take]
  grind

theorem exists_repeated_iff :
    (∃ e, FirstFault Repeated names e) ↔
      ∃ (i j : Nat) (name : String), i < j ∧ names[i]? = some name ∧ names[j]? = some name := by
  simp only [exists_firstFault_iff, Repeated, mem_take_iff]
  constructor
  · rintro ⟨j, name, here, _, ⟨i, less, there⟩, rfl⟩
    exact ⟨i, j, name, less, there, here⟩
  · rintro ⟨i, j, name, less, there, here⟩
    exact ⟨j, name, here, _, ⟨i, less, there⟩, rfl⟩

/-! ## Schemas -/

namespace NameIndex

variable {index : NameIndex}

theorem enter_eq_error_iff (exact : index.Exact before) (length : index.length = before.length) :
    index.enter names = .error e ↔
      FirstFault (fun front => Repeated (before ++ front)) names e := by
  -- The names before grow with the index, which stays exact for them.
  induction names generalizing index before with
  | nil => simp [enter, not_firstFault_nil]
  | cons name names ih =>
      rw [enter, firstFault_cons, List.append_nil]
      cases found : index.lookup name with
      | some i =>
          have listed : name ∈ before := List.mem_of_getElem? ((exact name i).mp found)
          simp [Repeated, listed, eq_comm]
      | none =>
          have new : name ∉ before := by
            intro listed
            obtain ⟨i, here⟩ := List.mem_iff_getElem?.mp listed
            cases found.symm.trans ((exact name i).mpr here)
          have others := ih (exact.cons length found) (by simp [length])
          simp only [List.append_assoc, List.singleton_append] at others
          simp [Repeated, new, others]

end NameIndex

namespace Schema

variable {s : Schema} {columns : List Column}

theorem ofColumns_eq_error_iff :
    ofColumns columns = .error e ↔ FirstFault Repeated (columns.map Column.name) e := by
  have entered : NameIndex.enter [] (columns.map Column.name) = .error e ↔
      FirstFault Repeated (columns.map Column.name) e :=
    NameIndex.enter_eq_error_iff NameIndex.exact_nil rfl
  rw [← entered, ofColumns]
  split
  · rename_i fault
    rw [fault]
    simp
  · rename_i positions done
    simp [done]

/-! ## Column lists -/

variable {seen : List String}

theorem not_unresolved_iff :
    (∀ e, ¬ Unresolved s before name e) ↔ name ∉ before ∧ name ∈ s.columnNames := by
  by_cases listed : name ∈ before <;> simp [Unresolved, Repeated, listed]

theorem positionsOf_cons_of_mem (listed : name ∈ seen) :
    s.positionsOf seen (name :: names) = .error (.duplicateColumn name) := by
  rw [positionsOf, if_pos listed]
  rfl

theorem positionsOf_cons_eq_error_iff (new : name ∉ seen) :
    s.positionsOf seen (name :: names) = .error e ↔
      s.index name = .error e ∨
        (∃ i, s.index name = .ok i) ∧ s.positionsOf (name :: seen) names = .error e := by
  rw [positionsOf, if_neg new]
  simp [bind_eq_error_iff, pure, Except.pure]

theorem positionsOf_eq_error_iff (same : ∀ name, name ∈ seen ↔ name ∈ before) :
    s.positionsOf seen names = .error e ↔
      FirstFault (fun front => Unresolved s (before ++ front)) names e := by
  induction names generalizing seen before with
  | nil => simp [positionsOf, not_firstFault_nil]
  | cons name names ih =>
      rw [firstFault_cons, List.append_nil, not_unresolved_iff, ← same name]
      by_cases listed : name ∈ seen
      · rw [positionsOf_cons_of_mem listed]
        simp [Unresolved, Repeated, ← same name, listed, eq_comm]
      · have others := @ih (before ++ [name]) (name :: seen) (by simp [same, or_comm])
        simp only [List.append_assoc, List.singleton_append] at others
        rw [positionsOf_cons_eq_error_iff listed, index_eq_error_iff, exists_index_iff, others]
        simp [Unresolved, Repeated, ← same name, listed]

end Schema

/--
Columns make a schema unless two of them share a name, and then the first name is refused that
stands among those before it.  The schema finds each name at the position of its column, and no
other name.  A list of names is resolved if they are distinct names of columns, each to the position
of its column; or else its first name is refused that stands among those before it, or that no
column has.
-/
theorem names_are_resolved_exactly (columns : List Column) :
    ((∃ e, Schema.ofColumns columns = .error e) ↔
      ∃ (i j : Nat) (c c' : Column), i < j ∧ columns[i]? = some c ∧ columns[j]? = some c' ∧
        c.name = c'.name) ∧
    (∀ e, Schema.ofColumns columns = .error e ↔
      FirstFault Repeated (columns.map Column.name) e) ∧
    ∀ s, Schema.ofColumns columns = .ok s →
      s.columns = columns ∧
      (∀ name i, s.index name = .ok i ↔ ∃ c, columns[i]? = some c ∧ c.name = name) ∧
      (∀ name e, s.index name = .error e ↔
        (∀ c ∈ columns, c.name ≠ name) ∧ e = .columnNotFound name) ∧
      ∀ names,
        (∀ positions, s.positionsOf [] names = .ok positions ↔
          names.Nodup ∧ List.Forall₂ (fun name i => ∃ c, columns[i]? = some c ∧ c.name = name)
            names positions) ∧
        ((∃ positions, s.positionsOf [] names = .ok positions) ↔
          names.Nodup ∧ ∀ name ∈ names, ∃ c ∈ columns, c.name = name) ∧
        ∀ e, s.positionsOf [] names = .error e ↔ FirstFault (Unresolved s) names e := by
  have named {name : String} {i : Nat} : (columns.map Column.name)[i]? = some name ↔
      ∃ c, columns[i]? = some c ∧ c.name = name := by
    rw [List.getElem?_map, Option.map_eq_some_iff]
  refine ⟨?_, fun e => Schema.ofColumns_eq_error_iff, fun s made => ?_⟩
  · simp only [Schema.ofColumns_eq_error_iff, exists_repeated_iff, named]
    constructor
    · rintro ⟨i, j, name, less, ⟨c, here, rfl⟩, c', there, same⟩
      exact ⟨i, j, c, c', less, here, there, same.symm⟩
    · rintro ⟨i, j, c, c', less, here, there, same⟩
      exact ⟨i, j, c.name, less, ⟨c, here, rfl⟩, c', there, same.symm⟩
  · obtain rfl := Schema.columns_ofColumns made
    have index {name : String} {i : Nat} : s.index name = .ok i ↔
        ∃ c, s.columns[i]? = some c ∧ c.name = name := Schema.index_eq_ok_iff.trans named
    have listed {name : String} : name ∈ s.columnNames ↔ ∃ c ∈ s.columns, c.name = name :=
      List.mem_map
    refine ⟨rfl, fun name i => index, fun name e => ?_, fun names => ⟨fun positions => ?_, ?_, ?_⟩⟩
    · rw [Schema.index_eq_error_iff, listed]
      simp
    · simp [Schema.positionsOf_eq_ok_iff, index]
    · simp only [Schema.positionsOf_eq_ok_iff, exists_and_left, exists_forall₂_iff,
        Schema.exists_index_iff, listed]
      simp
    · exact fun e => Schema.positionsOf_eq_error_iff fun _ => Iff.rfl

/-- A name of a column, one of none and the first again: the second one is refused. -/
theorem names_are_resolved_exactly_pair :
    ∃ s, Schema.ofColumns [.plain "a" .integer, .plain "b" .text] = .ok s ∧
      s.positionsOf [] ["b", "a"] = .ok [1, 0] ∧
      s.positionsOf [] ["b", "c", "b"] = .error (.columnNotFound "c") ∧
      FirstFault (Unresolved s) ["b", "c", "b"] (.columnNotFound "c") := by
  have computed : (Schema.ofColumns [.plain "a" .integer, .plain "b" .text]).toOption.map (fun s =>
      ((s.positionsOf [] ["b", "a"]).toOption, s.positionsOf [] ["b", "c", "b"])) =
      some (some [1, 0], .error (.columnNotFound "c")) := rfl
  obtain ⟨s, made, answers⟩ := Option.map_eq_some_iff.mp computed
  obtain ⟨resolved, refused⟩ := Prod.mk.inj answers
  have made := eq_ok_of_toOption made
  obtain ⟨-, -, -, lists⟩ := (names_are_resolved_exactly _).2.2 s made
  exact ⟨s, made, eq_ok_of_toOption resolved, refused, ((lists _).2.2 _).mp refused⟩

end Tabular
