import Tabular.Error

/-!
# Columns and schemas

A schema is a list of columns with an index of their names.  The index gives every name the position
of its column, which is the position of its value in every row, so no two columns share a name.
-/

namespace Tabular

structure Column where
  name : String
  dataType : DataType
  nullable : Bool
  /-- Recorded only; it does not make values unique. -/
  primaryKey : Bool
  deriving DecidableEq

def Column.plain (name : String) (dataType : DataType) : Column :=
  ⟨name, dataType, true, false⟩

/-! ## Indexes of names -/

abbrev NameIndex := List (String × Nat)

namespace NameIndex

/--
Enters names in turn, each at the next position.  A name that has been entered before is
refused.
-/
def enter (index : NameIndex) : List String → Except Error NameIndex
  | [] => .ok index
  | name :: names =>
      match index.lookup name with
      | some _ => .error (.duplicateColumn name)
      | none => enter ((name, index.length) :: index) names

/-- The index finds each of the names at its position, and no other names. -/
def Exact (index : NameIndex) (names : List String) : Prop :=
  ∀ name i, index.lookup name = some i ↔ names[i]? = some name

theorem exact_nil : Exact [] [] := by
  simp [Exact]

theorem Exact.cons {index : NameIndex} {names : List String} {name : String}
    (exact : index.Exact names) (length : index.length = names.length)
    (new : index.lookup name = none) :
    Exact ((name, index.length) :: index) (names ++ [name]) := by
  intro other i
  by_cases same : other = name
  · subst same
    have missing : names[i]? ≠ some other := by
      rw [ne_eq, ← exact, new]
      simp
    simp only [List.lookup_cons_self, Option.some.injEq, length]
    by_cases last : i = names.length
    · simp [last]
    · by_cases inside : i < names.length
      · rw [List.getElem?_append_left inside]
        simp [missing, Ne.symm last]
      · rw [List.getElem?_eq_none (by simp; omega)]
        simp [Ne.symm last]
  · have skip : (other == name) = false := by simpa using same
    rw [List.lookup_cons, skip]
    change index.lookup other = some i ↔ _
    rw [exact other i]
    by_cases inside : i < names.length
    · rw [List.getElem?_append_left inside]
    · rw [List.getElem?_append_right (by omega), List.getElem?_eq_none (by omega)]
      cases i - names.length <;> simp [Ne.symm same]

theorem exact_enter {index final : NameIndex} {before names : List String}
    (exact : index.Exact before) (length : index.length = before.length)
    (entered : index.enter names = .ok final) : final.Exact (before ++ names) := by
  induction names generalizing index before with
  | nil =>
      cases entered
      simpa using exact
  | cons name names ih =>
      unfold enter at entered
      cases found : index.lookup name with
      | some i => simp [found] at entered
      | none =>
          simp only [found] at entered
          have step := ih (exact.cons length found) (by simp [length]) entered
          simpa using step

theorem Exact.nodup {index : NameIndex} {names : List String} (exact : index.Exact names) :
    names.Nodup := by
  rw [List.Nodup, List.pairwise_iff_getElem]
  intro i j hi hj less same
  have first := (exact names[i] i).mpr (List.getElem?_eq_getElem hi)
  have second := (exact names[i] j).mpr (by rw [List.getElem?_eq_getElem hj, same])
  rw [first, Option.some.injEq] at second
  omega

end NameIndex

/-! ## Schemas -/

structure Schema where
  columns : List Column
  positions : NameIndex
  exact : positions.Exact (columns.map Column.name)
  deriving DecidableEq

namespace Schema

/-- The schema with these columns; a name that occurred before is refused. -/
def ofColumns (columns : List Column) : Except Error Schema :=
  match h : NameIndex.enter [] (columns.map Column.name) with
  | .error e => .error e
  | .ok positions =>
      .ok ⟨columns, positions, NameIndex.exact_enter NameIndex.exact_nil rfl h⟩

theorem columns_ofColumns {columns : List Column} {s : Schema} (built : ofColumns columns = .ok s) :
    s.columns = columns := by
  unfold ofColumns at built
  split at built
  · cases built
  · cases built
    rfl

def columnNames (s : Schema) : List String :=
  s.columns.map Column.name

def width (s : Schema) : Nat :=
  s.columns.length

def index (s : Schema) (name : String) : Except Error Nat :=
  match s.positions.lookup name with
  | some i => .ok i
  | none => .error (.columnNotFound name)

theorem nodup_columnNames (s : Schema) : s.columnNames.Nodup :=
  s.exact.nodup

theorem index_eq_ok_iff {s : Schema} {name : String} {i : Nat} :
    s.index name = .ok i ↔ s.columnNames[i]? = some name := by
  rw [columnNames, ← s.exact name i]
  unfold index
  cases s.positions.lookup name <;> simp

theorem exists_index_iff {s : Schema} {name : String} :
    (∃ i, s.index name = .ok i) ↔ name ∈ s.columnNames := by
  simp only [index_eq_ok_iff, List.mem_iff_getElem?]

theorem index_eq_error_iff {s : Schema} {name : String} {e : Error} :
    s.index name = .error e ↔ name ∉ s.columnNames ∧ e = .columnNotFound name := by
  rw [← exists_index_iff]
  unfold index
  cases s.positions.lookup name <;> simp [eq_comm]

end Schema

end Tabular
