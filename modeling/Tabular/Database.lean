import Tabular.Table

/-!
# Databases

A database maps names to tables.  Its entries are kept in the order of their names, so there is one
list for each map, and two databases with the same tables are equal.  Databases change in place:
what has been changed before a failure stays changed.
-/

namespace Tabular

/-! ## Entries in the order of their names -/

def InNameOrder (entries : List (String × Table)) : Prop :=
  entries.Pairwise fun e f => e.1 < f.1

instance (entries : List (String × Table)) : Decidable (InNameOrder entries) :=
  inferInstanceAs (Decidable (entries.Pairwise _))

/-- Puts an entry before the first one that it precedes. -/
def insertEntry (name : String) (t : Table) : List (String × Table) → List (String × Table)
  | [] => [(name, t)]
  | e :: rest => if name < e.1 then (name, t) :: e :: rest else e :: insertEntry name t rest

theorem mem_insertEntry {name : String} {t : Table} {e : String × Table}
    {entries : List (String × Table)} :
    e ∈ insertEntry name t entries ↔ e = (name, t) ∨ e ∈ entries := by
  induction entries with
  | nil => simp [insertEntry]
  | cons f rest ih =>
      unfold insertEntry
      split
      · simp
      · simp only [List.mem_cons, ih]
        constructor
        · rintro (h | h | h) <;> simp [h]
        · rintro (h | h | h) <;> simp [h]

theorem inNameOrder_insertEntry {name : String} {t : Table} {entries : List (String × Table)}
    (h : InNameOrder entries) (new : entries.lookup name = none) :
    InNameOrder (insertEntry name t entries) := by
  induction entries with
  | nil => exact List.pairwise_singleton _ _
  | cons f rest ih =>
      obtain ⟨first, ordered⟩ := List.pairwise_cons.mp h
      obtain ⟨ne, new⟩ : name ≠ f.1 ∧ rest.lookup name = none := by
        rw [List.lookup_cons] at new
        split at new
        · contradiction
        · rename_i other
          exact ⟨by simpa using other, new⟩
      unfold insertEntry
      split
      · rename_i lt
        refine List.pairwise_cons.mpr ⟨fun e he => ?_, h⟩
        rcases List.mem_cons.mp he with rfl | he
        · exact lt
        · exact String.lt_trans lt (first e he)
      · rename_i notLt
        refine List.pairwise_cons.mpr ⟨fun e he => ?_, ih ordered new⟩
        rcases mem_insertEntry.mp he with rfl | he
        · change f.1 < name
          grind
        · exact first e he

def replaceEntry (name : String) (t : Table) (entries : List (String × Table)) :
    List (String × Table) :=
  entries.map fun e => if e.1 = name then (name, t) else e

theorem inNameOrder_replaceEntry {entries : List (String × Table)} (h : InNameOrder entries)
    (name : String) (t : Table) : InNameOrder (replaceEntry name t entries) := by
  have name_eq (e : String × Table) : (if e.1 = name then (name, t) else e).1 = e.1 := by
    split
    · rename_i same
      exact same.symm
    · rfl
  refine List.pairwise_map.mpr (h.imp fun {e f} lt => ?_)
  simpa only [name_eq] using lt

/-! ## Databases -/

structure Database where
  entries : List (String × Table)
  ordered : InNameOrder entries
  deriving DecidableEq

namespace Database

def empty : Database :=
  ⟨[], List.Pairwise.nil⟩

def tables (db : Database) : List Table :=
  db.entries.map Prod.snd

def tableNames (db : Database) : List String :=
  db.entries.map Prod.fst

def table? (db : Database) (name : String) : Option Table :=
  db.entries.lookup name

def table (db : Database) (name : String) : Except Error Table :=
  match db.table? name with
  | some t => .ok t
  | none => .error (.tableNotFound name)

def contains (db : Database) (name : String) : Bool :=
  (db.table? name).isSome

def add (db : Database) (name : String) (t : Table) (new : db.table? name = none) : Database :=
  ⟨insertEntry name t db.entries, inNameOrder_insertEntry db.ordered new⟩

def replace (db : Database) (name : String) (t : Table) : Database :=
  ⟨replaceEntry name t db.entries, inNameOrder_replaceEntry db.ordered name t⟩

def drop (db : Database) (name : String) : Database :=
  ⟨db.entries.filter (·.1 != name), db.ordered.filter _⟩

/-! ## Changes -/

abbrev Change := EStateM Error Database

/-- Adds an empty table; a name is taken once. -/
def createTable (name : String) (schema : Schema) : Change Unit := do
  let db ← get
  match h : db.table? name with
  | some _ => throw (.tableAlreadyExists name)
  | none => set (db.add name (.empty name schema) h)

def dropTable (name : String) : Change (Option Table) := do
  let db ← get
  set (db.drop name)
  return db.table? name

def inTable (name : String) (change : Table.Change α) : Change α := fun db =>
  match db.table? name with
  | none => .error (.tableNotFound name) db
  | some t =>
      match change.run t with
      | .ok a changed => .ok a (db.replace name changed)
      | .error e changed => .error e (db.replace name changed)

def create (db : Database) (name : String) (schema : Schema) : Except Error Database :=
  stateBehind (createTable name schema) db

def insertRows (db : Database) (name : String) (rows : List Row) : Except Error Database :=
  stateBehind (inTable name (Table.addRows rows)) db

end Database

end Tabular
