import Tabular.Database
import Tabular.Proofs.Action

/-!
# Tables behind changes

Which table stands under which name behind a change of a database.  A change under one name leaves
the tables under all others.
-/

namespace Tabular

variable {entries : List (String × Table)} {name other : String} {t : Table}

/-! ## Entries -/

theorem lookup_entry (e : String × Table) (rest : List (String × Table)) :
    (e :: rest).lookup other = if other = e.1 then some e.2 else rest.lookup other := by
  rw [List.lookup_cons]
  by_cases same : other = e.1
  · rw [if_pos same, same, beq_self_eq_true]
  · have skip : (other == e.1) = false := by simpa using same
    rw [if_neg same, skip]

theorem lookup_insertEntry (new : entries.lookup name = none) :
    (insertEntry name t entries).lookup other =
      if other = name then some t else entries.lookup other := by
  induction entries with
  | nil =>
      rw [insertEntry, lookup_entry]
  | cons e rest ih =>
      rw [lookup_entry] at new
      by_cases first : name = e.1
      · simp [first] at new
      · rw [if_neg first] at new
        have later := ih new
        unfold insertEntry
        by_cases less : name < e.1
        · rw [if_pos less, lookup_entry]
        · rw [if_neg less, lookup_entry, lookup_entry, later]
          grind

theorem lookup_replaceEntry :
    (replaceEntry name t entries).lookup other =
      if other = name then (entries.lookup name).map fun _ => t else entries.lookup other := by
  induction entries with
  | nil => simp [replaceEntry]
  | cons e rest ih =>
      have step : replaceEntry name t (e :: rest) =
          (if e.1 = name then (name, t) else e) :: replaceEntry name t rest := rfl
      rw [step, lookup_entry, ih, lookup_entry, lookup_entry]
      by_cases first : e.1 = name <;> grind

theorem lookup_dropEntry :
    (entries.filter (·.1 != name)).lookup other =
      if other = name then none else entries.lookup other := by
  induction entries with
  | nil => simp
  | cons e rest ih =>
      by_cases first : e.1 = name
      · rw [List.filter_cons_of_neg (by simp [first]), ih, lookup_entry]
        grind
      · rw [List.filter_cons_of_pos (by simp [first]), lookup_entry, lookup_entry, ih]
        grind

theorem eq_of_mem_of_lookup {e : String × Table} (ordered : InNameOrder entries)
    (member : e ∈ entries) (found : entries.lookup e.1 = some t) : e.2 = t := by
  induction entries with
  | nil => cases member
  | cons f rest ih =>
      obtain ⟨first, ordered⟩ := List.pairwise_cons.mp ordered
      rw [lookup_entry] at found
      rcases List.mem_cons.mp member with rfl | later
      · simpa using found
      · have less := first e later
        have different : e.1 ≠ f.1 := by
          intro same
          rw [same] at less
          exact String.lt_irrefl _ less
        rw [if_neg different] at found
        exact ih ordered later found

/-! ## Databases -/

namespace Database

variable {db : Database}

theorem eq_of_entries_eq {db db' : Database} (h : db.entries = db'.entries) : db = db' := by
  cases db
  cases db'
  cases h
  rfl

@[simp] theorem table?_empty : empty.table? name = none := rfl

theorem table?_add {new : db.table? name = none} :
    (db.add name t new).table? other = if other = name then some t else db.table? other :=
  lookup_insertEntry new

theorem table?_replace :
    (db.replace name t).table? other =
      if other = name then (db.table? name).map fun _ => t else db.table? other :=
  lookup_replaceEntry

theorem table?_drop :
    (db.drop name).table? other = if other = name then none else db.table? other :=
  lookup_dropEntry

theorem replace_self (found : db.table? name = some t) : db.replace name t = db := by
  have same : ∀ e ∈ db.entries, (if e.1 = name then (name, t) else e) = id e := by
    intro e member
    by_cases here : e.1 = name
    · subst here
      rw [if_pos rfl, ← eq_of_mem_of_lookup db.ordered member found]
      rfl
    · rw [if_neg here]
      rfl
  apply eq_of_entries_eq
  exact (List.map_congr_left same).trans (List.map_id _)

theorem replace_replace (db : Database) (name : String) (t t' : Table) :
    (db.replace name t).replace name t' = db.replace name t' := by
  apply eq_of_entries_eq
  change replaceEntry name t' (replaceEntry name t db.entries) = replaceEntry name t' db.entries
  rw [replaceEntry, replaceEntry, List.map_map]
  refine List.map_congr_left fun e _ => ?_
  by_cases here : e.1 = name
  · simp [here]
  · simp [here]

theorem drop_missing (missing : db.table? name = none) : db.drop name = db := by
  apply eq_of_entries_eq
  unfold drop
  rw [List.filter_eq_self]
  intro e member
  have different := List.lookup_eq_none_iff.mp missing e member
  simp only [bne_iff_ne, ne_eq] at *
  exact Ne.symm different

/-! ## Runs of changes -/

variable {schema : Schema}

theorem run_createTable_of_some (found : db.table? name = some t) :
    (createTable name schema).run db = .error (.tableAlreadyExists name) db := by
  simp only [createTable, EStateM.run_bind, EStateM.run_get]
  split
  · rfl
  · rename_i missing
    rw [missing] at found
    cases found

theorem run_createTable_of_none (new : db.table? name = none) :
    (createTable name schema).run db = .ok () (db.add name (.empty name schema) new) := by
  simp only [createTable, EStateM.run_bind, EStateM.run_get]
  split
  · rename_i found
    rw [found] at new
    cases new
  · rfl

@[simp] theorem run_dropTable : (dropTable name).run db = .ok (db.table? name) (db.drop name) := rfl

theorem run_inTable_of_none {α : Type} {change : Table.Change α} (missing : db.table? name = none) :
    (inTable name change).run db = .error (.tableNotFound name) db := by
  simp only [EStateM.run, inTable, missing]

theorem run_inTable_of_some {α : Type} {change : Table.Change α} (found : db.table? name = some t) :
    (inTable name change).run db =
      match change.run t with
      | .ok a changed => .ok a (db.replace name changed)
      | .error e changed => .error e (db.replace name changed) := by
  cases result : change t with
  | ok a changed => simp only [EStateM.run, inTable, found, result]
  | error e changed => simp only [EStateM.run, inTable, found, result]

theorem stateAfter_inTable {α : Type} {change : Table.Change α} (found : db.table? name = some t) :
    stateAfter (inTable name change) db = db.replace name (stateAfter change t) := by
  unfold stateAfter
  rw [run_inTable_of_some found]
  cases change.run t <;> rfl

end Database

end Tabular
