import Mathlib.Data.List.Sort
import Tabular.Proofs.Storage.Effects

/-!
# Actions on one table

An action that looks at the table of one name, and changes no other, is independent of an action on
another name.  Databases are what their look-ups say, so two such actions can be exchanged.
-/

namespace Tabular

namespace Database

variable {db db' : Database} {name other : String}

/-! ## Databases and look-ups -/

theorem mem_entries_iff {e : String × Table} : e ∈ db.entries ↔ db.table? e.1 = some e.2 := by
  constructor
  · intro member
    cases found : db.table? e.1 with
    | none =>
        have different := List.lookup_eq_none_iff.mp found e member
        simp at different
    | some t => rw [eq_of_mem_of_lookup db.ordered member found]
  · intro found
    obtain ⟨front, back, split, -⟩ := List.lookup_eq_some_iff.mp found
    simp [split]

theorem eq_of_tables_eq (same : ∀ name, db.table? name = db'.table? name) : db = db' := by
  have irreflexive : Std.Irrefl fun e f : String × Table => e.1 < f.1 :=
    ⟨fun e => String.lt_irrefl e.1⟩
  have antisymmetric : Std.Antisymm fun e f : String × Table => e.1 < f.1 :=
    ⟨fun e f less more => (String.lt_irrefl e.1 (String.lt_trans less more)).elim⟩
  apply eq_of_entries_eq
  refine List.Pairwise.eq_of_mem_iff db.ordered db'.ordered fun e => ?_
  rw [mem_entries_iff, mem_entries_iff, same]

/-! ## Actions -/

variable {α β : Type}

/--
The action leaves all tables but the one of the name, and on that one alone depends what it answers
and what it leaves there.
-/
structure ActsOn (name : String) (action : Change α) : Prop where
  frame : ∀ db other, other ≠ name → (stateAfter action db).table? other = db.table? other
  answer : ∀ {db db' : Database}, db.table? name = db'.table? name →
    answerOf action db = answerOf action db'
  change : ∀ {db db' : Database}, db.table? name = db'.table? name →
    (stateAfter action db).table? name = (stateAfter action db').table? name

theorem actsOn_ofExcept (name : String) (x : Except Error α) :
    ActsOn name (ofExcept x : Change α) where
  frame db other _ := by rw [reads_ofExcept x db]
  answer _ := by rw [answerOf_ofExcept, answerOf_ofExcept]
  change {db db'} same := by rw [reads_ofExcept x db, reads_ofExcept x db', same]

theorem actsOn_look {g : Database → Except Error α}
    (only : ∀ {db db' : Database}, db.table? name = db'.table? name → g db = g db') :
    ActsOn name (do ofExcept (g (← get)) : Change α) := by
  have answer (db : Database) : answerOf (do ofExcept (g (← get)) : Change α) db = g db := by
    rw [answerOf_bind]
    exact answerOf_ofExcept (g db) db
  have state (db : Database) : stateAfter (do ofExcept (g (← get)) : Change α) db = db := by
    rw [stateAfter_bind_of_ok (rfl : answerOf get db = .ok db)]
    exact reads_ofExcept (g db) db
  refine ⟨fun db other _ => ?_, fun {db db'} same => ?_, fun {db db'} same => ?_⟩
  · rw [state]
  · rw [answer, answer, only same]
  · rw [state, state, same]

theorem ActsOn.bind {x : Change α} {f : α → Change β} (h : ActsOn name x)
    (h' : ∀ a, ActsOn name (f a)) : ActsOn name (x >>= f) where
  frame db other different := by
    cases first : answerOf x db with
    | ok a => rw [stateAfter_bind_of_ok first, (h' a).frame _ _ different, h.frame _ _ different]
    | error e => rw [stateAfter_bind_of_error first, h.frame _ _ different]
  answer {db db'} same := by
    rw [answerOf_bind, answerOf_bind, h.answer same]
    cases answerOf x db' with
    | ok a => exact (h' a).answer (h.change same)
    | error e => rfl
  change {db db'} same := by
    have answer := h.answer same
    cases first : answerOf x db with
    | ok a =>
        rw [stateAfter_bind_of_ok first, stateAfter_bind_of_ok (answer.symm.trans first)]
        exact (h' a).change (h.change same)
    | error e =>
        rw [stateAfter_bind_of_error first, stateAfter_bind_of_error (answer.symm.trans first)]
        exact h.change same

theorem actsOn_createTable (name : String) (schema : Schema) :
    ActsOn name (createTable name schema) where
  frame db other different := by
    by_cases new : db.table? name = none
    · rw [stateAfter, run_createTable_of_none new]
      exact table?_add.trans (if_neg different)
    · obtain ⟨t, found⟩ := Option.ne_none_iff_exists'.mp new
      rw [stateAfter, run_createTable_of_some found]
  answer {db db'} same := by
    by_cases new : db'.table? name = none
    · rw [answerOf, answerOf, run_createTable_of_none new,
        run_createTable_of_none (same.trans new)]
    · obtain ⟨t, found⟩ := Option.ne_none_iff_exists'.mp new
      rw [answerOf, answerOf, run_createTable_of_some found,
        run_createTable_of_some (same.trans found)]
  change {db db'} same := by
    by_cases new : db'.table? name = none
    · simp only [stateAfter, run_createTable_of_none new,
        run_createTable_of_none (same.trans new), table?_add, if_true]
    · obtain ⟨t, found⟩ := Option.ne_none_iff_exists'.mp new
      rw [stateAfter, stateAfter, run_createTable_of_some found,
        run_createTable_of_some (same.trans found)]
      exact same

theorem actsOn_dropTable (name : String) : ActsOn name (dropTable name) where
  frame db other different := by
    rw [stateAfter, run_dropTable]
    exact table?_drop.trans (if_neg different)
  answer same := by rw [answerOf, answerOf, run_dropTable, run_dropTable, same]
  change _ := by simp only [stateAfter, run_dropTable, table?_drop, if_true]

theorem actsOn_inTable (name : String) (change : Table.Change α) :
    ActsOn name (inTable name change) where
  frame db other different := by
    cases found : db.table? name with
    | none => rw [stateAfter, run_inTable_of_none found]
    | some t =>
        rw [stateAfter_inTable found]
        exact table?_replace.trans (if_neg different)
  answer {db db'} same := by
    cases found : db'.table? name with
    | none =>
        rw [answerOf, answerOf, run_inTable_of_none found, run_inTable_of_none (same.trans found)]
    | some t =>
        rw [answerOf, answerOf, run_inTable_of_some found, run_inTable_of_some (same.trans found)]
        cases change.run t <;> rfl
  change {db db'} same := by
    cases found : db'.table? name with
    | none =>
        rw [stateAfter, stateAfter, run_inTable_of_none found,
          run_inTable_of_none (same.trans found)]
        exact same
    | some t =>
        rw [stateAfter_inTable found, stateAfter_inTable (same.trans found), table?_replace,
          table?_replace, same]

/-! ## Exchange -/

theorem ActsOn.answerOf_behind {x : Change α} {y : Change β} (hx : ActsOn name x)
    (hy : ActsOn other y) (apart : name ≠ other) (db : Database) :
    answerOf x (stateAfter y db) = answerOf x db :=
  hx.answer (hy.frame db name apart)

/-- Behind both actions, in either order, the table of the first is what it alone makes of it. -/
theorem ActsOn.table?_behind {x : Change α} {y : Change β} (hx : ActsOn name x)
    (hy : ActsOn other y) (apart : name ≠ other) (db : Database) :
    (stateAfter x (stateAfter y db)).table? name = (stateAfter x db).table? name ∧
      (stateAfter y (stateAfter x db)).table? name = (stateAfter x db).table? name :=
  ⟨hx.change (hy.frame db name apart), hy.frame (stateAfter x db) name apart⟩

theorem ActsOn.comm {x : Change α} {y : Change β} (hx : ActsOn name x) (hy : ActsOn other y)
    (apart : name ≠ other) (db : Database) :
    stateAfter y (stateAfter x db) = stateAfter x (stateAfter y db) := by
  refine eq_of_tables_eq fun third => ?_
  obtain ⟨later, earlier⟩ := hx.table?_behind hy apart db
  obtain ⟨later', earlier'⟩ := hy.table?_behind hx apart.symm db
  by_cases first : third = name
  · rw [first, earlier, later]
  · by_cases second : third = other
    · rw [second, earlier', later']
    · rw [hy.frame _ _ second, hx.frame _ _ first, hx.frame _ _ first, hy.frame _ _ second]

end Database

end Tabular
