import Mathlib.Data.List.Forall2
import Tabular.Proofs.Expr.Typing
import Tabular.Proofs.Query.Interpretation

/-!
# Stars

A star stands for the columns of the table, in the order of its schema.  It gives the stored row and
the names of the schema as they are, where the columns are looked up one by one.  The two agree on
rows that fit the schema, wherever the star stands and however the columns are qualified.
-/

namespace Tabular

/-! ## Entries in place of a star -/

namespace SelectItem

/-- The entry is a column without a title, by its name alone or qualified by the table. -/
def RefersTo (table : String) (item : SelectItem) (name : String) : Prop :=
  ∃ qualifier, (∀ q, qualifier = some q → q = table) ∧ item = .expr (.column qualifier name) none

/-- What an entry may be replaced by: itself, or, if it is a star, the columns of these names. -/
inductive Spells (table : String) (names : List String) : SelectItem → List SelectItem → Prop where
  | itself (item : SelectItem) : Spells table names item [item]
  | columns {entries : List SelectItem} :
      List.Forall₂ (RefersTo table) entries names → Spells table names .all entries

end SelectItem

variable {t : Table} {row : Row} {rows : List Row} {item : SelectItem}
  {items items' entries part : List SelectItem}

/-! ## Names -/

theorem flatMap_names_of_columns {table : String} {names : List String} {s : Schema}
    (columns : List.Forall₂ (SelectItem.RefersTo table) entries names) :
    entries.flatMap (·.names s) = names := by
  induction columns with
  | nil => rfl
  | cons refers _ ih =>
      obtain ⟨qualifier, -, rfl⟩ := refers
      rw [List.flatMap_cons, ih]
      rfl

theorem SelectItem.Spells.flatMap_names {table : String} {s : Schema}
    (spells : Spells table s.columnNames item part) : part.flatMap (·.names s) = item.names s := by
  cases spells with
  | itself => exact List.flatMap_singleton ..
  | columns all => exact flatMap_names_of_columns all

/-! ## Rows -/

theorem projectRow_append (t : Table) (row : Row) (items items' : List SelectItem) :
    projectRow t row (items ++ items') = do
      let first ← projectRow t row items
      let others ← projectRow t row items'
      return first ++ others :=
  traversal_append (projectRow t row) rfl (fun _ _ => rfl)
    (fun _ _ _ _ => (List.append_assoc ..).symm) items items'

theorem projectRow_of_values {values : List Value}
    (each : List.Forall₂ (fun item v => item.values t row = .ok [v]) entries values) :
    projectRow t row entries = .ok values := by
  induction each with
  | nil => rfl
  | cons first _ ih =>
      rw [projectRow, first, ih]
      rfl

theorem projectRow_of_columns (fits : t.schema.Admits row)
    (columns : List.Forall₂ (SelectItem.RefersTo t.name) entries t.schema.columnNames) :
    projectRow t row entries = .ok row := by
  have width : t.schema.columnNames.length = row.length := by
    rw [fits.1, Schema.columnNames, List.length_map, Schema.width]
  refine projectRow_of_values (List.forall₂_iff_get.mpr ⟨?_, fun i inside inside' => ?_⟩)
  · exact columns.length_eq.trans width
  · have listed : i < t.schema.columnNames.length := width ▸ inside'
    obtain ⟨qualifier, own, refers⟩ := columns.get inside listed
    have value := Table.value_of_named (List.getElem?_eq_getElem listed)
      (List.getElem?_eq_getElem inside') own
    rw [refers, SelectItem.values, Expr.evalRow, Expr.eval, List.get_eq_getElem,
      List.get_eq_getElem, value]
    rfl

theorem SelectItem.Spells.projectRow (fits : t.schema.Admits row)
    (spells : Spells t.name t.schema.columnNames item part) :
    projectRow t row part = item.values t row := by
  cases spells with
  | itself =>
      rw [Tabular.projectRow, Tabular.projectRow]
      cases item.values t row with
      | error e => rfl
      | ok values => exact congrArg Except.ok (List.append_nil values)
  | columns all => exact projectRow_of_columns fits all

/-! ## Lists of entries -/

theorem flatMap_names_of_spelled {table : String} {s : Schema}
    (spelled : Joins (SelectItem.Spells table s.columnNames) items items') :
    items'.flatMap (·.names s) = items.flatMap (·.names s) := by
  obtain ⟨parts, all, rfl⟩ := spelled
  induction all with
  | nil => rfl
  | cons spells _ ih =>
      rw [List.flatten_cons, List.flatMap_append, List.flatMap_cons, spells.flatMap_names, ih]

theorem projectRow_of_spelled (fits : t.schema.Admits row)
    (spelled : Joins (SelectItem.Spells t.name t.schema.columnNames) items items') :
    projectRow t row items' = projectRow t row items := by
  obtain ⟨parts, all, rfl⟩ := spelled
  induction all with
  | nil => rfl
  | cons spells _ ih =>
      rw [List.flatten_cons, projectRow_append, spells.projectRow fits, ih, projectRow]

theorem projectRows_congr
    (same : ∀ row ∈ rows, projectRow t row items' = projectRow t row items) :
    projectRows t items' rows = projectRows t items rows := by
  induction rows with
  | nil => rfl
  | cons row rows ih =>
      obtain ⟨first, others⟩ := List.forall_mem_cons.mp same
      rw [projectRows, projectRows, first, ih others]

/-! ## Queries -/

/--
A query answers the same, or fails alike, if stars in it are replaced by the columns of the table,
each by its name alone or qualified by the table.
-/
theorem stars_stand_for_columns {db : Database} (query : Select) {t : Table}
    {items : List SelectItem} (reachable : db.Reachable)
    (found : db.table? query.source = some t)
    (spelled : Joins (SelectItem.Spells query.source t.schema.columnNames) query.items items) :
    Select.execute { query with items } none db = query.execute none db := by
  obtain ⟨name, wellFormed⟩ := reachable.wellFormed query.source t found
  have sorted_eq : Select.sorted { query with items } t = query.sorted t := rfl
  rw [execute_eq_sorted { query with items } found, execute_eq_sorted query found, sorted_eq,
    flatMap_names_of_spelled spelled]
  cases sorted : query.sorted t with
  | error e => rfl
  | ok rows =>
      -- Only rows that fit the schema have its columns, and those that are shown are stored ones.
      have stored (row : Row) (member : row ∈ query.first rows) : row ∈ t.rows :=
        (Select.sorted_subperm sorted).subset ((query.first_sublist rows).subset member)
      have shown : projectRows t items (query.first rows) =
          projectRows t query.items (query.first rows) := by
        refine projectRows_congr fun row member => ?_
        exact projectRow_of_spelled (wellFormed.fitting row (stored row member)) (name ▸ spelled)
      change (projectRows t items (query.first rows)).map _ = _
      rw [shown]
      rfl

/-- One of two stars as a plain and a qualified column, between them a column with a title. -/
theorem stars_stand_for_columns_mixed :
    let db := Database.empty.behind
      [.createTable "t" [.plain "a" .integer, .plain "b" .text],
        .insertRows "t" [[.null, .text "x"], [.integer 1, .null]]]
    let column (qualifier : Option String) (name : String) : SelectItem :=
      .expr (.column qualifier name) none
    let titled := SelectItem.expr (.column none "b") (some "c")
    let run (items : List SelectItem) : Except Error QueryResult :=
      (Select.mk items "t" none ["a"] .descending none).execute none db
    run [column none "a", column (some "t") "b", titled, .all] = run [.all, titled, .all] ∧
      run [.all, titled, .all] = .ok ⟨["a", "b", "c", "a", "b"],
        [[.integer 1, .null, .null, .integer 1, .null],
          [.null, .text "x", .text "x", .null, .text "x"]], 0⟩ := by
  intro db column titled run
  have computed : (db.table? "t").map (·.schema.columnNames) = some ["a", "b"] := by decide +kernel
  have answered : run [.all, titled, .all] = .ok ⟨["a", "b", "c", "a", "b"],
      [[.integer 1, .null, .null, .integer 1, .null],
        [.null, .text "x", .text "x", .null, .text "x"]], 0⟩ := by
    simp only [run]
    cbv
  obtain ⟨t, found, names⟩ := Option.map_eq_some_iff.mp computed
  have columns :
      SelectItem.Spells "t" ["a", "b"] .all [column none "a", column (some "t") "b"] := by
    refine .columns (.cons ⟨none, ?_, rfl⟩ (.cons ⟨some "t", ?_, rfl⟩ .nil))
    · rintro _ ⟨⟩
    · rintro _ ⟨⟩
      rfl
  have spelled : Joins (SelectItem.Spells "t" t.schema.columnNames) [.all, titled, .all]
      [column none "a", column (some "t") "b", titled, .all] :=
    ⟨_, .cons (names ▸ columns) (.cons (.itself titled) (.cons (.itself .all) .nil)), rfl⟩
  have same := stars_stand_for_columns ⟨[.all, titled, .all], "t", none, ["a"], .descending, none⟩
    (.calls _) found spelled
  exact ⟨same, answered⟩

end Tabular
