import Tabular.Proofs.Expr.Typing
import Tabular.Proofs.Query.Interpretation
import Tabular.Proofs.Storage.ColumnLists

/-!
# Rows in bounds

The plan of a query projects last.  Every step below hands on rows of the table as they are stored,
and stored rows have a value for each column.  So whatever a step looks up in a row is there, and
the rows of a result are as wide as its list of columns.
-/

namespace Tabular

/-! ## Comparisons within rows -/

/-- The order of two rows by the values at some positions, where both have what decides it. -/
def compareAt? : List Nat → Row → Row → Option Ordering
  | [], _, _ => some .eq
  | i :: positions, v, w => do
      match compare (← v[i]?) (← w[i]?) with
      | .eq => compareAt? positions v w
      | o => return o

theorem compareAt?_of_inside {positions : List Nat} {v w : Row}
    (inside : ∀ i ∈ positions, i < v.length ∧ i < w.length) :
    compareAt? positions v w = some (compareAt positions v w) := by
  induction positions with
  | nil => rfl
  | cons i positions ih =>
      obtain ⟨⟨first, second⟩, others⟩ := List.forall_mem_cons.mp inside
      rw [compareAt?, compareAt, ih others, List.getElem?_eq_getElem first,
        List.getElem?_eq_getElem second, List.getD_eq_getElem _ _ first,
        List.getD_eq_getElem _ _ second]
      change (match compare v[i] w[i] with
        | .eq => some (compareAt positions v w)
        | o => some o) = _
      cases compare v[i] w[i] <;> rfl

/-! ## Lookups within rows -/

variable {t : Table} {row : Row} {rows : List Row}

theorem Schema.lt_width_of_index {s : Schema} {name : String} {i : Nat}
    (found : s.index name = .ok i) : i < s.width := by
  have named := List.getElem?_eq_some_iff.mp (Schema.index_eq_ok_iff.mp found)
  simpa [Schema.columnNames, Schema.width] using named.1

/-- In a row with a value for each column, a lookup fails only for its names. -/
theorem Table.exists_value_iff (width : row.length = t.schema.width) {qualifier : Option String}
    {name : String} :
    (∃ v, t.value row qualifier name = .ok v) ↔
      (∀ q, qualifier = some q → q = t.name) ∧ name ∈ t.schema.columnNames := by
  have unqualified : (∃ v, Table.value.unqualified t row name = .ok v) ↔
      name ∈ t.schema.columnNames := by
    rw [← Schema.exists_index_iff]
    constructor
    · rintro ⟨v, value⟩
      obtain ⟨i, found, -⟩ := bind_eq_ok_iff.mp value
      exact ⟨i, found⟩
    · rintro ⟨i, found⟩
      have inside : i < row.length := width ▸ Schema.lt_width_of_index found
      refine ⟨row[i], bind_eq_ok_iff.mpr ⟨i, found, ?_⟩⟩
      rw [List.getElem?_eq_getElem inside]
  cases qualifier with
  | none => simpa [Table.value] using unqualified
  | some q =>
      by_cases own : q = t.name
      · simpa [Table.value, own] using unqualified
      · simp [Table.value, own]

theorem Table.mem_of_scan {filter : Option Expr} (scanned : t.scan filter = .ok rows)
    (member : row ∈ rows) : row ∈ t.rows := by
  cases filter with
  | none =>
      cases scanned
      exact member
  | some condition =>
      obtain ⟨-, rfl⟩ := keepTrue_eq_ok_iff.mp scanned
      exact List.mem_of_mem_filter member

/-! ## Steps of a plan -/

namespace Plan

def input? : Plan → Option Plan
  | scan _ _ => none
  | sort input _ _ | limit input _ | project input _ => some input

/-- The step is the last one of the plan, or stands below it. -/
inductive Within (step : Plan) : Plan → Prop where
  | last : Within step step
  | deeper {plan input : Plan} : plan.input? = some input → Within step input → Within step plan

/-- The rows that a step works on: those of the table, or what the step below gives. -/
def handed (t : Table) (step : Plan) : Except Error (List Row) :=
  match step.input? with
  | none => .ok t.rows
  | some input => (input.run t).map (·.rows)

inductive IsWhole : Plan → Prop where
  | scan {table : String} {filter : Option Expr} : IsWhole (scan table filter)
  | sort {input : Plan} {columns : List String} {direction : Direction} :
      IsWhole input → IsWhole (sort input columns direction)
  | limit {input : Plan} {count : UInt64} : IsWhole input → IsWhole (limit input count)

variable {plan step input : Plan} {result : QueryResult}

theorem IsWhole.of_input? (whole : plan.IsWhole) (below : plan.input? = some input) :
    input.IsWhole := by
  cases whole with
  | scan => cases below
  | sort whole | limit whole =>
      cases below
      exact whole

theorem exists_isWhole (query : Select) :
    ∃ input, input.IsWhole ∧ ofSelect query = project input query.items := by
  refine ⟨_, ?_, rfl⟩
  have sorted : (sortIfAny (scan query.source query.filter) query.orderBy
      query.direction).IsWhole := by
    unfold sortIfAny
    split
    · exact .scan
    · exact .sort .scan
  unfold limitIfAny
  cases query.limit with
  | none => exact sorted
  | some count => exact .limit sorted

theorem IsWhole.run (whole : plan.IsWhole) (ran : plan.run t = .ok result) :
    result.columns = t.schema.columnNames ∧ ∀ row ∈ result.rows, row ∈ t.rows := by
  induction whole generalizing result with
  | scan =>
      obtain ⟨rows, scanned, ⟨⟩⟩ := bind_eq_ok_iff.mp ran
      exact ⟨rfl, fun row member => Table.mem_of_scan scanned member⟩
  | sort _ ih =>
      obtain ⟨before, below, ran⟩ := bind_eq_ok_iff.mp ran
      obtain ⟨positions, -, ⟨⟩⟩ := bind_eq_ok_iff.mp ran
      obtain ⟨columns, stored⟩ := ih below
      exact ⟨columns, fun row member => stored row (List.mem_mergeSort.mp member)⟩
  | limit _ ih =>
      obtain ⟨before, below, ⟨⟩⟩ := bind_eq_ok_iff.mp ran
      obtain ⟨columns, stored⟩ := ih below
      exact ⟨columns, fun row member => stored row (List.mem_of_mem_take member)⟩

theorem Within.isWhole_input (within : step.Within plan)
    (whole : ∀ input, plan.input? = some input → input.IsWhole) :
    ∀ input, step.input? = some input → input.IsWhole := by
  induction within with
  | last => exact whole
  | deeper here _ ih => exact ih fun _ next => (whole _ here).of_input? next

theorem Within.stored {query : Select} (within : step.Within (ofSelect query))
    (handed : step.handed t = .ok rows) (member : row ∈ rows) : row ∈ t.rows := by
  obtain ⟨input, whole, shape⟩ := exists_isWhole query
  have below := within.isWhole_input fun input' here => by
    rw [shape] at here
    cases here
    exact whole
  unfold Plan.handed at handed
  split at handed
  · cases handed
    exact member
  · rename_i here
    obtain ⟨result, ran, rfl⟩ := map_eq_ok_iff.mp handed
    exact ((below _ here).run ran).2 row member

/-- What a step looks up in its rows is there. -/
structure InBounds (t : Table) (step : Plan) (rows : List Row) : Prop where
  width : ∀ row ∈ rows, row.length = t.schema.width
  /-- The position of a column is one in the row. -/
  positions : ∀ row ∈ rows, ∀ name i, t.schema.index name = .ok i → i < row.length
  /-- A column of the table has a value, by its name alone and under the name of the table. -/
  lookups : ∀ row ∈ rows, ∀ qualifier name, (∃ v, t.value row qualifier name = .ok v) ↔
    (∀ q, qualifier = some q → q = t.name) ∧ name ∈ t.schema.columnNames
  /-- A sort finds what it compares in any two of its rows. -/
  comparisons : ∀ input columns direction positions, step = sort input columns direction →
    columns.mapM t.schema.index = .ok positions → ∀ v ∈ rows, ∀ w ∈ rows,
      compareAt? positions v w = some (compareAt positions v w)

theorem inBounds_of_width (step : Plan) (width : ∀ row ∈ rows, row.length = t.schema.width) :
    step.InBounds t rows where
  width := width
  positions row member name i found := width row member ▸ Schema.lt_width_of_index found
  lookups row member qualifier name := Table.exists_value_iff (width row member)
  comparisons input columns direction positions _ found v first w second := by
    have inside (i : Nat) (used : i ∈ positions) : i < t.schema.width := by
      obtain ⟨name, -, index⟩ := exists_of_forall₂ (mapM_eq_ok_iff.mp found).flip used
      exact Schema.lt_width_of_index index
    refine compareAt?_of_inside fun i used => ?_
    rw [width v first, width w second]
    exact ⟨inside i used, inside i used⟩

end Plan

/-! ## Projections -/

theorem SelectItem.length_values {item : SelectItem} {values : List Value}
    (width : row.length = t.schema.width) (shown : item.values t row = .ok values) :
    values.length = (item.names t.schema).length := by
  rcases item with _ | ⟨e, title⟩
  · cases shown
    simpa [SelectItem.names, Schema.columnNames, Schema.width] using width
  · obtain ⟨v, -, ⟨⟩⟩ := bind_eq_ok_iff.mp shown
    cases title <;> cases e <;> rfl

theorem length_projectRow {items : List SelectItem} {shown : Row}
    (width : row.length = t.schema.width) (projected : projectRow t row items = .ok shown) :
    shown.length = (items.flatMap (·.names t.schema)).length := by
  induction items generalizing shown with
  | nil =>
      cases projected
      rfl
  | cons item items ih =>
      obtain ⟨first, here, projected⟩ := bind_eq_ok_iff.mp projected
      obtain ⟨others, rest, ⟨⟩⟩ := bind_eq_ok_iff.mp projected
      rw [List.length_append, List.flatMap_cons, List.length_append, ih rest,
        SelectItem.length_values width here]

/-! ## Queries -/

theorem length_of_execute {db : Database} (reachable : db.Reachable) {query : Select}
    {result : QueryResult} (answer : query.execute none db = .ok result) :
    ∀ row ∈ result.rows, row.length = result.columns.length := by
  intro row member
  cases found : db.table? query.source with
  | none => cases (execute_of_missing found).symm.trans answer
  | some t =>
      have fitting := (reachable.wellFormed query.source t found).2.fitting
      rw [execute_eq_sorted query found] at answer
      obtain ⟨sorted, ordered, answer⟩ := bind_eq_ok_iff.mp answer
      obtain ⟨shown, projected, rfl⟩ := map_eq_ok_iff.mp answer
      obtain ⟨stored, picked, joins⟩ :=
        exists_of_forall₂ (projectRows_eq_ok_iff.mp projected).flip member
      have inside := (Select.sorted_subperm ordered).subset
        ((query.first_sublist sorted).subset picked)
      exact length_projectRow (fitting stored inside).1 (projectRow_eq_ok_iff.mpr joins)

/--
Every step of a query, the sort and the projection among them, works on rows with one value for each
column of the table: whatever it looks up in them or compares is there.  And every row of a result
has one value for each of its columns.
-/
theorem query_stays_in_rows {db : Database} (reachable : db.Reachable) (query : Select) :
    (∀ t, db.table? query.source = some t → ∀ (step : Plan) (rows : List Row),
      step.Within (Plan.ofSelect query) → step.handed t = .ok rows → step.InBounds t rows) ∧
    ∀ result, query.execute none db = .ok result →
      ∀ row ∈ result.rows, row.length = result.columns.length := by
  constructor
  · intro t found step rows within handed
    have fitting := (reachable.wellFormed query.source t found).2.fitting
    exact Plan.inBounds_of_width step fun row member =>
      (fitting row (within.stored handed member)).1
  · exact fun result => length_of_execute reachable

/-- A sort by two columns above a filter, and a projection that widens its rows. -/
theorem query_stays_in_rows_sorted :
    let db := Database.empty.behind
      [.createTable "t" [.plain "a" .integer, .plain "b" .text],
        .insertRows "t" [[.integer 2, .text "x"], [.integer 1, .text "x"], [.null, .text "y"],
          [.integer 3, .null]]]
    let filter := some (Expr.binary (.column none "b") (.comparison .less) (.literal (.text "z")))
    let query : Select :=
      ⟨[.all, .expr (.column none "a") none], "t", filter, ["b", "a"], .descending, some 2⟩
    ∃ t rows result, db.table? "t" = some t ∧ t.scan filter = .ok rows ∧ rows.length = 3 ∧
      (∀ v ∈ rows, ∀ w ∈ rows, compareAt? [1, 0] v w = some (compareAt [1, 0] v w)) ∧
      query.execute none db = .ok result ∧ result.rows.length = 2 ∧
      ∀ row ∈ result.rows, row.length = 3 := by
  intro db filter query
  have computed : ((db.table? "t").map fun t =>
      ((t.scan filter).toOption.map List.length, (["b", "a"].mapM t.schema.index).toOption)) =
      some (some 3, some [1, 0]) := by
    cbv
  have answered : (query.execute none db).toOption.map (fun result =>
      (result.columns, result.rows.length)) = some (["a", "b", "a"], 2) := by
    cbv
  obtain ⟨t, found, same⟩ := Option.map_eq_some_iff.mp computed
  obtain ⟨scanned, resolved⟩ := Prod.mk.inj same
  obtain ⟨rows, kept, count⟩ := Option.map_eq_some_iff.mp scanned
  obtain ⟨result, answer, shape⟩ := Option.map_eq_some_iff.mp answered
  obtain ⟨columns, limited⟩ := Prod.mk.inj shape
  obtain ⟨steps, shown⟩ := query_stays_in_rows (.calls _) query
  let scan := Plan.scan "t" filter
  have ran : scan.run t = .ok ⟨t.schema.columnNames, rows, 0⟩ :=
    bind_eq_ok_iff.mpr ⟨rows, eq_ok_of_toOption kept, rfl⟩
  have bounds := steps t found (.sort scan ["b", "a"] .descending) rows
    (.deeper rfl (.deeper rfl .last)) (map_eq_ok_iff.mpr ⟨_, ran, rfl⟩)
  have wide := shown result (eq_ok_of_toOption answer)
  rw [columns] at wide
  exact ⟨t, rows, result, found, eq_ok_of_toOption kept, count,
    bounds.comparisons _ _ _ _ rfl (eq_ok_of_toOption resolved), eq_ok_of_toOption answer, limited,
    wide⟩

end Tabular
