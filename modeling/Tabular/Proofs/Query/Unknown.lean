import Tabular.Proofs.Expr.Columns
import Tabular.Proofs.Query.Interpretation

/-!
# Unknown columns

A query finds the columns that it sorts by in the schema, before it looks at any row, and those of
an expression in the rows that the expression is evaluated on.  So an unknown column to sort by is
an error whatever the table holds.  One in the condition is an error where there are rows, and one
in the select list where rows are shown.  Nowhere else is it noticed.
-/

namespace Tabular

variable {query : Select} {t : Table} {rows : List Row} {c : Option String × String}

/-! ## Expressions with unknown columns -/

/-- The table is not the one that the reference names, or it has no such column. -/
def Table.Lacks (t : Table) (c : Option String × String) : Prop :=
  (∃ q, c.1 = some q ∧ q ≠ t.name) ∨ c.2 ∉ t.schema.columnNames

theorem Table.value_of_lacks (lacks : t.Lacks c) (row : Row) (v : Value) :
    t.value row c.1 c.2 ≠ .ok v := by
  have unqualified (unknown : c.2 ∉ t.schema.columnNames) (v : Value) :
      Table.value.unqualified t row c.2 ≠ .ok v := by
    intro value
    obtain ⟨i, found, -⟩ := bind_eq_ok_iff.mp value
    exact unknown (Schema.exists_index_iff.mp ⟨i, found⟩)
  unfold Table.value
  rcases lacks with ⟨q, qualified, other⟩ | unknown
  · simp [qualified, other]
  · cases c.1 with
    | none => exact unqualified unknown v
    | some q =>
        by_cases own : q = t.name
        · simpa [own] using unqualified unknown v
        · simp [own]

theorem Expr.exists_error_of_lacks {e : Expr} (member : c ∈ e.columns) (lacks : t.Lacks c)
    (row : Row) : ∃ error, e.evalRow t row = .error error := by
  cases value : e.evalRow t row with
  | error error => exact ⟨error, rfl⟩
  | ok v =>
      obtain ⟨w, here⟩ := Expr.exists_reading_of_eval value c member
      exact absurd here (Table.value_of_lacks lacks row w)

/-! ## Queries that succeed -/

namespace Select

theorem first_eq_nil_iff : query.first rows = [] ↔ rows = [] ∨ query.limit = some 0 := by
  unfold first
  cases query.limit with
  | none => simp
  | some count => simp [List.take_eq_nil_iff, ← UInt64.toNat_inj, or_comm]

theorem Picks.eq_nil_iff (picks : query.Picks t rows) :
    rows = [] ↔ query.kept t = [] ∨ query.limit = some 0 := by
  obtain ⟨positions, -, -, rfl⟩ := picks_iff.mp picks
  have reordered := (sorts_sortRows positions query.direction (query.kept t)).reordered
  rw [first_eq_nil_iff, ← List.length_eq_zero_iff, reordered.length_eq, List.length_eq_zero_iff]

theorem exists_picks_iff :
    (∃ rows, query.Picks t rows) ↔
      (∀ row ∈ t.rows, ∀ e, ¬ query.FilterFails t row e) ∧
        ∀ name ∈ query.orderBy, name ∈ t.schema.columnNames := by
  have known : (∀ name ∈ query.orderBy, ∀ e, ¬ SortFails t name e) ↔
      ∀ name ∈ query.orderBy, name ∈ t.schema.columnNames := by
    simp [SortFails]
  rw [← known, ← exists_positions_iff]
  constructor
  · rintro ⟨rows, picks⟩
    exact ⟨picks.filtered, exists_positions_iff.mpr picks.known⟩
  · rintro ⟨filtered, positions, found⟩
    exact ⟨_, picks_iff.mpr ⟨positions, scan_eq_ok_iff.mpr ⟨filtered, rfl⟩, found, rfl⟩⟩

def Passes (query : Select) (t : Table) (rows : List Row) : Prop :=
  ∀ place ∈ places rows query.items, ∀ e, ¬ SelectItem.Fails t place e

theorem exists_projected_iff :
    (∃ shown, projectRows t query.items rows = .ok shown) ↔ query.Passes t rows := by
  rw [Passes, ← forall_ne_error_iff, ← forall_not_firstFailure_iff]
  simp only [ne_eq, projectRows_eq_error_iff]

theorem interpret_succeeds_iff :
    (∃ result, query.interpret t = .ok result) ↔
      ∃ rows, query.Picks t rows ∧ query.Passes t rows := by
  simp only [← exists_projected_iff, interpret_eq_ok_iff, ← projectRows_eq_ok_iff]
  constructor
  · rintro ⟨_, rows, shown, columns, picks, projected, -, rfl⟩
    exact ⟨rows, picks, shown, projected⟩
  · rintro ⟨rows, picks, shown, projected⟩
    exact ⟨_, rows, shown, _, picks, projected, joins_heads_iff.mpr rfl, rfl⟩

theorem interpret_succeeds_of_nothing (filtered : ∀ row ∈ t.rows, ∀ e, ¬ query.FilterFails t row e)
    (sorts : ∀ name ∈ query.orderBy, name ∈ t.schema.columnNames)
    (nothing : query.kept t = [] ∨ query.limit = some 0) :
    ∃ result, query.interpret t = .ok result := by
  obtain ⟨rows, picks⟩ := exists_picks_iff.mpr ⟨filtered, sorts⟩
  obtain rfl := picks.eq_nil_iff.mpr nothing
  exact interpret_succeeds_iff.mpr ⟨[], picks, fun place shown => nomatch shown⟩

theorem kept_eq_nil (empty : t.rows = []) : query.kept t = [] := by
  rw [kept, empty, List.filter_nil]

/-! ## Queries with unknown columns -/

def ConditionLacks (query : Select) (t : Table) : Prop :=
  ∃ condition, query.filter = some condition ∧ ∃ c ∈ condition.columns, t.Lacks c

def ItemsLack (query : Select) (t : Table) : Prop :=
  ∃ e title, .expr e title ∈ query.items ∧ ∃ c ∈ e.columns, t.Lacks c

theorem ConditionLacks.fails (lacks : query.ConditionLacks t) (row : Row) :
    ∃ e, query.FilterFails t row e := by
  obtain ⟨condition, filter, c, member, unknown⟩ := lacks
  obtain ⟨error, fails⟩ := Expr.exists_error_of_lacks member unknown row
  exact ⟨error, condition, filter, fails⟩

theorem ItemsLack.fails (lacks : query.ItemsLack t) {row : Row} (shown : row ∈ rows) :
    ∃ place ∈ places rows query.items, ∃ e, SelectItem.Fails t place e := by
  obtain ⟨e, title, entry, c, member, unknown⟩ := lacks
  obtain ⟨error, fails⟩ := Expr.exists_error_of_lacks member unknown row
  refine ⟨(row, .expr e title), ?_, error, .expr fails⟩
  exact List.mem_flatMap.mpr ⟨row, shown, List.mem_map_of_mem entry⟩

theorem ConditionLacks.empty_of_picks (lacks : query.ConditionLacks t)
    (picks : query.Picks t rows) : t.rows = [] := by
  refine List.eq_nil_iff_forall_not_mem.mpr fun row member => ?_
  obtain ⟨e, fails⟩ := lacks.fails row
  exact picks.filtered row member e fails

theorem ItemsLack.nothing_of_passes (lacks : query.ItemsLack t) (passes : query.Passes t rows) :
    rows = [] := by
  refine List.eq_nil_iff_forall_not_mem.mpr fun row shown => ?_
  obtain ⟨place, inside, e, fails⟩ := lacks.fails shown
  exact passes place inside e fails

theorem fails_of_unknown_order (unknown : ¬ ∀ name ∈ query.orderBy, name ∈ t.schema.columnNames) :
    ∃ e, query.interpret t = .error e := by
  cases outcome : query.interpret t with
  | error e => exact ⟨e, rfl⟩
  | ok result =>
      obtain ⟨rows, picks, -⟩ := interpret_succeeds_iff.mp ⟨result, outcome⟩
      exact absurd (exists_picks_iff.mp ⟨rows, picks⟩).2 unknown

theorem ConditionLacks.succeeds_iff (lacks : query.ConditionLacks t) :
    (∃ result, query.interpret t = .ok result) ↔
      t.rows = [] ∧ ∀ name ∈ query.orderBy, name ∈ t.schema.columnNames := by
  constructor
  · intro succeeds
    obtain ⟨rows, picks, -⟩ := interpret_succeeds_iff.mp succeeds
    exact ⟨lacks.empty_of_picks picks, (exists_picks_iff.mp ⟨rows, picks⟩).2⟩
  · rintro ⟨empty, known⟩
    refine interpret_succeeds_of_nothing ?_ known (.inl (kept_eq_nil empty))
    rw [empty]
    exact fun row member => nomatch member

theorem ItemsLack.succeeds_iff (lacks : query.ItemsLack t) :
    (∃ result, query.interpret t = .ok result) ↔
      (∀ row ∈ t.rows, ∀ e, ¬ query.FilterFails t row e) ∧
        (∀ name ∈ query.orderBy, name ∈ t.schema.columnNames) ∧
        (query.kept t = [] ∨ query.limit = some 0) := by
  constructor
  · intro succeeds
    obtain ⟨rows, picks, passes⟩ := interpret_succeeds_iff.mp succeeds
    obtain ⟨filtered, known⟩ := exists_picks_iff.mp ⟨rows, picks⟩
    exact ⟨filtered, known, picks.eq_nil_iff.mp (lacks.nothing_of_passes passes)⟩
  · rintro ⟨filtered, known, nothing⟩
    exact interpret_succeeds_of_nothing filtered known nothing

theorem rows_eq_nil_of_lacks (lacks : query.ConditionLacks t ∨ query.ItemsLack t)
    {result : QueryResult} (outcome : query.interpret t = .ok result) : result.rows = [] := by
  obtain ⟨rows, shown, columns, picks, projected, -, rfl⟩ := interpret_eq_ok_iff.mp outcome
  have nothing : rows = [] := by
    rcases lacks with condition | items
    · exact picks.eq_nil_iff.mpr (.inl (kept_eq_nil (condition.empty_of_picks picks)))
    · refine items.nothing_of_passes (exists_projected_iff.mp ⟨shown, ?_⟩)
      exact projectRows_eq_ok_iff.mpr projected
  subst nothing
  exact List.forall₂_nil_left_iff.mp projected

end Select

/--
An unknown column to sort by is an error.  One in the condition is an error unless the table is
empty, and one in the select list unless no row is shown; it goes unnoticed there, where nothing
else is wrong.  So no query with an unknown column ever shows a row.
-/
theorem unknown_columns_fail_on_rows (query : Select) {db : Database}
    (found : db.table? query.source = some t) :
    let answer := query.execute none db
    let sorts := ∀ name ∈ query.orderBy, name ∈ t.schema.columnNames
    (¬ sorts → ∃ e, answer = .error e) ∧
    (query.ConditionLacks t → ((∃ result, answer = .ok result) ↔ t.rows = [] ∧ sorts)) ∧
    (query.ItemsLack t → ((∃ result, answer = .ok result) ↔
      (∀ row ∈ t.rows, ∀ e, ¬ query.FilterFails t row e) ∧ sorts ∧
        (query.kept t = [] ∨ query.limit = some 0))) ∧
    (query.ConditionLacks t ∨ query.ItemsLack t →
      ∀ result, answer = .ok result → result.rows = []) := by
  intro answer sorts
  have run : answer = query.interpret t := execute_of_found found
  clear_value answer
  subst run
  exact ⟨Select.fails_of_unknown_order, fun lacks => lacks.succeeds_iff,
    fun lacks => lacks.succeeds_iff, fun lacks result => Select.rows_eq_nil_of_lacks lacks⟩

/-- A column of another table, in a query that keeps the second of two rows, or neither. -/
theorem unknown_columns_fail_on_rows_qualified :
    let db := Database.empty.behind
      [.createTable "t" [.plain "a" .integer], .insertRows "t" [[.integer 1], [.integer 2]]]
    let least (n : Int64) :=
      some (Expr.binary (.column none "a") (.comparison .greater) (.literal (.integer n)))
    let query (n : Int64) : Select :=
      ⟨[.all, .expr (.column (some "u") "a") none], "t", least n, ["a"], .ascending, some 5⟩
    ∃ t, db.table? "t" = some t ∧ (query 1).ItemsLack t ∧ (query 2).ItemsLack t ∧
      (∃ e, (query 1).execute none db = .error e) ∧
      ∃ result, (query 2).execute none db = .ok result ∧ result.rows = [] := by
  intro db least query
  have computed : (db.table? "t").map (fun t => (t.name, (query 1).kept t)) =
      some ("t", [[.integer 2]]) := by
    cbv
  obtain ⟨t, found, same⟩ := Option.map_eq_some_iff.mp computed
  obtain ⟨name, kept⟩ := Prod.mk.inj same
  have lacks (n : Int64) : (query n).ItemsLack t :=
    ⟨_, _, List.mem_cons_of_mem _ List.mem_cons_self, _, List.mem_cons_self,
      .inl ⟨"u", rfl, by rw [name]; decide⟩⟩
  have answered : ((query 2).execute none db).isOk = true := by
    cbv
  obtain ⟨result, answer⟩ := exists_ok answered
  obtain ⟨-, -, shows, -⟩ := unknown_columns_fail_on_rows (query 1) found
  obtain ⟨-, -, -, nothing⟩ := unknown_columns_fail_on_rows (query 2) found
  refine ⟨t, found, lacks 1, lacks 2, ?_, result, answer, nothing (.inr (lacks 2)) result answer⟩
  cases outcome : (query 1).execute none db with
  | error e => exact ⟨e, rfl⟩
  | ok result =>
      obtain ⟨-, -, none⟩ := (shows (lacks 1)).mp ⟨result, outcome⟩
      rw [kept] at none
      simp [query] at none

/-- On an empty table nothing is wrong with a column that a row of the table would not have. -/
theorem unknown_columns_pass_without_rows :
    let empty := Database.empty.behind [.createTable "t" [.plain "a" .integer]]
    let filled := Database.empty.behind
      [.createTable "t" [.plain "a" .integer], .insertRows "t" [[.integer 1]]]
    let unknown := Expr.column none "b"
    let listed : Select := ⟨[.expr unknown none], "t", none, [], .ascending, none⟩
    let filtered : Select := ⟨[.all], "t", some unknown, [], .ascending, none⟩
    (listed.execute none empty = .ok ⟨["b"], [], 0⟩ ∧
      listed.execute none filled = .error (.columnNotFound "b")) ∧
    filtered.execute none empty = .ok ⟨["a"], [], 0⟩ ∧
      filtered.execute none filled = .error (.columnNotFound "b") := by
  intro empty filled unknown listed filtered
  refine ⟨⟨?_, ?_⟩, ?_, ?_⟩
  all_goals simp only [listed, filtered, unknown, empty, filled]
  all_goals cbv

end Tabular
