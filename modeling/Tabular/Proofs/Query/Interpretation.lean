import Mathlib.Data.List.Perm.Subperm
import Tabular.Proofs.Query.Meaning

/-!
# Running the plan of a query

The stages of a plan, each with what it answers and where it fails, and from them the whole plan:
it gives exactly what the query means.
-/

namespace Tabular

/-! ## The stages of a plan -/

variable {query : Select} {t : Table} {row : Row} {rows : List Row}

/-! ### Filters -/

theorem keepTrue_eq_ok_iff {condition : Row → Except Error Value} {kept : List Row} :
    keepTrue condition rows = .ok kept ↔
      (∀ row ∈ rows, ∃ v, condition row = .ok v) ∧
        kept = rows.filter fun row => isTrue (condition row) := by
  induction rows generalizing kept with
  | nil => simp [keepTrue, eq_comm]
  | cons row rows ih =>
      rw [keepTrue, bind_eq_ok_iff]
      simp only [bind_eq_ok_iff, ih, List.forall_mem_cons]
      cases value : condition row with
      | error e => simp
      | ok v =>
          by_cases h : v = .boolean true <;>
            simp [value, isTrue, h, pure, Except.pure, eq_comm]

theorem Select.kept_of_none (filter : query.filter = none) : query.kept t = t.rows := by
  rw [kept, List.filter_eq_self]
  intro row _
  rw [keeps, filter]

theorem Select.kept_of_some {condition : Expr} (filter : query.filter = some condition) :
    query.kept t = t.rows.filter fun row => isTrue (condition.evalRow t row) := by
  refine List.filter_congr fun row _ => ?_
  rw [keeps, filter]

theorem Select.filterFails_iff {condition : Expr} (filter : query.filter = some condition)
    {e : Error} : query.FilterFails t row e ↔ condition.evalRow t row = .error e := by
  simp [FilterFails, filter]

theorem Select.not_filterFails_of_none (filter : query.filter = none) (e : Error) :
    ¬ query.FilterFails t row e := by
  simp [FilterFails, filter]

theorem scan_eq_ok_iff :
    t.scan query.filter = .ok rows ↔
      (∀ row ∈ t.rows, ∀ e, ¬ query.FilterFails t row e) ∧ rows = query.kept t := by
  cases filter : query.filter with
  | none =>
      simp [Table.scan, Select.not_filterFails_of_none filter, Select.kept_of_none filter, eq_comm]
  | some condition =>
      simp only [Table.scan, keepTrue_eq_ok_iff, Select.filterFails_iff filter,
        Select.kept_of_some filter, forall_ne_error_iff]

theorem scan_eq_error_iff {e : Error} :
    t.scan query.filter = .error e ↔ FirstFailure (query.FilterFails t) t.rows e := by
  cases filter : query.filter with
  | none =>
      have none : ∀ e, ¬ FirstFailure (query.FilterFails t) t.rows e :=
        forall_not_firstFailure_iff.mpr fun _ _ => Select.not_filterFails_of_none filter
      simp [Table.scan, none]
  | some condition =>
      rw [firstFailure_congr fun row _ e => Select.filterFails_iff filter]
      exact traversal_eq_error_iff (keepTrue _) rfl fun _ _ => rfl

/-! ### Positions -/

theorem index_eq_error_iff {name : String} {e : Error} :
    t.schema.index name = .error e ↔ Select.SortFails t name e :=
  Schema.index_eq_error_iff

theorem mapM_index_eq_error_iff {names : List String} {e : Error} :
    names.mapM t.schema.index = .error e ↔ FirstFailure (Select.SortFails t) names e := by
  rw [traversal_eq_error_iff (List.mapM t.schema.index) List.mapM_nil fun _ _ => List.mapM_cons]
  exact firstFailure_congr fun name _ e => index_eq_error_iff

theorem exists_positions_iff {names : List String} :
    (∃ positions, names.mapM t.schema.index = .ok positions) ↔
      ∀ name ∈ names, ∀ e, ¬ Select.SortFails t name e := by
  rw [← forall_ne_error_iff]
  simp only [ne_eq, mapM_index_eq_error_iff, forall_not_firstFailure_iff]

theorem cell_eq_getD {name : String} {i : Nat} (found : t.schema.index name = .ok i) :
    t.cell row name = row.getD i .null := by
  simp only [Table.cell, Table.value, Table.value.unqualified, found, List.getD_eq_getElem?_getD,
    bind, Except.bind]
  cases row[i]? <;> rfl

theorem keysAt_eq {names : List String} {positions : List Nat}
    (found : names.mapM t.schema.index = .ok positions) :
    keysAt positions = fun row => names.map (t.cell row) := by
  funext row
  induction names generalizing positions with
  | nil =>
      cases found
      rfl
  | cons name names ih =>
      rw [List.mapM_cons] at found
      obtain ⟨i, first, found⟩ := bind_eq_ok_iff.mp found
      obtain ⟨others, rest, found⟩ := bind_eq_ok_iff.mp found
      cases found
      rw [List.map_cons, cell_eq_getD first, ← ih rest]
      rfl

/-! ### Projections -/

variable {item : SelectItem} {items : List SelectItem}

theorem values_eq_ok_iff {values : List Value} :
    item.values t row = .ok values ↔ item.Shows t row values := by
  cases item with
  | all =>
      constructor
      · rintro ⟨⟩
        exact .all
      · rintro ⟨⟩
        rfl
  | expr e title =>
      rw [SelectItem.values, bind_eq_ok_iff]
      constructor
      · rintro ⟨v, value, ⟨⟩⟩
        exact .expr value
      · rintro ⟨⟩
        exact ⟨_, ‹_›, rfl⟩

theorem values_eq_error_iff {e : Error} :
    item.values t row = .error e ↔ SelectItem.Fails t (row, item) e := by
  cases item with
  | all =>
      constructor
      · rintro ⟨⟩
      · rintro ⟨⟩
  | expr expr title =>
      rw [SelectItem.values, bind_eq_error_iff]
      constructor
      · rintro (fails | ⟨v, _, ⟨⟩⟩)
        exact .expr fails
      · rintro ⟨fails⟩
        exact .inl fails

theorem projectRow_eq_ok_iff {shown : Row} :
    projectRow t row items = .ok shown ↔ Joins (SelectItem.Shows t row) items shown := by
  induction items generalizing shown with
  | nil => simp [projectRow, joins_nil_iff, eq_comm]
  | cons item items ih =>
      simp only [projectRow, bind_eq_ok_iff, values_eq_ok_iff, ih, joins_cons_iff]
      simp [pure, Except.pure, eq_comm]

theorem projectRows_eq_ok_iff {shown : List Row} :
    projectRows t items rows = .ok shown ↔
      List.Forall₂ (fun row => Joins (SelectItem.Shows t row) items) rows shown := by
  induction rows generalizing shown with
  | nil => simp [projectRows, eq_comm]
  | cons row rows ih =>
      simp only [projectRows, bind_eq_ok_iff, projectRow_eq_ok_iff, ih, List.forall₂_cons_left_iff]
      simp [pure, Except.pure, eq_comm]

theorem projectRows_all (t : Table) (rows : List Row) : projectRows t [.all] rows = .ok rows := by
  induction rows with
  | nil => rfl
  | cons row rows ih =>
      have first : projectRow t row [.all] = .ok row := congrArg Except.ok (List.append_nil row)
      rw [projectRows, first, ih]
      rfl

theorem projectRows_eq_error_iff {e : Error} :
    projectRows t items rows = .error e ↔
      FirstFailure (SelectItem.Fails t) (places rows items) e := by
  have inRow (row : Row) (e : Error) : projectRow t row items = .error e ↔
      FirstFailure (SelectItem.Fails t) (items.map fun item => (row, item)) e := by
    rw [firstFailure_map_iff, ← firstFailure_congr fun _ _ _ => values_eq_error_iff]
    exact traversal_eq_error_iff (projectRow t row) rfl fun _ _ => rfl
  rw [places, firstFailure_flatMap_iff, ← firstFailure_congr fun row _ e => inRow row e]
  exact traversal_eq_error_iff (projectRows t items) rfl fun _ _ => rfl

theorem heads_iff {heads : List String} : item.Heads t heads ↔ heads = item.names t.schema := by
  constructor
  · intro h
    cases h with
    | @rendered e other =>
        cases e with
        | column qualifier name => exact (other qualifier name rfl).elim
        | _ => rfl
    | _ => rfl
  · rintro rfl
    rcases item with _ | ⟨e, _ | title⟩
    · exact .all
    · cases e with
      | column qualifier name => exact .column
      | _ => exact .rendered (by simp)
    · exact .titled

theorem joins_heads_iff {columns : List String} :
    Joins (SelectItem.Heads t) items columns ↔ columns = items.flatMap (·.names t.schema) := by
  induction items generalizing columns with
  | nil => exact joins_nil_iff
  | cons item items ih =>
      simp only [joins_cons_iff, heads_iff, ih, List.flatMap_cons]
      simp

/-! ## Whole plans -/

theorem sortRows_nil (direction : Direction) (rows : List Row) :
    sortRows [] direction rows = rows := by
  -- Without keys all rows are tied, and a sort keeps the order of ties.
  have same : Sorts (keysAt []) direction rows rows :=
    { reordered := .refl _
      ordered := by
        refine List.pairwise_of_forall fun v w => ?_
        cases direction <;> simp [keysAt, Direction.Precedes]
      stable := fun _ => rfl }
  exact same.eq_sortRows.symm

theorem run_sortIfAny (input : Plan) (names : List String) (direction : Direction) :
    (input.sortIfAny names direction).run t = do
      let result ← input.run t
      let positions ← names.mapM t.schema.index
      return { result with rows := sortRows positions direction result.rows } := by
  cases names with
  | nil => simp [Plan.sortIfAny, sortRows_nil]
  | cons name names => rfl

theorem run_limitIfAny (input : Plan) (query : Select) :
    (input.limitIfAny query.limit).run t = do
      let result ← input.run t
      return { result with rows := query.first result.rows } := by
  unfold Select.first Plan.limitIfAny
  cases query.limit with
  | none => simp
  | some count => rfl

theorem interpret_eq (query : Select) (t : Table) :
    query.interpret t = do
      let rows ← t.scan query.filter
      let positions ← query.orderBy.mapM t.schema.index
      let shown ← projectRows t query.items (query.first (sortRows positions query.direction rows))
      return ⟨query.items.flatMap (·.names t.schema), shown, 0⟩ := by
  unfold Select.interpret Plan.ofSelect
  rw [Plan.run, run_limitIfAny, run_sortIfAny, Plan.run]
  simp only [bind_assoc, pure_bind]

/-- The rows of a query, sorted, of which it shows the first ones. -/
def Select.sorted (query : Select) (t : Table) : Except Error (List Row) := do
  let rows ← t.scan query.filter
  let positions ← query.orderBy.mapM t.schema.index
  return sortRows positions query.direction rows

theorem interpret_eq_sorted (query : Select) (t : Table) :
    query.interpret t = query.sorted t >>= fun sorted =>
      (projectRows t query.items (query.first sorted)).map fun shown =>
        ⟨query.items.flatMap (·.names t.schema), shown, 0⟩ := by
  rw [interpret_eq]
  simp only [Select.sorted, bind_assoc, pure_bind]
  rfl

theorem Select.first_sublist (query : Select) (rows : List Row) :
    (query.first rows).Sublist rows := by
  unfold first
  split
  · exact List.Sublist.refl _
  · exact List.take_sublist _ _

/-- The sorted rows are rows of the table, each at most as often as it is stored. -/
theorem Select.sorted_subperm (found : query.sorted t = .ok rows) : rows.Subperm t.rows := by
  obtain ⟨kept, scanned, found⟩ := bind_eq_ok_iff.mp found
  obtain ⟨positions, -, found⟩ := bind_eq_ok_iff.mp found
  cases found
  obtain ⟨-, rfl⟩ := scan_eq_ok_iff.mp scanned
  have reordered := (sorts_sortRows positions query.direction (query.kept t)).reordered
  exact reordered.subperm.trans List.filter_sublist.subperm

theorem picks_iff :
    query.Picks t rows ↔
      ∃ positions, t.scan query.filter = .ok (query.kept t) ∧
        query.orderBy.mapM t.schema.index = .ok positions ∧
        rows = query.first (sortRows positions query.direction (query.kept t)) := by
  constructor
  · rintro ⟨filtered, known, sorted, sorts, -, rfl⟩
    obtain ⟨positions, found⟩ := exists_positions_iff.mpr known
    have keys : query.keys t = keysAt positions := (keysAt_eq found).symm
    rw [keys] at sorts
    exact ⟨positions, scan_eq_ok_iff.mpr ⟨filtered, rfl⟩, found, by rw [sorts.eq_sortRows]⟩
  · rintro ⟨positions, scanned, found, rfl⟩
    have keys : query.keys t = keysAt positions := (keysAt_eq found).symm
    refine ⟨(scan_eq_ok_iff.mp scanned).1, exists_positions_iff.mp ⟨positions, found⟩, _,
      keys ▸ sorts_sortRows _ _ _, ?_, rfl⟩
    rw [keys]
    exact fun other sorts => sorts.eq_sortRows

theorem interpret_eq_ok_iff {result : QueryResult} :
    query.interpret t = .ok result ↔
      ∃ rows shown columns, query.Picks t rows ∧
        List.Forall₂ (fun row => Joins (SelectItem.Shows t row) query.items) rows shown ∧
        Joins (SelectItem.Heads t) query.items columns ∧ result = ⟨columns, shown, 0⟩ := by
  rw [interpret_eq]
  constructor
  · intro run
    obtain ⟨rows, scanned, run⟩ := bind_eq_ok_iff.mp run
    obtain ⟨positions, found, run⟩ := bind_eq_ok_iff.mp run
    obtain ⟨shown, projected, run⟩ := bind_eq_ok_iff.mp run
    cases run
    obtain ⟨-, rfl⟩ := scan_eq_ok_iff.mp scanned
    exact ⟨_, shown, _, picks_iff.mpr ⟨positions, scanned, found, rfl⟩,
      projectRows_eq_ok_iff.mp projected, joins_heads_iff.mpr rfl, rfl⟩
  · rintro ⟨rows, shown, columns, picks, projected, heads, rfl⟩
    obtain ⟨positions, scanned, found, rfl⟩ := picks_iff.mp picks
    obtain rfl := joins_heads_iff.mp heads
    refine bind_eq_ok_iff.mpr ⟨_, scanned, bind_eq_ok_iff.mpr ⟨positions, found, ?_⟩⟩
    exact bind_eq_ok_iff.mpr ⟨shown, projectRows_eq_ok_iff.mpr projected, rfl⟩

theorem interpret_eq_error_iff {e : Error} :
    query.interpret t = .error e ↔
      FirstFailure (query.FilterFails t) t.rows e ∨
      (∀ row ∈ t.rows, ∀ e, ¬ query.FilterFails t row e) ∧
        FirstFailure (Select.SortFails t) query.orderBy e ∨
      ∃ rows, query.Picks t rows ∧
        FirstFailure (SelectItem.Fails t) (places rows query.items) e := by
  rw [interpret_eq, bind_eq_error_iff, scan_eq_error_iff]
  refine or_congr_right ?_
  constructor
  · rintro ⟨rows, scanned, run⟩
    obtain ⟨filtered, rfl⟩ := scan_eq_ok_iff.mp scanned
    rcases bind_eq_error_iff.mp run with unknown | ⟨positions, found, run⟩
    · exact .inl ⟨filtered, mapM_index_eq_error_iff.mp unknown⟩
    · rcases bind_eq_error_iff.mp run with fails | ⟨shown, _, run⟩
      · exact .inr ⟨_, picks_iff.mpr ⟨positions, scanned, found, rfl⟩,
          projectRows_eq_error_iff.mp fails⟩
      · cases run
  · rintro (⟨filtered, unknown⟩ | ⟨rows, picks, fails⟩)
    · refine ⟨_, scan_eq_ok_iff.mpr ⟨filtered, rfl⟩, bind_eq_error_iff.mpr (.inl ?_)⟩
      exact mapM_index_eq_error_iff.mpr unknown
    · obtain ⟨positions, scanned, found, rfl⟩ := picks_iff.mp picks
      refine ⟨_, scanned, bind_eq_error_iff.mpr (.inr ⟨positions, found, ?_⟩)⟩
      exact bind_eq_error_iff.mpr (.inl (projectRows_eq_error_iff.mpr fails))

/-! ## Queries over databases -/

variable {db : Database}

theorem execute_of_missing (missing : db.table? query.source = none) :
    query.execute none db = .error (.tableNotFound query.source) := by
  simp only [Select.execute, Database.table, missing]
  rfl

theorem execute_of_found (found : db.table? query.source = some t) :
    query.execute none db = query.interpret t := by
  simp only [Select.execute, Database.table, found]
  rfl

theorem execute_eq_sorted (query : Select) (found : db.table? query.source = some t) :
    query.execute none db = query.sorted t >>= fun sorted =>
      (projectRows t query.items (query.first sorted)).map fun shown =>
        ⟨query.items.flatMap (·.names t.schema), shown, 0⟩ :=
  (execute_of_found found).trans (interpret_eq_sorted query t)

/-- A query answers what it means: the rows that it asks for, or the error that comes first. -/
theorem select_answers_meaning {answer : Except Error QueryResult} :
    query.execute none db = answer ↔ query.Means db answer := by
  constructor
  · rintro rfl
    cases found : db.table? query.source with
    | none => exact execute_of_missing found ▸ .noTable found
    | some t =>
        rw [execute_of_found found]
        cases outcome : query.interpret t with
        | ok result =>
            obtain ⟨rows, shown, columns, picks, projected, heads, rfl⟩ :=
              interpret_eq_ok_iff.mp outcome
            exact .result found picks projected heads
        | error e =>
            rcases interpret_eq_error_iff.mp outcome with
              fails | ⟨filtered, fails⟩ | ⟨rows, picks, fails⟩
            · exact .filterFails found fails
            · exact .sortFails found filtered fails
            · exact .itemFails found picks fails
  · intro means
    cases means with
    | noTable missing => exact execute_of_missing missing
    | filterFails found fails =>
        exact (execute_of_found found).trans (interpret_eq_error_iff.mpr (.inl fails))
    | sortFails found filtered fails =>
        exact (execute_of_found found).trans
          (interpret_eq_error_iff.mpr (.inr (.inl ⟨filtered, fails⟩)))
    | itemFails found picks fails =>
        exact (execute_of_found found).trans
          (interpret_eq_error_iff.mpr (.inr (.inr ⟨_, picks, fails⟩)))
    | result found picks projected heads =>
        exact (execute_of_found found).trans
          (interpret_eq_ok_iff.mpr ⟨_, _, _, picks, projected, heads, rfl⟩)

/-- Of two NaN that differ in their sign, one comes first and the other last. -/
example :
    let nan := Binary64.indefinite
    let rows : List Row := [[.integer 1, .real nan.negate], [.integer 2, .real (.ofParts false 0)],
      [.integer 3, .real nan]]
    (Schema.ofColumns [.plain "id" .integer, .plain "r" .real]).toOption.map (fun s =>
      ((Select.mk [.expr (.column none "id") none] "t" none ["r"] .ascending none).interpret
        ⟨"t", s, rows⟩).toOption) =
      some (some ⟨["id"], [[.integer 3], [.integer 2], [.integer 1]], 0⟩) := by
  cbv

end Tabular
