import Tabular.Proofs.Query.Interpretation
import Tabular.Proofs.Storage.Integrity

/-!
# Laws of sorting

A sort leaves rows alone that its keys do not tell apart.  So sorts compose: a sort by several
columns is a sort by the last of them and then by the others before it.  And a sort does not mind
rows that are left out: it makes no difference whether they are missing before it or behind it.
-/

namespace Tabular

variable {positions positions' : List Nat} {direction : Direction} {rows middle sorted : List Row}
  {v w : Row}

/-! ## Positions in turn -/

theorem compareAt_append (positions positions' : List Nat) (v w : Row) :
    compareAt (positions ++ positions') v w =
      (compareAt positions v w).then (compareAt positions' v w) := by
  induction positions with
  | nil => rfl
  | cons i positions ih =>
      rw [List.cons_append, compareAt, ih, compareAt, Ordering.then_assoc]

theorem keysAt_append_eq_iff :
    keysAt (positions ++ positions') v = keysAt (positions ++ positions') w ↔
      keysAt positions v = keysAt positions w ∧ keysAt positions' v = keysAt positions' w := by
  simp only [← compareAt_eq_eq_iff, compareAt_append, Ordering.then_eq_eq]

theorem inOrder_append_iff :
    inOrder (positions ++ positions') direction v w = true ↔
      inOrder positions direction v w = true ∧
        (keysAt positions v = keysAt positions w → inOrder positions' direction v w = true) := by
  rw [← compareAt_eq_eq_iff]
  unfold inOrder
  rw [compareAt_append]
  cases direction <;> cases compareAt positions v w <;> simp [Direction.orient]

theorem compareAt_repeated {i : Nat} (listed : i ∈ positions) (v w : Row) :
    compareAt (positions ++ i :: positions') v w = compareAt (positions ++ positions') v w := by
  rw [compareAt_append, compareAt_append]
  cases first : compareAt positions v w with
  | lt => rfl
  | gt => rfl
  | eq =>
      have same : v.getD i .null = w.getD i .null :=
        List.map_inj_left.mp (compareAt_eq_eq_iff.mp first) i listed
      rw [compareAt, same, Std.ReflOrd.compare_self]
      rfl

/-! ## Sorts behind one another -/

/-- What orders the elements of every key orders any two with one key. -/
theorem pairwise_of_pairwise_filter {α κ : Type} [DecidableEq κ] {key : α → κ}
    {R : α → α → Prop} {l : List α} (each : ∀ a, (l.filter fun b => key b = key a).Pairwise R) :
    l.Pairwise fun a b => key a = key b → R a b := by
  rw [List.pairwise_iff_getElem]
  intro i j hi hj less same
  have here := each l[i]
  simp only [List.pairwise_filter, decide_eq_true_eq] at here
  exact List.pairwise_iff_getElem.mp here i j hi hj less rfl same.symm

theorem Sorts.append (inner : Sorts (keysAt positions') direction rows middle)
    (outer : Sorts (keysAt positions) direction middle sorted) :
    Sorts (keysAt (positions ++ positions')) direction rows sorted where
  reordered := outer.reordered.trans inner.reordered
  ordered := by
    -- Rows that the first positions do not tell apart stand as the inner sort left them.
    have ties : ∀ row, (sorted.filter fun other => keysAt positions other = keysAt positions row)
        |>.Pairwise fun v w => inOrder positions' direction v w = true := by
      intro row
      rw [outer.stable row]
      exact (inner.ordered.imp inOrder_iff.mpr).filter _
    have first := outer.ordered.imp inOrder_iff.mpr
    refine (first.and (pairwise_of_pairwise_filter ties)).imp fun both => ?_
    exact inOrder_iff.mp (inOrder_append_iff.mpr both)
  stable row := by
    simp only [keysAt_append_eq_iff, Bool.decide_and, ← List.filter_filter]
    rw [List.filter_comm, outer.stable row, List.filter_comm, inner.stable row]

theorem Sorts.filter {keys : Row → List Value} (h : Sorts keys direction rows sorted)
    (keep : Row → Bool) : Sorts keys direction (rows.filter keep) (sorted.filter keep) where
  reordered := h.reordered.filter keep
  ordered := h.ordered.filter keep
  stable row := by rw [List.filter_comm, h.stable row, List.filter_comm]

theorem sortRows_append (positions positions' : List Nat) (direction : Direction)
    (rows : List Row) :
    sortRows (positions ++ positions') direction rows =
      sortRows positions direction (sortRows positions' direction rows) :=
  ((sorts_sortRows positions' direction rows).append (sorts_sortRows _ _ _)).eq_sortRows.symm

theorem sortRows_filter (positions : List Nat) (direction : Direction) (rows : List Row)
    (keep : Row → Bool) :
    sortRows positions direction (rows.filter keep) =
      (sortRows positions direction rows).filter keep :=
  ((sorts_sortRows positions direction rows).filter keep).eq_sortRows.symm

theorem sortRows_sortRows (positions : List Nat) (direction : Direction) (rows : List Row) :
    sortRows positions direction (sortRows positions direction rows) =
      sortRows positions direction rows :=
  List.mergeSort_of_pairwise (pairwise_sortRows positions direction rows)

theorem sortRows_repeated {i : Nat} (listed : i ∈ positions) (positions' : List Nat)
    (direction : Direction) (rows : List Row) :
    sortRows (positions ++ i :: positions') direction rows =
      sortRows (positions ++ positions') direction rows := by
  simp only [sortRows, compareAt_repeated listed]

/-! ## Plans that sort -/

section Plans

variable {t : Table} {columns columns' : List String}

theorem exists_positions_iff_mem :
    (∃ positions, columns.mapM t.schema.index = .ok positions) ↔
      ∀ name ∈ columns, name ∈ t.schema.columnNames := by
  rw [exists_positions_iff]
  exact forall₂_congr fun name _ => by simp [Select.SortFails]

theorem mem_positions {name : String} {i : Nat}
    (found : columns.mapM t.schema.index = .ok positions) (listed : name ∈ columns)
    (index : t.schema.index name = .ok i) : i ∈ positions := by
  induction columns generalizing positions with
  | nil => cases listed
  | cons first others ih =>
      rw [List.mapM_cons] at found
      obtain ⟨j, here, found⟩ := bind_eq_ok_iff.mp found
      obtain ⟨rest, behind, ⟨⟩⟩ := bind_eq_ok_iff.mp found
      rcases List.mem_cons.mp listed with rfl | later
      · cases index.symm.trans here
        exact List.mem_cons_self
      · exact List.mem_cons_of_mem j (ih behind later)

theorem run_sort (found : columns.mapM t.schema.index = .ok positions) (input : Plan)
    (direction : Direction) :
    (Plan.sort input columns direction).run t = (input.run t).map fun result =>
      { result with rows := sortRows positions direction result.rows } := by
  rw [Plan.run, found]
  cases input.run t <;> rfl

theorem mapM_index_append (found : columns.mapM t.schema.index = .ok positions)
    (found' : columns'.mapM t.schema.index = .ok positions') :
    (columns ++ columns').mapM t.schema.index = .ok (positions ++ positions') := by
  rw [List.mapM_append, found, found']
  rfl

/--
A sort by columns and further columns is a sort by the further ones and then one by the others, in
the same direction.  So nothing changes if rows are sorted again by the same columns, or if a column
is listed again behind them.  Where the input has rows, a sort has the same ones, in the order of
the columns, and keeps the order of those that are equal in all of them.
-/
theorem sort_is_its_parts (input : Plan) (direction : Direction)
    (known : ∀ name ∈ columns, name ∈ t.schema.columnNames)
    (known' : ∀ name ∈ columns', name ∈ t.schema.columnNames) :
    let sorted (input : Plan) (columns : List String) : Plan := .sort input columns direction
    (sorted input (columns ++ columns')).run t = (sorted (sorted input columns') columns).run t ∧
    (sorted (sorted input columns) columns).run t = (sorted input columns).run t ∧
    (∀ name ∈ columns,
      (sorted input (columns ++ name :: columns')).run t =
        (sorted input (columns ++ columns')).run t) ∧
    ∀ result, input.run t = .ok result →
      ∃ rows, (sorted input columns).run t = .ok { result with rows } ∧
        Sorts (fun row => columns.map (t.cell row)) direction result.rows rows := by
  intro sorted
  obtain ⟨positions, found⟩ := exists_positions_iff_mem.mpr known
  obtain ⟨positions', found'⟩ := exists_positions_iff_mem.mpr known'
  refine ⟨?_, ?_, fun name listed => ?_, fun result run => ?_⟩
  · rw [run_sort (mapM_index_append found found'), run_sort found, run_sort found']
    cases input.run t with
    | error e => rfl
    | ok result => simp only [Except.map, sortRows_append]
  · rw [run_sort found, run_sort found]
    cases input.run t with
    | error e => rfl
    | ok result => simp only [Except.map, sortRows_sortRows]
  · obtain ⟨i, index⟩ := Schema.exists_index_iff.mpr (known name listed)
    have again : (name :: columns').mapM t.schema.index = .ok (i :: positions') := by
      rw [List.mapM_cons, index, found']
      rfl
    have inside : i ∈ positions := mem_positions found listed index
    rw [run_sort (mapM_index_append found again), run_sort (mapM_index_append found found')]
    simp only [sortRows_repeated inside]
  · refine ⟨_, (run_sort found input direction).trans (congrArg _ run), ?_⟩
    rw [← keysAt_eq found]
    exact sorts_sortRows positions direction result.rows

end Plans

/-- Rows with equal texts and with two NaN, in descending order by both columns and by each. -/
theorem sort_is_its_parts_pair :
    let zero := Binary64.ofParts false 0
    let nan := Binary64.indefinite
    let db := Database.empty.behind
      [.createTable "t" [.plain "a" .real, .plain "b" .text],
        .insertRows "t" [[.real zero, .text "x"], [.real nan, .text "y"],
          [.real zero, .text "y"], [.real nan.negate, .text "y"], [.real zero, .null]]]
    let sorted (input : Plan) (columns : List String) : Plan := .sort input columns .descending
    let scan := Plan.scan "t" none
    ∃ t, db.table? "t" = some t ∧
      (sorted scan ["b", "a", "b"]).run t = (sorted (sorted scan ["a", "b"]) ["b"]).run t ∧
      (sorted scan ["b", "a", "b"]).run t = .ok ⟨["a", "b"],
        [[.real nan.negate, .text "y"], [.real zero, .text "y"], [.real nan, .text "y"],
          [.real zero, .text "x"], [.real zero, .null]], 0⟩ := by
  intro zero nan db sorted scan
  have computed : ((db.table? "t").map fun t =>
      (t.schema.columnNames, ((sorted scan ["b", "a", "b"]).run t).toOption)) =
      some (["a", "b"], some ⟨["a", "b"],
        [[.real nan.negate, .text "y"], [.real zero, .text "y"], [.real nan, .text "y"],
          [.real zero, .text "x"], [.real zero, .null]], 0⟩) := by
    simp only [zero, nan, db, sorted, scan]
    cbv
  obtain ⟨t, found, same⟩ := Option.map_eq_some_iff.mp computed
  obtain ⟨names, run⟩ := Prod.mk.inj same
  have known : ∀ name ∈ ["b"], name ∈ t.schema.columnNames := by simp [names]
  have known' : ∀ name ∈ ["a", "b"], name ∈ t.schema.columnNames := by simp [names]
  exact ⟨t, found, (sort_is_its_parts scan .descending known known').1, eq_ok_of_toOption run⟩

/-! ## Queries with and without a condition -/

section Conditions

variable {t : Table} {query : Select} {condition : Expr}

theorem Select.sorted_of_filter (filter : query.filter = some condition)
    (defined : ∀ row ∈ t.rows, ∃ v, condition.evalRow t row = .ok v) :
    query.sorted t = (Select.sorted { query with filter := none } t).map fun rows =>
      rows.filter fun row => isTrue (condition.evalRow t row) := by
  have scanned : t.scan query.filter = .ok (query.kept t) := by
    refine scan_eq_ok_iff.mpr ⟨fun row stored e fails => ?_, rfl⟩
    obtain ⟨v, value⟩ := defined row stored
    cases value.symm.trans ((filterFails_iff filter).mp fails)
  rw [sorted, sorted, scanned, kept_of_some filter]
  cases query.orderBy.mapM t.schema.index with
  | error e => rfl
  | ok positions => exact congrArg Except.ok (sortRows_filter positions query.direction t.rows _)

theorem interpret_of_all (items : query.items = [.all]) (limit : query.limit = none) :
    query.interpret t = (query.sorted t).map fun rows => ⟨t.schema.columnNames, rows, 0⟩ := by
  rw [interpret_eq_sorted]
  cases query.sorted t with
  | error e => rfl
  | ok rows =>
      have everything : query.first rows = rows := by rw [Select.first, limit]
      have shown : projectRows t query.items (query.first rows) = .ok rows := by
        rw [items, everything, projectRows_all]
      have names : query.items.flatMap (·.names t.schema) = t.schema.columnNames := by
        rw [items, List.flatMap_singleton, SelectItem.names]
      simp only [bind, Except.bind, shown, names, Except.map]

theorem Select.exists_sorted_iff (query : Select) (t : Table) (unfiltered : query.filter = none) :
    (∃ rows, query.sorted t = .ok rows) ↔ ∀ name ∈ query.orderBy, name ∈ t.schema.columnNames := by
  rw [← exists_positions_iff_mem, sorted, unfiltered]
  cases query.orderBy.mapM t.schema.index with
  | error e =>
      constructor
      · rintro ⟨rows, ⟨⟩⟩
      · rintro ⟨positions, ⟨⟩⟩
  | ok positions => exact ⟨fun _ => ⟨positions, rfl⟩, fun _ => ⟨_, rfl⟩⟩

end Conditions

/--
A condition takes rows away, and leaves the others in their order.  If it has a value on every row
of the table, a query for whole rows answers with the condition what it answers without, less the
rows on which the condition is not true.  There is an answer wherever all columns to sort by exist.
-/
theorem condition_only_removes_rows {db : Database} {source : String} {t : Table}
    {condition : Expr} (found : db.table? source = some t)
    (defined : ∀ row ∈ t.rows, ∃ v, condition.evalRow t row = .ok v) (columns : List String)
    (direction : Direction) :
    let answer (filter : Option Expr) : Except Error QueryResult :=
      (Select.mk [.all] source filter columns direction none).execute none db
    answer (some condition) = (answer none).map (fun result =>
      { result with rows := result.rows.filter fun row => isTrue (condition.evalRow t row) }) ∧
    ((∃ result, answer none = .ok result) ↔ ∀ name ∈ columns, name ∈ t.schema.columnNames) := by
  intro answer
  have run (filter : Option Expr) : answer filter =
      ((Select.mk [.all] source filter columns direction none).sorted t).map fun rows =>
        ⟨t.schema.columnNames, rows, 0⟩ :=
    (execute_of_found found).trans (interpret_of_all rfl rfl)
  constructor
  · rw [run, run, Select.sorted_of_filter rfl defined]
    cases Select.sorted _ t <;> rfl
  · rw [run]
    refine Iff.trans ?_
      (Select.exists_sorted_iff ⟨[.all], source, none, columns, direction, none⟩ t rfl)
    simp only [map_eq_ok_iff]
    constructor
    · rintro ⟨_, rows, sorted, -⟩
      exact ⟨rows, sorted⟩
    · rintro ⟨rows, sorted⟩
      exact ⟨_, rows, sorted, rfl⟩

/-- A condition that is true, false and `NULL`, and keys that are equal, `NULL` and NaN. -/
theorem condition_only_removes_rows_reals :
    let zero := Binary64.ofParts false 0
    let nan := Binary64.indefinite
    let db := Database.empty.behind
      [.createTable "t" [.plain "a" .real, .plain "b" .boolean],
        .insertRows "t" [[.null, .boolean true], [.real nan, .boolean true],
          [.real zero, .boolean true], [.real zero, .null], [.real zero, .boolean false],
          [.real nan.negate, .boolean true], [.real zero, .boolean true]]]
    let condition := Expr.column none "b"
    let answer (filter : Option Expr) : Except Error QueryResult :=
      (Select.mk [.all] "t" filter ["a"] .descending none).execute none db
    ∃ t, db.table? "t" = some t ∧
      answer (some condition) = (answer none).map (fun result =>
        { result with rows := result.rows.filter fun row => isTrue (condition.evalRow t row) }) ∧
      answer (some condition) = .ok ⟨["a", "b"],
        [[.real nan.negate, .boolean true], [.real zero, .boolean true],
          [.real zero, .boolean true], [.real nan, .boolean true], [.null, .boolean true]], 0⟩ := by
  intro zero nan db condition answer
  have computed : ((db.table? "t").map fun t =>
      t.rows.all fun row => (condition.evalRow t row).isOk) = some true := by
    simp only [zero, nan, db, condition]
    cbv
  have answered : ((Select.mk [.all] "t" (some condition) ["a"] .descending none).execute none
      db).toOption = some ⟨["a", "b"],
      [[.real nan.negate, .boolean true], [.real zero, .boolean true], [.real zero, .boolean true],
        [.real nan, .boolean true], [.null, .boolean true]], 0⟩ := by
    simp only [zero, nan, db, condition]
    cbv
  obtain ⟨t, found, all⟩ := Option.map_eq_some_iff.mp computed
  have defined : ∀ row ∈ t.rows, ∃ v, condition.evalRow t row = .ok v := fun row stored =>
    exists_ok (List.all_eq_true.mp all row stored)
  exact ⟨t, found, (condition_only_removes_rows found defined ["a"] .descending).1,
    eq_ok_of_toOption answered⟩

end Tabular
