import Tabular.Proofs.Expr.Typing
import Tabular.Proofs.Query.Interpretation
import Tabular.Proofs.Value.Comparison

/-!
# Sorting and comparing

Rows are sorted by the order of values.  Expressions compare values by an order of their own, in
which numbers of both types meet, the zeros are equal, and `NULL` and NaN have no place.  On values
of one type the two agree: what a sort puts first is never greater in a comparison.
-/

namespace Tabular

/-! ## Reals -/

namespace Binary64

theorem numberKey_mono {x y : Binary64} (h : orderKey x ≤ orderKey y) :
    numberKey x ≤ numberKey y := by
  unfold orderKey at h
  unfold numberKey
  cases first : isNegative x <;> cases second : isNegative y <;> simp [first, second] at h ⊢ <;>
    omega

end Binary64

/-! ## Values of one type -/

namespace Value

variable {ty : DataType} {x y : Value}

/-- `NULL` and NaN are before and behind nothing in a comparison. -/
def isUnordered : Value → Bool
  | null => true
  | real x => Binary64.isNaN x
  | _ => false

/-- Values in the order of a sort are in the order of a comparison, unless they have none. -/
theorem lessEqual_of_isLE (hx : x.Fits ty) (hy : y.Fits ty) (le : (compare x y).isLE = true) :
    Comparison.lessEqual.apply x y =
      if x.isUnordered || y.isUnordered then .null else .boolean true := by
  rcases hx with rfl | hx
  · rfl
  rcases hy with rfl | hy
  · cases x <;> simp [Comparison.apply, compare?, isUnordered]
  cases x <;> cases hx <;> cases y <;> cases hy
  case real.refl.real.refl x y =>
    have keys : (compare (Binary64.numberKey x) (Binary64.numberKey y)).isLE = true :=
      Int.isLE_compare.mpr (Binary64.numberKey_mono (Int.isLE_compare.mp le))
    by_cases unordered : (Binary64.isNaN x || Binary64.isNaN y) = true
    · have nothing : (real x).compare? (real y) = none := if_pos unordered
      rw [Comparison.apply, nothing]
      exact (if_pos unordered).symm
    · have numbers : (real x).compare? (real y) = some (compare _ _) := if_neg unordered
      rw [Comparison.apply, numbers]
      exact (congrArg boolean keys).trans (if_neg unordered).symm
  all_goals exact congrArg boolean le

theorem eq_null_of_isLE (le : (compare x null).isLE = true) : x = null := by
  cases x with
  | null => rfl
  | _ => cases le

end Value

/-! ## Columns of sorted rows -/

namespace Direction

def comparison : Direction → Comparison
  | ascending => .lessEqual
  | descending => .greaterEqual

/-- A comparison of the first value with the second does not contradict their order. -/
structure Agrees (direction : Direction) (x y : Value) : Prop where
  compared : (BinaryOp.comparison direction.comparison).apply x y =
    .ok (if x.isUnordered || y.isUnordered then .null else .boolean true)
  /-- `NULL` comes first where the order ascends, and last where it descends. -/
  nulls : match direction with
    | ascending => y = .null → x = .null
    | descending => x = .null → y = .null

variable {direction : Direction} {ty : DataType} {x y : Value}

theorem agrees (hx : x.Fits ty) (hy : y.Fits ty)
    (ordered : (direction.orient (compare x y)).isLE = true) : direction.Agrees x y := by
  cases direction with
  | ascending =>
      refine ⟨congrArg Except.ok (Value.lessEqual_of_isLE hx hy ordered), ?_⟩
      rintro rfl
      exact Value.eq_null_of_isLE ordered
  | descending =>
      have reversed : (compare y x).isLE = true := by
        rw [Std.OrientedOrd.eq_swap (a := y)]
        exact ordered
      have compared := Value.lessEqual_of_isLE hy hx reversed
      rw [← Comparison.apply_converse, Bool.or_comm] at compared
      refine ⟨congrArg Except.ok compared, ?_⟩
      rintro rfl
      exact Value.eq_null_of_isLE reversed

end Direction

/-- `SELECT * FROM source WHERE filter ORDER BY name direction LIMIT limit`. -/
def Select.sortedBy (source : String) (filter : Option Expr) (name : String)
    (direction : Direction) (limit : Option UInt64) : Select :=
  { items := [.all], source, filter, orderBy := [name], direction, limit }

section

variable {source name : String} {filter : Option Expr} {direction : Direction}
  {limit : Option UInt64} {t : Table} {result : QueryResult}

theorem interpret_sortedBy
    (run : (Select.sortedBy source filter name direction limit).interpret t = .ok result) :
    ∃ i, t.schema.index name = .ok i ∧ result.columns = t.schema.columnNames ∧
      (∀ row ∈ result.rows, row ∈ t.rows) ∧
      result.rows.Pairwise fun v w =>
        (direction.orient (compare (v.getD i .null) (w.getD i .null))).isLE = true := by
  rw [interpret_eq] at run
  obtain ⟨rows, scanned, run⟩ := bind_eq_ok_iff.mp run
  obtain ⟨positions, found, run⟩ := bind_eq_ok_iff.mp run
  obtain ⟨i, index, here⟩ := bind_eq_ok_iff.mp (List.mapM_cons.symm.trans found)
  cases here
  obtain ⟨shown, projected, run⟩ := bind_eq_ok_iff.mp run
  cases (projectRows_all _ _).symm.trans projected
  cases run
  obtain ⟨-, rfl⟩ := scan_eq_ok_iff.mp scanned
  refine ⟨i, index, List.append_nil _, fun row member => ?_, ?_⟩
  · have sorted := (Select.first_sublist _ _).subset member
    exact List.mem_of_mem_filter ((sorts_sortRows _ _ _).reordered.subset sorted)
  · refine ((pairwise_sortRows [i] direction _).sublist (Select.first_sublist _ _)).imp ?_
    intro v w ordered
    simpa [inOrder, compareAt] using ordered

end

/--
The values of the column that a query sorts by, row by row: each of them compares with all behind it
as the direction says, or not at all, and every `NULL` is at the one end.
-/
theorem sort_agrees_with_comparison {db : Database} {source name : String} {filter : Option Expr}
    {direction : Direction} {limit : Option UInt64} {result : QueryResult}
    (reachable : db.Reachable)
    (answer : (Select.sortedBy source filter name direction limit).execute none db = .ok result) :
    ∃ (i : Nat) (values : List Value), result.columns[i]? = some name ∧
      result.rows.map (fun row => row[i]?) = values.map some ∧
      values.Pairwise direction.Agrees := by
  cases found : db.table? source with
  | none => cases (execute_of_missing found).symm.trans answer
  | some t =>
      have run := (execute_of_found found).symm.trans answer
      obtain ⟨i, index, columns, stored, ordered⟩ := interpret_sortedBy run
      have named : t.schema.columnNames[i]? = some name := Schema.index_eq_ok_iff.mp index
      obtain ⟨c, column, -⟩ : ∃ c, t.schema.columns[i]? = some c ∧ c.name = name := by
        simpa [Schema.columnNames] using named
      have cell (row : Row) (member : row ∈ result.rows) :
          row[i]? = some (row.getD i .null) ∧ (row.getD i .null).Fits c.dataType := by
        have fits := (reachable.wellFormed source t found).2.fitting row (stored row member)
        exact fits.cell column
      refine ⟨i, result.rows.map (·.getD i .null), columns ▸ named, ?_, ?_⟩
      · rw [List.map_map]
        exact List.map_congr_left fun row member => (cell row member).1
      · refine List.pairwise_map.mpr (ordered.imp_of_mem fun first second le => ?_)
        exact Direction.agrees (cell _ first).2 (cell _ second).2 le

/-- In the descending order of reals the zeros differ, a NaN is at either end, `NULL` cut off. -/
theorem sort_agrees_with_comparison_reals :
    let zero := Binary64.ofParts false 0
    let nan := Binary64.indefinite
    let db := Database.empty.behind
      [.createTable "t" [.plain "c" .real],
        .insertRows "t"
          [[.null], [.real nan], [.real zero.negate], [.real nan.negate], [.real zero]]]
    let rows : List Row := [[.real nan.negate], [.real zero], [.real zero.negate], [.real nan]]
    (Select.sortedBy "t" none "c" .descending (some 4)).execute none db = .ok ⟨["c"], rows, 0⟩ ∧
      ∃ (i : Nat) (values : List Value), ["c"][i]? = some "c" ∧
        rows.map (fun row => row[i]?) = values.map some ∧
        values.Pairwise Direction.descending.Agrees := by
  intro zero nan db rows
  have answer : ((Select.sortedBy "t" none "c" .descending (some 4)).execute none db).toOption =
      some ⟨["c"], [[.real nan.negate], [.real zero], [.real zero.negate], [.real nan]], 0⟩ := by
    simp only [zero, nan, db]
    cbv
  exact ⟨eq_ok_of_toOption answer,
    sort_agrees_with_comparison (.calls _) (eq_ok_of_toOption answer)⟩

end Tabular
