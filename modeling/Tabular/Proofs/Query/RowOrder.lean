import Tabular.Proofs.Query.Sorting

/-!
# The order of values and of rows

The order of values is total and transitive, and no other value is equal to a given one: reals are
ordered by all their bits, also where they stand for no number.  Rows of one width are ordered by
the values at some columns in turn, in either direction, which leaves ties but no contradictions.
-/

namespace Tabular

variable {width : Nat}

/-- The order of two rows by the values at some columns, the first column first. -/
def orderAt : List (Fin width) → (Fin width → Value) → (Fin width → Value) → Ordering
  | [], _, _ => .eq
  | i :: columns, v, w => (compare (v i) (w i)).then (orderAt columns v w)

theorem orderAt_cons (i : Fin width) (columns : List (Fin width)) :
    orderAt (i :: columns) = compareLex (compareOn fun row => row i) (orderAt columns) :=
  rfl

instance transCmp_orderAt (columns : List (Fin width)) : Std.TransCmp (orderAt columns) := by
  induction columns with
  | nil => exact { eq_swap := rfl, isLE_trans := fun _ _ => rfl }
  | cons i columns ih =>
      rw [orderAt_cons]
      infer_instance

theorem Direction.transCmp_orient {α : Type} (direction : Direction) (cmp : α → α → Ordering)
    [Std.TransCmp cmp] : Std.TransCmp fun v w => direction.orient (cmp v w) := by
  cases direction with
  | ascending => assumption
  | descending =>
      have turned : (fun v w => (cmp v w).swap) = fun v w => cmp w v :=
        funext₂ fun v w => Std.OrientedCmp.eq_swap.symm
      change Std.TransCmp fun v w => (cmp v w).swap
      rw [turned]
      exact Std.TransCmp.opposite

def Row.cells (row : Row) (full : row.length = width) (i : Fin width) : Value :=
  row.get (i.cast full.symm)

theorem getD_eq_cells {row : Row} (full : row.length = width) (i : Fin width) :
    row.getD i .null = row.cells full i := by
  subst full
  simp [Row.cells]

theorem compareAt_eq_orderAt {v w : Row} (hv : v.length = width) (hw : w.length = width)
    (columns : List (Fin width)) :
    compareAt (columns.map Fin.val) v w = orderAt columns (v.cells hv) (w.cells hw) := by
  induction columns with
  | nil => rfl
  | cons i columns ih =>
      rw [List.map_cons, compareAt, orderAt, ih, getD_eq_cells hv, getD_eq_cells hw]

/--
The order of values is linear: of two values each comes before the other or is the same value, with
the same bits if it is a real, and the order is transitive.  The comparison of rows of one width by
some columns, in either direction, is total and transitive as well, and it is the one that a sort
works with.
-/
theorem values_and_rows_are_ordered :
    (∀ v w : Value, w.order v = (v.order w).swap) ∧
    (∀ u v w : Value, (u.order v).isLE = true → (v.order w).isLE = true →
      (u.order w).isLE = true) ∧
    (∀ v w : Value, v.order w = .eq ↔ v = w) ∧
    ∀ (width : Nat) (columns : List (Fin width)) (direction : Direction),
      let compared (v w : Fin width → Value) := direction.orient (orderAt columns v w)
      (∀ v w, compared w v = (compared v w).swap) ∧
      (∀ u v w, (compared u v).isLE = true → (compared v w).isLE = true →
        (compared u w).isLE = true) ∧
      ∀ (v w : Row) (hv : v.length = width) (hw : w.length = width),
        direction.orient (compareAt (columns.map Fin.val) v w) =
          compared (v.cells hv) (w.cells hw) := by
  have transCmp : Std.TransCmp Value.order := inferInstanceAs (Std.TransOrd Value)
  refine ⟨fun v w => Std.OrientedCmp.eq_swap, fun u v w => Std.TransCmp.isLE_trans,
    fun v w => Std.compare_eq_iff_eq (α := Value), fun width columns direction => ?_⟩
  intro compared
  have transCmp : Std.TransCmp compared := direction.transCmp_orient (orderAt columns)
  refine ⟨fun v w => transCmp.eq_swap, fun u v w => transCmp.isLE_trans, fun v w hv hw => ?_⟩
  rw [compareAt_eq_orderAt hv hw]

/-- The zeros differ, and every NaN stands at the end that its sign names. -/
example : (Value.real ⟨0x8000000000000000⟩).order (.real ⟨0⟩) = .lt ∧
    (Value.real ⟨0xfff8000000000000⟩).order (.real ⟨0xfff0000000000000⟩) = .lt ∧
    (Value.real ⟨0x7ff8000000000000⟩).order (.real ⟨0x7ff8000000000001⟩) = .lt := by
  decide

end Tabular
