import Mathlib
import Tabular.Plan.Run
import Tabular.Proofs.Value.Order

/-!
# Stable sorting

A stable sort is determined by what it does: its rows are in order, and rows that the order does not
tell apart stand as they stood before.  No other list is both.  The sort of rows by the values at
some positions is the lexicographic one.
-/

namespace Tabular

/-! ## Ordered lists that keep ties -/

section Ties

variable {α : Type} {le : α → α → Bool}

/-- The order does not tell `a` and `b` apart. -/
def tied (le : α → α → Bool) (a b : α) : Bool :=
  le a b && le b a

theorem tied_iff {a b : α} : tied le a b = true ↔ le a b = true ∧ le b a = true :=
  Bool.and_eq_true_iff

theorem tied_self (total : ∀ a b, (le a b || le b a) = true) (a : α) : tied le a a = true := by
  simpa [tied] using total a a

theorem pairwise_filter_tied (trans : ∀ a b c, le a b = true → le b c = true → le a c = true)
    (rows : List α) (a : α) : (rows.filter (tied le a)).Pairwise fun b c => le b c = true := by
  rw [List.pairwise_filter]
  refine List.pairwise_of_forall fun b c tiedB tiedC => ?_
  exact trans b a c (tied_iff.mp tiedB).2 (tied_iff.mp tiedC).1

theorem filter_tied_mergeSort (trans : ∀ a b c, le a b = true → le b c = true → le a c = true)
    (total : ∀ a b, (le a b || le b a) = true) (rows : List α) (a : α) :
    (rows.mergeSort le).filter (tied le a) = rows.filter (tied le a) := by
  have kept : (rows.filter (tied le a)).Sublist (rows.mergeSort le) :=
    List.sublist_mergeSort trans total (pairwise_filter_tied trans rows a) List.filter_sublist
  have inside := kept.filter (tied le a)
  simp only [List.filter_filter, Bool.and_self] at inside
  have count := ((List.mergeSort_perm rows le).filter (tied le a)).length_eq
  exact (inside.eq_of_length count.symm).symm

theorem le_head_of_same_ties (total : ∀ a b, (le a b || le b a) = true) {a b : α}
    {others others' : List α} (ordered : (b :: others').Pairwise fun b c => le b c = true)
    (same : ∀ c, (a :: others).filter (tied le c) = (b :: others').filter (tied le c)) :
    le b a = true := by
  have inside : a ∈ (b :: others').filter (tied le a) := by
    rw [← same a, List.filter_cons_of_pos (tied_self total a)]
    exact List.mem_cons_self
  rcases List.mem_cons.mp (List.mem_of_mem_filter inside) with rfl | later
  · exact (tied_iff.mp (tied_self total a)).1
  · exact (List.pairwise_cons.mp ordered).1 a later

/-- An order and the order of the ties leave no choice. -/
theorem eq_of_ordered_of_same_ties (total : ∀ a b, (le a b || le b a) = true) {rows rows' : List α}
    (ordered : rows.Pairwise fun b c => le b c = true)
    (ordered' : rows'.Pairwise fun b c => le b c = true)
    (same : ∀ c, rows.filter (tied le c) = rows'.filter (tied le c)) : rows = rows' := by
  induction rows generalizing rows' with
  | nil =>
      cases rows' with
      | nil => rfl
      | cons b others' =>
          have none := same b
          rw [List.filter_nil, List.filter_cons_of_pos (tied_self total b)] at none
          cases none
  | cons a others ih =>
      cases rows' with
      | nil =>
          have none := same a
          rw [List.filter_nil, List.filter_cons_of_pos (tied_self total a)] at none
          cases none
      | cons b others' =>
          -- The heads are tied with one another, so both lead the ties of either.
          have below := le_head_of_same_ties total ordered' same
          have above := le_head_of_same_ties total ordered fun c => (same c).symm
          have heads := same a
          rw [List.filter_cons_of_pos (tied_self total a),
            List.filter_cons_of_pos (tied_iff.mpr ⟨above, below⟩)] at heads
          obtain ⟨rfl, -⟩ := List.cons.inj heads
          have rest : others = others' := by
            refine ih (List.pairwise_cons.mp ordered).2 (List.pairwise_cons.mp ordered').2 ?_
            intro c
            have both := same c
            by_cases here : tied le c a = true
            · rw [List.filter_cons_of_pos here, List.filter_cons_of_pos here] at both
              exact (List.cons.inj both).2
            · rw [List.filter_cons_of_neg here, List.filter_cons_of_neg here] at both
              exact both
          rw [rest]

end Ties

/-! ## Rows by the values at some positions -/

def keysAt (positions : List Nat) (row : Row) : List Value :=
  positions.map fun i => row.getD i .null

def Value.Before (v w : Value) : Prop :=
  compare v w = .lt

/-- Of two lists of keys, one comes before the other where the first keys that differ do. -/
def Direction.Precedes : Direction → List Value → List Value → Prop
  | ascending, keys, keys' => List.Lex Value.Before keys keys'
  | descending, keys, keys' => List.Lex Value.Before keys' keys

variable {positions : List Nat} {direction : Direction} {v w : Row}

theorem compareAt_eq_eq_iff :
    compareAt positions v w = .eq ↔ keysAt positions v = keysAt positions w := by
  induction positions with
  | nil => simp [compareAt, keysAt]
  | cons i positions ih =>
      simp only [compareAt, Ordering.then_eq_eq, Std.compare_eq_iff_eq, ih, keysAt, List.map_cons,
        List.cons.injEq]

theorem compareAt_eq_lt_iff :
    compareAt positions v w = .lt ↔
      List.Lex Value.Before (keysAt positions v) (keysAt positions w) := by
  induction positions with
  | nil => simp [compareAt, keysAt]
  | cons i positions ih =>
      simp only [compareAt, Ordering.then_eq_lt, Std.compare_eq_iff_eq, ih, keysAt, List.map_cons,
        List.cons_lex_cons_iff, Value.Before]

instance : Std.TransCmp fun (_ _ : Row) => Ordering.eq where
  eq_swap := rfl
  isLE_trans _ _ := rfl

theorem compareAt_cons (i : Nat) (positions : List Nat) :
    compareAt (i :: positions) =
      compareLex (compareOn fun row : Row => row.getD i .null) (compareAt positions) :=
  rfl

instance transCmp_compareAt (positions : List Nat) : Std.TransCmp (compareAt positions) := by
  induction positions with
  | nil => exact inferInstanceAs (Std.TransCmp fun (_ _ : Row) => Ordering.eq)
  | cons i positions ih =>
      rw [compareAt_cons]
      infer_instance

theorem compareAt_swap (positions : List Nat) (v w : Row) :
    compareAt positions w v = (compareAt positions v w).swap :=
  Std.OrientedCmp.eq_swap

/-! ## The sort of rows -/

/-- May the first row stand before the second? -/
def inOrder (positions : List Nat) (direction : Direction) (v w : Row) : Bool :=
  (direction.orient (compareAt positions v w)).isLE

theorem inOrder_ascending (positions : List Nat) (v w : Row) :
    inOrder positions .ascending v w = (compareAt positions v w).isLE :=
  rfl

theorem inOrder_descending (positions : List Nat) (v w : Row) :
    inOrder positions .descending v w = (compareAt positions w v).isLE := by
  rw [compareAt_swap]
  rfl

theorem inOrder_trans (positions : List Nat) (direction : Direction) (u v w : Row)
    (first : inOrder positions direction u v = true)
    (second : inOrder positions direction v w = true) :
    inOrder positions direction u w = true := by
  cases direction with
  | ascending =>
      rw [inOrder_ascending] at *
      exact Std.TransCmp.isLE_trans first second
  | descending =>
      rw [inOrder_descending] at *
      exact Std.TransCmp.isLE_trans second first

theorem inOrder_total (positions : List Nat) (direction : Direction) (v w : Row) :
    (inOrder positions direction v w || inOrder positions direction w v) = true := by
  have total : ((compareAt positions v w).isLE || (compareAt positions w v).isLE) = true := by
    rw [compareAt_swap positions v w]
    cases compareAt positions v w <;> rfl
  cases direction with
  | ascending => exact total
  | descending => rwa [inOrder_descending, inOrder_descending, Bool.or_comm]

theorem inOrder_iff :
    inOrder positions direction v w = true ↔
      ¬ direction.Precedes (keysAt positions w) (keysAt positions v) := by
  have isLE (v w : Row) : (compareAt positions v w).isLE = true ↔
      ¬ List.Lex Value.Before (keysAt positions w) (keysAt positions v) := by
    rw [← compareAt_eq_lt_iff, compareAt_swap positions v w]
    cases compareAt positions v w <;> simp
  cases direction with
  | ascending => exact isLE v w
  | descending =>
      rw [inOrder_descending]
      exact isLE w v

theorem tied_inOrder_iff :
    tied (inOrder positions direction) v w = true ↔ keysAt positions v = keysAt positions w := by
  rw [tied_iff, ← compareAt_eq_eq_iff]
  unfold inOrder
  rw [compareAt_swap positions v w]
  cases direction <;> cases compareAt positions v w <;> simp [Direction.orient]

theorem filter_tied_inOrder (row : Row) (rows : List Row) :
    rows.filter (tied (inOrder positions direction) row) =
      rows.filter fun other => keysAt positions other = keysAt positions row := by
  refine List.filter_congr fun other _ => ?_
  rw [Bool.eq_iff_iff, tied_inOrder_iff, decide_eq_true_iff]
  exact eq_comm

/-- Rows sorted by keys: the same rows, never one before another that precedes it, and in their old
order where they have the same keys. -/
structure Sorts (keys : Row → List Value) (direction : Direction) (rows sorted : List Row) :
    Prop where
  reordered : sorted.Perm rows
  ordered : sorted.Pairwise fun v w => ¬ direction.Precedes (keys w) (keys v)
  stable : ∀ row, (sorted.filter fun other => keys other = keys row) =
    rows.filter fun other => keys other = keys row

theorem pairwise_sortRows (positions : List Nat) (direction : Direction) (rows : List Row) :
    (sortRows positions direction rows).Pairwise fun v w =>
      inOrder positions direction v w = true :=
  List.pairwise_mergeSort (inOrder_trans positions direction) (inOrder_total positions direction)
    rows

theorem sorts_sortRows (positions : List Nat) (direction : Direction) (rows : List Row) :
    Sorts (keysAt positions) direction rows (sortRows positions direction rows) where
  reordered := List.mergeSort_perm _ _
  ordered := (pairwise_sortRows positions direction rows).imp inOrder_iff.mp
  stable row := by
    have kept := filter_tied_mergeSort (inOrder_trans positions direction)
      (inOrder_total positions direction) rows row
    rw [filter_tied_inOrder, filter_tied_inOrder] at kept
    exact kept

/-- There is one way to sort rows. -/
theorem Sorts.eq_sortRows {rows sorted : List Row}
    (h : Sorts (keysAt positions) direction rows sorted) :
    sorted = sortRows positions direction rows := by
  have h' := sorts_sortRows positions direction rows
  refine eq_of_ordered_of_same_ties (inOrder_total positions direction)
    (h.ordered.imp inOrder_iff.mpr) (h'.ordered.imp inOrder_iff.mpr) fun row => ?_
  rw [filter_tied_inOrder, filter_tied_inOrder, h.stable, h'.stable]

end Tabular
