import Tabular.Proofs.Binary64.Rounding
import Tabular.Proofs.Value.Order
import Tabular.Value.Operator

/-!
# The six comparisons

Two values have one order as operands of a comparison, or none, and the six comparisons read it off.
So they never contradict one another, whatever the types of the operands: one of less, equal and
greater holds, and the other three are their negations.
-/

namespace Tabular

/-! ## Reals as operands -/

namespace Binary64

theorem compare?_swap (x y : Binary64) : compare? x y = (compare? y x).map Ordering.swap := by
  unfold compare?
  rw [Bool.or_comm, Std.OrientedOrd.eq_swap (a := numberKey x)]
  split <;> rfl

theorem compare?_eq_none_iff {x y : Binary64} :
    compare? x y = none ↔ isNaN x = true ∨ isNaN y = true := by
  rw [compare?, ← Bool.or_eq_true]
  split <;> simp_all

end Binary64

theorem isNaN_promote (n : Int64) : Binary64.isNaN (promote n) = false := by
  have lower := n.le_toInt
  have upper := n.toInt_lt
  exact Binary64.isNaN_ofInt (by omega)

/-! ## The order of two operands -/

namespace Value

def isNumber : Value → Bool
  | integer _ | real _ => true
  | null | text _ | boolean _ => false

def isNaN : Value → Bool
  | real x => Binary64.isNaN x
  | _ => false

/-- One of the values is `NULL`, or both are numbers and one of them is NaN. -/
def Incomparable (v w : Value) : Prop :=
  v = null ∨ w = null ∨
    (v.isNumber = true ∧ w.isNumber = true) ∧ (v.isNaN = true ∨ w.isNaN = true)

theorem compare?_eq_none_iff {v w : Value} : v.compare? w = none ↔ v.Incomparable w := by
  unfold Incomparable
  cases v <;> cases w <;>
    simp [compare?, isNumber, isNaN, Binary64.compare?_eq_none_iff, isNaN_promote]

theorem compare?_swap (x y : Value) : x.compare? y = (y.compare? x).map Ordering.swap := by
  have swap : x.order y = (y.order x).swap := Std.OrientedOrd.eq_swap (α := Value)
  cases x <;> cases y
  case integer.real m y => exact Binary64.compare?_swap _ y
  case real.integer x n => exact Binary64.compare?_swap x _
  case real.real x y => exact Binary64.compare?_swap x y
  case' null.null | null.integer | null.real | null.text | null.boolean => rfl
  case' integer.null | real.null | text.null | boolean.null => rfl
  all_goals exact congrArg some swap

end Value

/-! ## The comparisons of two operands -/

namespace Comparison

/-- The comparison that says the same of the operands in the other order. -/
def converse : Comparison → Comparison
  | equal => equal
  | notEqual => notEqual
  | less => greater
  | greater => less
  | lessEqual => greaterEqual
  | greaterEqual => lessEqual

/-- The comparison that holds where this one does not. -/
def negation : Comparison → Comparison
  | equal => notEqual
  | notEqual => equal
  | less => greaterEqual
  | greater => lessEqual
  | lessEqual => greater
  | greaterEqual => less

theorem holds_converse (op : Comparison) (o : Ordering) :
    op.converse.holds o.swap = op.holds o := by
  cases op <;> cases o <;> rfl

theorem holds_negation (op : Comparison) (o : Ordering) : op.negation.holds o = !op.holds o := by
  cases op <;> cases o <;> rfl

theorem existsUnique_holds (o : Ordering) :
    ∃! op, op ∈ [less, equal, greater] ∧ holds op o = true := by
  cases o with
  | lt => exact ⟨less, by decide, fun op => by cases op <;> decide⟩
  | eq => exact ⟨equal, by decide, fun op => by cases op <;> decide⟩
  | gt => exact ⟨greater, by decide, fun op => by cases op <;> decide⟩

theorem apply_of_none {v w : Value} (op : Comparison) (unordered : v.compare? w = none) :
    op.apply v w = .null := by
  rw [apply, unordered]

theorem apply_of_some {v w : Value} {o : Ordering} (op : Comparison)
    (ordered : v.compare? w = some o) : op.apply v w = .boolean (op.holds o) := by
  rw [apply, ordered]

theorem apply_converse (op : Comparison) (v w : Value) : op.converse.apply w v = op.apply v w := by
  have swap := Value.compare?_swap w v
  cases ordered : v.compare? w with
  | none =>
      rw [ordered] at swap
      rw [apply_of_none op ordered, apply_of_none _ swap]
  | some o =>
      rw [ordered] at swap
      rw [apply_of_some op ordered, apply_of_some _ swap, holds_converse]

end Comparison

/--
The comparisons of two values are all `NULL`, where one value is `NULL` or one of two numbers is
NaN; everywhere else they are all true or false, one of less, equal and greater is true, and a
comparison is true where its negation is false.  With the operands swapped each says what its
converse says.
-/
theorem comparisons_are_consistent (v w : Value) :
    let compared (op : Comparison) (v w : Value) := (BinaryOp.comparison op).apply v w
    ((v.Incomparable w ∧ ∀ op, compared op v w = .ok .null) ∨
      ¬ v.Incomparable w ∧ ∃ truth : Comparison → Bool,
        (∀ op, compared op v w = .ok (.boolean (truth op))) ∧
        (∃! op, op ∈ [.less, .equal, .greater] ∧ truth op = true) ∧
        ∀ op, truth op.negation = !truth op) ∧
    ∀ op : Comparison, compared op.converse w v = compared op v w := by
  intro compared
  refine ⟨?_, fun op => congrArg Except.ok (op.apply_converse v w)⟩
  rw [← Value.compare?_eq_none_iff]
  cases ordered : v.compare? w with
  | none => exact .inl ⟨rfl, fun op => congrArg Except.ok (op.apply_of_none ordered)⟩
  | some o =>
      refine .inr ⟨Option.some_ne_none o, fun op => op.holds o, fun op => ?_, ?_, fun op => ?_⟩
      · exact congrArg Except.ok (op.apply_of_some ordered)
      · exact Comparison.existsUnique_holds o
      · exact op.holds_negation o

end Tabular
