import Mathlib.Logic.Basic
import Tabular.Proofs.Binary64.Bits
import Tabular.Value.Order

/-!
# The order of values is linear

A value has a rank, a number and a text, and values are ordered by the three in turn.  So their
order is total and transitive, and only a value itself is equal to it in the order.
-/

namespace Tabular.Value

/-- The number that values of a rank are ordered by. -/
def number : Value → Int
  | null => 0
  | integer n => n.toInt
  | real x => Binary64.orderKey x
  | text _ => 0
  | boolean b => b.toNat

/-- The text that values of a rank are ordered by. -/
def letters : Value → String
  | text s => s
  | _ => ""

theorem compare_toNat (b c : Bool) : compare b.toNat c.toNat = compare (b.toNat : Int) c.toNat := by
  cases b <;> cases c <;> rfl

theorem order_eq_compareLex (v w : Value) :
    v.order w =
      compareLex (compareOn rank) (compareLex (compareOn number) (compareOn letters)) v w := by
  cases v <;> cases w <;>
    simp [order, compareLex, compareOn, rank, number, letters, compare_toNat] <;> rfl

theorem eq_of_parts_eq {v w : Value} (rank : v.rank = w.rank) (number : v.number = w.number)
    (letters : v.letters = w.letters) : v = w := by
  cases v <;> cases w <;> simp [Value.rank] at rank
  case null.null => rfl
  case integer.integer n m => exact congrArg integer (Int64.toInt_inj.mp number)
  case real.real x y => exact congrArg real (Binary64.eq_of_orderKey_eq number)
  case text.text s t => exact congrArg text letters
  case boolean.boolean b c => cases b <;> cases c <;> simp_all [Value.number]

theorem compare_eq_compareLex :
    (compare : Value → Value → Ordering) =
      compareLex (compareOn rank) (compareLex (compareOn number) (compareOn letters)) :=
  funext₂ order_eq_compareLex

instance : Std.TransOrd Value := by
  unfold Std.TransOrd
  rw [compare_eq_compareLex]
  infer_instance

instance : Std.LawfulEqOrd Value where
  compare_self := Std.ReflOrd.compare_self
  eq_of_compare {v w} same := by
    rw [compare_eq_compareLex] at same
    simp only [compareLex, compareOn, Ordering.then_eq_eq, Std.compare_eq_iff_eq] at same
    exact eq_of_parts_eq same.1 same.2.1 same.2.2

end Tabular.Value
