import Mathlib.Tactic.ByContra
import Mathlib.Tactic.Tauto
import Tabular.Proofs.Value.Comparison

/-!
# How far comparisons are transitive

Two integers are compared as they are, an integer beside a real as the real that it is rounded to.
The order of all values with their integers rounded is linear, and rounding keeps the order of
integers.  So comparisons are transitive but for one case: two integers may meet in one real, which
then equals both of them, though they differ.
-/

namespace Tabular

theorem promote_mono {m n : Int64} (le : m.toInt ≤ n.toInt) :
    Binary64.numberKey (promote m) ≤ Binary64.numberKey (promote n) := by
  have lower := m.le_toInt
  have upper := n.toInt_lt
  exact Binary64.numberKey_ofInt_mono (by omega) (by omega) le

namespace Comparison

theorem apply_eq_true_iff {op : Comparison} {v w : Value} :
    op.apply v w = .boolean true ↔ ∃ o, v.compare? w = some o ∧ op.holds o = true := by
  cases ordered : v.compare? w with
  | none => simp [apply_of_none op ordered]
  | some o => simp [apply_of_some op ordered]

theorem equal_iff_lessEqual {v w : Value} :
    equal.apply v w = .boolean true ↔
      lessEqual.apply v w = .boolean true ∧ lessEqual.apply w v = .boolean true := by
  simp only [apply_eq_true_iff, Value.compare?_swap w v]
  cases v.compare? w with
  | none => simp
  | some o => cases o <;> simp [holds]

end Comparison

namespace Value

variable {v w x : Value} {o : Ordering}

/-! ## The order with integers rounded -/

/-- Both types of numbers are of one kind. -/
def kind : Value → Nat
  | null => 0
  | integer _ | real _ => 1
  | text _ => 2
  | boolean _ => 3

/-- The number that values of a kind are ordered by, an integer as the real it is rounded to. -/
def roundedNumber : Value → Int
  | integer n => Binary64.numberKey (promote n)
  | real x => Binary64.numberKey x
  | boolean b => b.toNat
  | null | text _ => 0

def roundedOrder : Value → Value → Ordering :=
  compareLex (compareOn kind) (compareLex (compareOn roundedNumber) (compareOn letters))

instance : Std.TransCmp roundedOrder :=
  inferInstanceAs (Std.TransCmp (compareLex _ (compareLex _ _)))

def isInteger : Value → Bool
  | integer _ => true
  | _ => false

theorem isNumber_iff_kind : v.isNumber = true ↔ v.kind = 1 := by
  cases v <;> simp [isNumber, kind]

theorem roundedOrder_numbers (v w : Value) (first : v.isNumber = true)
    (second : w.isNumber = true) :
    v.roundedOrder w = compare v.roundedNumber w.roundedNumber := by
  cases v <;> cases first <;> cases w <;> cases second <;>
    simp [roundedOrder, compareLex, compareOn, kind, letters]

theorem kind_le_of_isLE (le : (v.roundedOrder w).isLE = true) : v.kind ≤ w.kind :=
  Nat.isLE_compare.mp (Ordering.isLE_left_of_isLE_then le)

/-! ## Comparisons by that order -/

theorem compare?_reals {x y : Binary64} (ordered : Binary64.compare? x y = some o) :
    o = compare (Binary64.numberKey x) (Binary64.numberKey y) := by
  unfold Binary64.compare? at ordered
  split at ordered
  · cases ordered
  · exact (Option.some.inj ordered).symm

theorem compare?_eq_rounded (ordered : v.compare? w = some o)
    (apart : v.isInteger = false ∨ w.isInteger = false) : o = v.roundedOrder w := by
  cases v <;> cases w
  case integer.integer m n => simp [isInteger] at apart
  case integer.real m y =>
    rw [roundedOrder_numbers (integer m) (real y) rfl rfl]
    exact compare?_reals ordered
  case real.integer x n =>
    rw [roundedOrder_numbers (real x) (integer n) rfl rfl]
    exact compare?_reals ordered
  case real.real x y =>
    rw [roundedOrder_numbers (real x) (real y) rfl rfl]
    exact compare?_reals ordered
  case boolean.boolean b c =>
    cases ordered
    simp [order, roundedOrder, compareLex, compareOn, kind, roundedNumber, letters, compare_toNat]
  all_goals cases ordered <;> rfl

theorem apply_eq_rounded (op : Comparison) (comparable : ¬ v.Incomparable w)
    (apart : v.isInteger = false ∨ w.isInteger = false) :
    op.apply v w = .boolean (op.holds (v.roundedOrder w)) := by
  rw [← compare?_eq_none_iff] at comparable
  obtain ⟨o, ordered⟩ := Option.ne_none_iff_exists'.mp comparable
  rw [op.apply_of_some ordered, compare?_eq_rounded ordered apart]

theorem roundedOrder_of_lessEqual (le : Comparison.lessEqual.apply v w = .boolean true) :
    (v.roundedOrder w).isLE = true := by
  obtain ⟨o, ordered, holds⟩ := Comparison.apply_eq_true_iff.mp le
  by_cases apart : v.isInteger = false ∨ w.isInteger = false
  · exact compare?_eq_rounded ordered apart ▸ holds
  · cases v <;> cases w <;> simp [isInteger] at apart
    case integer.integer m n =>
      cases ordered
      rw [roundedOrder_numbers _ _ rfl rfl, Int.isLE_compare]
      exact promote_mono (Int.isLE_compare.mp holds)

theorem lessEqual_integers {m n : Int64} :
    Comparison.lessEqual.apply (integer m) (integer n) = .boolean true ↔ m.toInt ≤ n.toInt := by
  rw [Comparison.apply_of_some _ rfl, boolean.injEq]
  exact Int.isLE_compare

theorem comparable_of_lessEqual (le : Comparison.lessEqual.apply v w = .boolean true) :
    ¬ v.Incomparable w := by
  obtain ⟨o, ordered, -⟩ := Comparison.apply_eq_true_iff.mp le
  exact compare?_eq_none_iff.not.mp (by simp [ordered])

/-! ## Chains of comparisons -/

/-- Two different integers, the greater one first, and between them a real that equals both. -/
inductive Meet : Value → Value → Value → Prop where
  | rounded {m n : Int64} {y : Binary64} : n.toInt < m.toInt →
      Comparison.equal.apply (integer m) (real y) = .boolean true →
      Comparison.equal.apply (real y) (integer n) = .boolean true →
      Meet (integer m) (real y) (integer n)

theorem Meet.less {m n : Int64} (meet : (integer m).Meet w (integer n)) : n.toInt < m.toInt := by
  cases meet with
  | rounded less => exact less

section

variable (first : Comparison.lessEqual.apply v w = .boolean true)
  (second : Comparison.lessEqual.apply w x = .boolean true)

include first second

theorem comparable_of_chain : ¬ v.Incomparable x := by
  have left := comparable_of_lessEqual first
  have right := comparable_of_lessEqual second
  have below := kind_le_of_isLE (roundedOrder_of_lessEqual first)
  have above := kind_le_of_isLE (roundedOrder_of_lessEqual second)
  simp only [Incomparable, isNumber_iff_kind] at left right ⊢
  -- A chain between two numbers passes through numbers only.
  have between (number : v.kind = 1) (number' : x.kind = 1) : w.kind = 1 := by omega
  tauto

theorem meet_of_chain (out : Comparison.lessEqual.apply v x ≠ .boolean true)
    (integers : ¬ (v.isInteger = false ∨ x.isInteger = false)) : v.Meet w x := by
  have below := roundedOrder_of_lessEqual first
  have above := roundedOrder_of_lessEqual second
  cases v <;> cases x <;> simp [isInteger] at integers
  case integer.integer m n =>
    have less : n.toInt < m.toInt := by
      rw [ne_eq, lessEqual_integers] at out
      omega
    cases w with
    | null => cases first
    | integer k =>
        rw [lessEqual_integers] at first second
        omega
    | real y =>
        have back : ((integer n).roundedOrder (integer m)).isLE = true :=
          roundedOrder_of_lessEqual (lessEqual_integers.mpr (Int.le_of_lt less))
        have equal : (integer m).roundedOrder (real y) = .eq :=
          Std.OrientedCmp.isLE_antisymm below (Std.TransCmp.isLE_trans above back)
        have equal' : (real y).roundedOrder (integer n) = .eq :=
          Std.OrientedCmp.isLE_antisymm above (Std.TransCmp.isLE_trans back below)
        refine .rounded less ?_ ?_
        · rw [apply_eq_rounded _ (comparable_of_lessEqual first) (.inr rfl), equal]
          rfl
        · rw [apply_eq_rounded _ (comparable_of_lessEqual second) (.inl rfl), equal']
          rfl
    | text s =>
        have kinds := kind_le_of_isLE above
        simp [kind] at kinds
    | boolean b =>
        have kinds := kind_le_of_isLE above
        simp [kind] at kinds

theorem lessEqual_iff_of_chain :
    Comparison.lessEqual.apply v x = .boolean true ↔ ¬ v.Meet w x := by
  by_cases apart : v.isInteger = false ∨ x.isInteger = false
  · have chain : (v.roundedOrder x).isLE = true :=
      Std.TransCmp.isLE_trans (roundedOrder_of_lessEqual first) (roundedOrder_of_lessEqual second)
    refine iff_of_true ?_ ?_
    · rw [apply_eq_rounded _ (comparable_of_chain first second) apart]
      exact congrArg boolean chain
    · rintro ⟨⟩
      simp [isInteger] at apart
  · refine ⟨fun le meet => ?_, fun apart' => ?_⟩
    · cases meet with
      | rounded less => exact absurd (lessEqual_integers.mp le) (Int.not_le.mpr less)
    · by_contra out
      exact apart' (meet_of_chain first second out apart)

end

/-- Integers that meet in a real are not both among those that have a real each. -/
theorem Meet.exists_large (meet : v.Meet w x) :
    ∃ k : Int64, (v = integer k ∨ x = integer k) ∧ 2 ^ 53 < k.toInt.natAbs := by
  obtain @⟨m, n, y, less, same, same'⟩ := meet
  have number {v w : Value} (same : Comparison.equal.apply v w = .boolean true)
      (first : v.isNumber = true) (second : w.isNumber = true) :
      v.roundedNumber = w.roundedNumber := by
    obtain ⟨le, ge⟩ := Comparison.equal_iff_lessEqual.mp same
    have below := roundedOrder_of_lessEqual le
    have above := roundedOrder_of_lessEqual ge
    rw [roundedOrder_numbers _ _ first second, Int.isLE_compare] at below
    rw [roundedOrder_numbers _ _ second first, Int.isLE_compare] at above
    omega
  have keys : Binary64.numberKey (promote m) = Binary64.numberKey (promote n) :=
    (number same rfl rfl).trans (number same' rfl rfl)
  by_contra small
  simp only [not_exists, not_and, Nat.not_lt] at small
  have equal := Binary64.eq_of_numberKey_ofInt_eq (small m (.inl rfl)) (small n (.inr rfl)) keys
  omega

end Value

/--
What is at most, or equal to, a value that is so to a third one is so to the third one itself,
whatever their types, unless the outer values are two integers that meet in the middle one.  One of
two such integers is beyond `2 ^ 53`.
-/
theorem comparisons_are_transitive_unless_rounded (v w x : Value) :
    let holds (op : Comparison) (v w : Value) : Prop :=
      (BinaryOp.comparison op).apply v w = .ok (.boolean true)
    (holds .lessEqual v w → holds .lessEqual w x → (holds .lessEqual v x ↔ ¬ v.Meet w x)) ∧
    (holds .equal v w → holds .equal w x →
      (holds .equal v x ↔ ¬ v.Meet w x ∧ ¬ x.Meet w v)) ∧
    (v.Meet w x → ∃ k : Int64, (v = .integer k ∨ x = .integer k) ∧ 2 ^ 53 < k.toInt.natAbs) := by
  intro holds
  have compares (op : Comparison) (v w : Value) : holds op v w ↔ op.apply v w = .boolean true :=
    Except.ok.injEq _ _ ▸ Iff.rfl
  simp only [compares]
  refine ⟨fun first second => Value.lessEqual_iff_of_chain first second,
    fun first second => ?_, fun meet => meet.exists_large⟩
  obtain ⟨below, above⟩ := Comparison.equal_iff_lessEqual.mp first
  obtain ⟨below', above'⟩ := Comparison.equal_iff_lessEqual.mp second
  rw [Comparison.equal_iff_lessEqual, Value.lessEqual_iff_of_chain below below',
    Value.lessEqual_iff_of_chain above' above]

/-- Two integers around the first that has no real of its own, and the real between them. -/
theorem comparisons_are_transitive_unless_rounded_edge :
    let holds (op : Comparison) (v w : Value) : Prop :=
      (BinaryOp.comparison op).apply v w = .ok (.boolean true)
    let less := Value.integer 9007199254740992
    let middle := Value.real (Binary64.ofInt 9007199254740992)
    let greater := Value.integer 9007199254740993
    holds .lessEqual less middle ∧ holds .lessEqual middle greater ∧
      holds .lessEqual less greater ∧ greater.Meet middle less ∧
      ¬ holds .lessEqual greater less := by
  intro holds less middle greater
  have below : holds .lessEqual less middle ∧ holds .lessEqual middle less := by
    decide +kernel
  have above : holds .lessEqual middle greater ∧ holds .lessEqual greater middle := by
    decide +kernel
  have meet : greater.Meet middle less := by
    refine .rounded (by decide) ?_ ?_ <;> decide +kernel
  have apart : ¬ less.Meet middle greater := fun other => absurd other.less (by decide)
  obtain ⟨forward, -, -⟩ := comparisons_are_transitive_unless_rounded less middle greater
  obtain ⟨back, -, -⟩ := comparisons_are_transitive_unless_rounded greater middle less
  exact ⟨below.1, above.1, (forward below.1 above.1).mpr apart, meet,
    fun le => (back above.2 below.2).mp le meet⟩

/-- The real equals both of its neighbours, though the first of them is greater. -/
theorem comparisons_are_not_transitive :
    let holds (op : Comparison) (v w : Value) : Prop :=
      (BinaryOp.comparison op).apply v w = .ok (.boolean true)
    let a := Value.integer 9007199254740993
    let b := Value.real (Binary64.ofInt 9007199254740992)
    let c := Value.integer 9007199254740992
    (a ≠ .null ∧ b ≠ .null ∧ c ≠ .null ∧ b.isNaN = false) ∧
      (holds .lessEqual a b ∧ holds .lessEqual b c ∧ ¬ holds .lessEqual a c) ∧
      holds .equal a b ∧ holds .equal b c ∧ ¬ holds .equal a c := by
  decide +kernel

end Tabular
