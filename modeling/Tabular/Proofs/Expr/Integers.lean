import Tabular.Expr.Eval
import Tabular.Proofs.Query.Meaning

/-!
# Arithmetic on integers

Expressions of integers, computed over all integers, operation by operation.  Evaluation keeps to 64
bits: it gives the exact value where every operation has a divisor other than zero and a result in
range, and the error of the first operation that has not where there is one.
-/

namespace Tabular

/-! ## Operations -/

/-- An operation and its exact operands. -/
inductive Operation where
  | binary (op : Arithmetic) (m n : Int)
  | negation (n : Int)

namespace Operation

/-- Division drops the fraction. -/
def result : Operation → Int
  | binary .add m n => m + n
  | binary .subtract m n => m - n
  | binary .multiply m n => m * n
  | binary .divide m n => m.tdiv n
  | negation n => -n

def DividesByZero : Operation → Prop
  | binary .divide _ n => n = 0
  | _ => False

def InRange (o : Operation) : Prop :=
  Int64.minValue.toInt ≤ o.result ∧ o.result ≤ Int64.maxValue.toInt

def text : Operation → String
  | binary op m n => toString m ++ " " ++ op.symbol ++ " " ++ toString n
  | negation n => "-(" ++ toString n ++ ")"

structure Sound (o : Operation) : Prop where
  divisor : ¬ o.DividesByZero
  range : o.InRange

instance (o : Operation) : Decidable o.DividesByZero :=
  match o with
  | binary .divide _ n => inferInstanceAs (Decidable (n = 0))
  | binary .add _ _ | binary .subtract _ _ | binary .multiply _ _ | negation _ =>
      inferInstanceAs (Decidable False)

instance (o : Operation) : Decidable o.InRange :=
  inferInstanceAs (Decidable (_ ∧ _))

instance (o : Operation) : Decidable o.Sound :=
  decidable_of_iff (¬ o.DividesByZero ∧ o.InRange) ⟨fun h => ⟨h.1, h.2⟩, fun h => ⟨h.1, h.2⟩⟩

inductive Fails : Operation → Error → Prop where
  | divisionByZero {o : Operation} : o.DividesByZero → Fails o .divisionByZero
  | overflow {o : Operation} :
      ¬ o.DividesByZero → ¬ o.InRange → Fails o (.integerOverflow o.text)

theorem sound_iff {o : Operation} : o.Sound ↔ ∀ e, ¬ o.Fails e := by
  constructor
  · rintro ⟨divisor, range⟩ e fails
    cases fails with
    | divisionByZero zero => exact divisor zero
    | overflow _ beyond => exact beyond range
  · intro passes
    by_cases zero : o.DividesByZero
    · exact (passes _ (.divisionByZero zero)).elim
    · by_cases range : o.InRange
      · exact ⟨zero, range⟩
      · exact (passes _ (.overflow zero range)).elim

theorem result_binary (op : Arithmetic) (m n : Int) :
    (binary op m n).result = op.exact m n := by
  cases op <;> rfl

theorem dividesByZero_binary_iff {op : Arithmetic} {m n : Int} :
    (binary op m n).DividesByZero ↔ op = .divide ∧ n = 0 := by
  cases op <;> simp [DividesByZero]

theorem Fails.unique {o : Operation} {e e' : Error} (h : o.Fails e) (h' : o.Fails e') : e = e' := by
  cases h with
  | divisionByZero zero =>
      cases h' with
      | divisionByZero => rfl
      | overflow divisor => exact (divisor zero).elim
  | overflow divisor =>
      cases h' with
      | divisionByZero zero => exact (divisor zero).elim
      | overflow => rfl

theorem inRange_iff {o : Operation} :
    o.InRange ↔ ∃ k, int64? o.result = some k := by
  simp only [InRange, Int64.toInt_minValue, Int64.toInt_maxValue, int64?]
  split
  · simp
    omega
  · simp
    omega

end Operation

/-! ## Computations -/

/-- The operations that an expression goes through, and its value at the end. -/
structure Computation where
  operations : List Operation
  value : Int

namespace Computation

def leaf (n : Int) : Computation :=
  ⟨[], n⟩

def binary (op : Arithmetic) (c d : Computation) : Computation :=
  let o := Operation.binary op c.value d.value
  ⟨c.operations ++ (d.operations ++ [o]), o.result⟩

def negation (c : Computation) : Computation :=
  let o := Operation.negation c.value
  ⟨c.operations ++ [o], o.result⟩

end Computation

/-- Over all integers the expression, whose leaves are integers, is computed in this way. -/
inductive Expr.OverIntegers (reading : ColumnReading) : Expr → Computation → Prop where
  | literal (n : Int64) : OverIntegers reading (.literal (.integer n)) (.leaf n.toInt)
  | column {qualifier : Option String} {name : String} {n : Int64} :
      reading qualifier name = .ok (.integer n) →
      OverIntegers reading (.column qualifier name) (.leaf n.toInt)
  | arithmetic {op : Arithmetic} {left right : Expr} {c d : Computation} :
      OverIntegers reading left c → OverIntegers reading right d →
      OverIntegers reading (.binary left (.arithmetic op) right) (.binary op c d)
  | minus {e : Expr} {c : Computation} :
      OverIntegers reading e c → OverIntegers reading (.unary .minus e) (.negation c)

/-! ## Outcomes -/

/-- An outcome in 64 bits: the value, where every operation is sound, or else the first failure. -/
inductive Computation.Settles (c : Computation) : Except Error Value → Prop where
  | value {k : Int64} :
      (∀ o ∈ c.operations, o.Sound) → k.toInt = c.value → Settles c (.ok (.integer k))
  | failure {e : Error} : FirstFailure Operation.Fails c.operations e → Settles c (.error e)

namespace Computation

variable {c : Computation} {x : Except Error Value}

theorem not_firstFailure_of_sound {operations : List Operation}
    (sound : ∀ o ∈ operations, o.Sound) (e : Error) :
    ¬ FirstFailure Operation.Fails operations e :=
  forall_not_firstFailure_iff.mpr (fun o member => Operation.sound_iff.mp (sound o member)) e

theorem firstFailure_unique {operations : List Operation} {e e' : Error}
    (h : FirstFailure Operation.Fails operations e)
    (h' : FirstFailure Operation.Fails operations e') : e = e' := by
  induction h with
  | here fails =>
      cases h' with
      | here fails' => exact fails.unique fails'
      | later passes => exact (passes _ fails).elim
  | later passes _ ih =>
      cases h' with
      | here fails' => exact (passes _ fails').elim
      | later _ rest => exact ih rest

theorem settles_leaf (n : Int64) : Settles (leaf n.toInt) (.ok (.integer n)) :=
  .value nofun rfl

theorem Settles.bind {f : Value → Except Error Value} {more : List Operation} {value : Int}
    (first : c.Settles x)
    (rest : ∀ k : Int64, k.toInt = c.value → Settles ⟨more, value⟩ (f (.integer k))) :
    Settles ⟨c.operations ++ more, value⟩ (x >>= f) := by
  cases first with
  | failure failed => exact .failure (firstFailure_append_iff.mpr (.inl failed))
  | @value k sound exact =>
      change Settles _ (f (.integer k))
      have rest := rest k exact
      generalize f (.integer k) = y at rest
      cases rest with
      | value sound' exact' =>
          refine .value (fun o member => ?_) exact'
          rcases List.mem_append.mp member with early | late
          · exact sound o early
          · exact sound' o late
      | failure failed =>
          have passed := not_firstFailure_of_sound sound
          exact .failure (firstFailure_append_iff.mpr (.inr ⟨passed, failed⟩))

theorem settles_operation (o : Operation) (divisor : ¬ o.DividesByZero) :
    Settles ⟨[o], o.result⟩
      (match int64? o.result with
        | some k => .ok (.integer k)
        | none => .error (.integerOverflow o.text)) := by
  cases exact : int64? o.result with
  | some k =>
      have sound : o.Sound := ⟨divisor, Operation.inRange_iff.mpr ⟨k, exact⟩⟩
      exact .value (by simpa using sound) (toInt_of_int64? exact)
  | none =>
      have beyond : ¬ o.InRange := by simp [Operation.inRange_iff, exact]
      exact .failure (.here (.overflow divisor beyond))

theorem settles_onIntegers (op : Arithmetic) (m n : Int64) :
    Settles ⟨[.binary op m.toInt n.toInt], (Operation.binary op m.toInt n.toInt).result⟩
      (op.onIntegers m n) := by
  have zero : n.toInt = 0 ↔ n = 0 := by rw [← Int64.toInt_zero, Int64.toInt_inj]
  unfold Arithmetic.onIntegers
  by_cases division : op = .divide ∧ n = 0
  · rw [if_pos division]
    refine .failure (.here (.divisionByZero ?_))
    rwa [Operation.dividesByZero_binary_iff, zero]
  · rw [if_neg division, ← Operation.result_binary]
    refine settles_operation _ ?_
    rwa [Operation.dividesByZero_binary_iff, zero]

theorem settles_minus (n : Int64) :
    Settles ⟨[.negation n.toInt], -n.toInt⟩ (UnaryOp.minus.apply (.integer n)) :=
  settles_operation (.negation n.toInt) id

end Computation

/-- Evaluation does one operation behind the other, as the computation over all integers does. -/
theorem Expr.OverIntegers.settles {reading : ColumnReading} {e : Expr} {c : Computation}
    (h : e.OverIntegers reading c) : c.Settles (e.eval reading) := by
  induction h with
  | literal n => exact Computation.settles_leaf n
  | column bound =>
      rw [eval, bound]
      exact Computation.settles_leaf _
  | arithmetic _ _ ihl ihr =>
      refine ihl.bind fun m left => ihr.bind fun n right => ?_
      rw [← left, ← right]
      exact Computation.settles_onIntegers _ m n
  | minus _ ih =>
      refine ih.bind fun n operand => ?_
      rw [← operand]
      exact Computation.settles_minus n

/--
An expression of integers has the exact value if no operation in it divides by zero or leaves the
64-bit integers, and it has no other value; if one does, the first of them gives the error.
-/
theorem integer_arithmetic_is_exact {reading : ColumnReading} {e : Expr} {c : Computation}
    (integral : e.OverIntegers reading c) :
    (∀ n : Int, (∃ k : Int64, e.eval reading = .ok (.integer k) ∧ k.toInt = n) ↔
      (∀ o ∈ c.operations, o.Sound) ∧ c.value = n) ∧
    ∀ error, e.eval reading = .error error ↔
      FirstFailure Operation.Fails c.operations error := by
  have settled := integral.settles
  generalize e.eval reading = outcome at settled
  cases settled with
  | @value k sound exact =>
      have passed := Computation.not_firstFailure_of_sound sound
      refine ⟨fun n => ?_, fun error => by simp [passed]⟩
      constructor
      · rintro ⟨_, ⟨⟩, rfl⟩
        exact ⟨sound, exact.symm⟩
      · rintro ⟨-, rfl⟩
        exact ⟨k, rfl, exact⟩
  | @failure e failed =>
      refine ⟨fun n => ?_, fun error => ?_⟩
      · constructor
        · rintro ⟨_, ⟨⟩, -⟩
        · rintro ⟨sound, -⟩
          exact (Computation.not_firstFailure_of_sound sound e failed).elim
      · constructor
        · rintro ⟨⟩
          exact failed
        · intro failed'
          rw [Computation.firstFailure_unique failed failed']

open Tabular.Expr in
/--
The least integer over minus one has no 64-bit integer, and the division by zero behind it is not
reached; seven halves, negated, lose their fraction.
-/
theorem integer_arithmetic_is_exact_least :
    let reading : ColumnReading := fun _ _ => .ok (.integer Int64.minValue)
    let number (n : Int64) := literal (.integer n)
    let quotient := binary (column none "a") (.arithmetic .divide) (unary .minus (number 1))
    let zero := binary (number 1) (.arithmetic .divide) (number 0)
    let e := binary quotient (.arithmetic .add) zero
    let halves := binary (unary .minus (number 7)) (.arithmetic .divide) (number 2)
    (∃ c, e.OverIntegers reading c ∧
      e.eval reading = .error (.integerOverflow "-9223372036854775808 / -1")) ∧
    ∃ c, halves.OverIntegers reading c ∧
      ∃ k : Int64, halves.eval reading = .ok (.integer k) ∧ k.toInt = -3 := by
  intro reading number quotient zero e halves
  have bound : reading none "a" = .ok (.integer Int64.minValue) := rfl
  have computed : e.OverIntegers reading _ :=
    .arithmetic (.arithmetic (.column bound) (.minus (.literal 1)))
      (.arithmetic (.literal 1) (.literal 0))
  have computed' : halves.OverIntegers reading _ :=
    .arithmetic (.minus (.literal 7)) (.literal 2)
  have negated : (Operation.negation 1).Sound := by decide
  have beyond : (Operation.binary .divide (-9223372036854775808) (-1)).Fails
      (.integerOverflow "-9223372036854775808 / -1") := .overflow (by decide) (by decide)
  have overflows : FirstFailure Operation.Fails
      [.negation 1, .binary .divide (-9223372036854775808) (-1), .binary .divide 1 0,
        .binary .add 9223372036854775808 0] (.integerOverflow "-9223372036854775808 / -1") :=
    .later (Operation.sound_iff.mp negated) (.here beyond)
  have sound : ∀ o ∈ [Operation.negation 7, .binary .divide (-7) 2], o.Sound := by decide
  exact ⟨⟨_, computed, ((integer_arithmetic_is_exact computed).2 _).mpr overflows⟩,
    _, computed', ((integer_arithmetic_is_exact computed').1 (-3)).mpr ⟨sound, rfl⟩⟩

end Tabular
