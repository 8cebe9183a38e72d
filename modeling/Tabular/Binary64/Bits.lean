/-!
# The bits of a real

A real is 64 bits: a sign and a magnitude, the number in the 63 bits below the sign.  Magnitudes
grow with the values they stand for, infinity above all finite ones and NaN above infinity.  Both
orders of reals are therefore orders of integers: the total order, in which `-0.0` precedes `0.0`
and every NaN has its place beyond the infinity of its sign, and the order as numbers, in which the
zeros are equal and NaN has no place.
-/

namespace Tabular

-- Powers are the ones that numbers come with, also where the numbers are known to be a monoid.
@[default_instance high + 1]
instance (priority := high) naturalPower {α : Type} [NatPow α] : Pow α Nat := instPowNat

/-- Reals are equal when their bits are, those of NaN among them. -/
structure Binary64 where
  bits : UInt64
  deriving DecidableEq

namespace Binary64

def isNegative (x : Binary64) : Bool :=
  2 ^ 63 ≤ x.bits.toNat

def magnitude (x : Binary64) : Nat :=
  x.bits.toNat % 2 ^ 63

/-- The magnitude of infinity; greater magnitudes are NaN. -/
def infinity : Nat :=
  2047 * 2 ^ 52

def isNaN (x : Binary64) : Bool :=
  infinity < magnitude x

def isFinite (x : Binary64) : Bool :=
  magnitude x < infinity

def isZero (x : Binary64) : Bool :=
  magnitude x == 0

def ofParts (negative : Bool) (magnitude : Nat) : Binary64 :=
  ⟨UInt64.ofNat (if negative then 2 ^ 63 + magnitude else magnitude)⟩

def negate (x : Binary64) : Binary64 :=
  ofParts (!isNegative x) (magnitude x)

theorem eq_of_parts_eq {x y : Binary64} (negative : isNegative x = isNegative y)
    (magnitude : magnitude x = magnitude y) : x = y := by
  obtain ⟨a⟩ := x
  obtain ⟨b⟩ := y
  have ha := a.toNat_lt
  have hb := b.toNat_lt
  simp only [isNegative, Binary64.magnitude, decide_eq_decide] at negative magnitude
  exact congrArg mk (UInt64.toNat_inj.mp (by omega))

/-! ## Orders -/

/-- The place of a real in the total order: negative reals count downwards from `-1`. -/
def orderKey (x : Binary64) : Int :=
  if isNegative x then -(magnitude x : Int) - 1 else magnitude x

theorem eq_of_orderKey_eq {x y : Binary64} (same : orderKey x = orderKey y) : x = y := by
  unfold orderKey at same
  apply eq_of_parts_eq
  · cases hx : isNegative x <;> cases hy : isNegative y <;> simp [hx, hy] at same ⊢ <;> omega
  · split at same <;> split at same <;> omega

def numberKey (x : Binary64) : Int :=
  if isNegative x then -(magnitude x : Int) else magnitude x

def compare? (x y : Binary64) : Option Ordering :=
  if isNaN x || isNaN y then none else some (compare (numberKey x) (numberKey y))

/-! ## Operations of the machine -/

/-- The bit of a magnitude that tells a quiet NaN from one that signals. -/
def quietBit : Nat :=
  2 ^ 51

/-- A NaN as operations pass it on. -/
def quiet (x : Binary64) : Binary64 :=
  ofParts (isNegative x) (magnitude x ||| quietBit)

/-- What an operation gives that has no result. -/
def indefinite : Binary64 :=
  ofParts true (infinity + quietBit)

instance : Coe Binary64 Float :=
  ⟨fun x => .ofBits x.bits⟩

/-- A `Float` does not keep the bits of NaN, and stands for none but the indefinite one. -/
instance : Coe Float Binary64 :=
  ⟨fun x => if x.isNaN then indefinite else ⟨x.toBits⟩⟩

/--
Does an operation on the numbers of the machine, and passes the first NaN on.  Which NaN comes out
is left to the machine; this is the one of x86-64.
-/
def onMachine (op : Float → Float → Float) (x y : Binary64) : Binary64 :=
  if isNaN x then quiet x else if isNaN y then quiet y else op x y

end Binary64

end Tabular
