import Tabular.Binary64.Bits

/-!
# Decimals and reals

A decimal reads as the real nearest to it.  Conversely every finite real has an exact decimal, and
among the decimals that read as it a shortest one: the fewest digits, of these the nearest to the
exact value, and of two equally near the one further from zero.  Everything here is arithmetic on
magnitudes, without rounding on the way.
-/

namespace Tabular.Binary64

/-! ## Reading -/

/-- The quotient rounded to the nearest integer; of two equally near, the even one. -/
def roundDiv (num den : Nat) : Nat :=
  let quotient := num / den
  let rest := num % den
  if 2 * rest < den ∨ (2 * rest = den ∧ quotient % 2 = 0) then quotient else quotient + 1

theorem roundDiv_mul {q d : Nat} (hd : 0 < d) : roundDiv (q * d) d = q := by
  simp [roundDiv, Nat.mul_div_cancel q hd, hd]

/--
The magnitude of the real nearest to `num / den`.  Counted in steps of `2 ^ -1074`, a value
below `2 ^ 53` is its own magnitude; above it the steps double with every further binary digit, and
each doubling adds `2 ^ 52` to the magnitude.  Beyond the last finite real there is infinity.
-/
def nearest (num den : Nat) : Nat :=
  let steps := num * 2 ^ 1074
  let doublings := Nat.log2 (steps / den) - 52
  min (doublings * 2 ^ 52 + roundDiv steps (den * 2 ^ doublings)) infinity

theorem nearest_le (num den : Nat) : nearest num den ≤ infinity :=
  Nat.min_le_right _ _

theorem nearest_eq {num den s k : Nat} (hden : 0 < den) (value : num * 2 ^ 1074 = s * 2 ^ k * den)
    (hs : s < 2 ^ 53) (hk : k = 0 ∨ 2 ^ 52 ≤ s) :
    nearest num den = min (k * 2 ^ 52 + s) infinity := by
  have quotient : num * 2 ^ 1074 / den = s * 2 ^ k := by
    rw [value, Nat.mul_div_cancel _ hden]
  have digits : Nat.log2 (s * 2 ^ k) - 52 = k := by
    rcases hk with rfl | large
    · by_cases zero : s = 0
      · simp [zero]
      · have := (Nat.log2_lt zero).mpr hs
        simp only [Nat.pow_zero, Nat.mul_one]
        omega
    · have positive : s * 2 ^ k ≠ 0 := by
        have := Nat.two_pow_pos k
        have : 0 < s := by omega
        exact Nat.pos_iff_ne_zero.mp (Nat.mul_pos this (Nat.two_pow_pos k))
      have := (Nat.log2_eq_iff (k := 52 + k) positive).mpr ⟨by
        rw [Nat.pow_add]; exact Nat.mul_le_mul_right _ large, by
        rw [show 52 + k + 1 = 53 + k by omega, Nat.pow_add]
        exact Nat.mul_lt_mul_of_pos_right hs (Nat.two_pow_pos k)⟩
      omega
  unfold nearest
  simp only [quotient, digits]
  rw [value, Nat.mul_assoc, Nat.mul_comm (2 ^ k) den,
    roundDiv_mul (Nat.mul_pos hden (Nat.two_pow_pos k))]

structure Decimal where
  digits : Nat
  exponent : Int
  deriving DecidableEq

def Decimal.nearest (d : Decimal) : Nat :=
  Binary64.nearest (d.digits * 10 ^ d.exponent.toNat) (10 ^ (-d.exponent).toNat)

theorem Decimal.nearest_mk_neg (d p : Nat) :
    (Decimal.mk d (-(p : Int))).nearest = Binary64.nearest d (10 ^ p) := by
  have : (-(p : Int)).toNat = 0 := by omega
  simp [Decimal.nearest, this]

def ofInt (n : Int) : Binary64 :=
  ofParts (n < 0) (nearest n.natAbs 1)

/-! ## Writing -/

/--
The value of a finite magnitude.  Its low 52 bits are the fraction, those above the exponent;
the smallest exponent has no leading one before the fraction.
-/
def exactDecimal (magnitude : Nat) : Decimal :=
  let exponent := magnitude / 2 ^ 52
  let fraction := magnitude % 2 ^ 52
  let significand := if exponent = 0 then fraction else 2 ^ 52 + fraction
  let scale := max exponent 1
  let places : Nat := 1075 - scale
  ⟨significand * 2 ^ (scale - 1075) * 5 ^ places, -(places : Int)⟩

/-- Tenths are fifths of halves: `r` decimal places lose nothing of a multiple of `2 ^ -r`. -/
theorem scale_steps {s a b n r : Nat} (h : a + n = b + r) :
    s * 2 ^ a * 5 ^ r * 2 ^ n = s * 2 ^ b * 10 ^ r := by
  have two : 2 ^ a * 2 ^ n = 2 ^ b * 2 ^ r := by rw [← Nat.pow_add, h, Nat.pow_add]
  calc s * 2 ^ a * 5 ^ r * 2 ^ n
      = s * 5 ^ r * (2 ^ a * 2 ^ n) := by ac_rfl
    _ = s * 2 ^ b * (5 ^ r * 2 ^ r) := by rw [two]; ac_rfl
    _ = s * 2 ^ b * 10 ^ r := by rw [← Nat.mul_pow]

theorem nearest_exactDecimal {m : Nat} (finite : m < infinity) :
    (exactDecimal m).nearest = m := by
  have split := Nat.div_add_mod m (2 ^ 52)
  have below := Nat.mod_lt m (Nat.two_pow_pos 52)
  unfold exactDecimal
  rw [Decimal.nearest_mk_neg]
  generalize he : m / 2 ^ 52 = e at *
  generalize hf : m % 2 ^ 52 = f at *
  have he' : e < 2047 := by simp [infinity] at finite; omega
  generalize hs : (if e = 0 then f else 2 ^ 52 + f) = s
  generalize hc : max e 1 = c
  have value : s * 2 ^ (c - 1075) * 5 ^ (1075 - c) * 2 ^ 1074 = s * 2 ^ (c - 1) * 10 ^ (1075 - c) :=
    scale_steps (n := 1074) (r := 1075 - c) (by omega)
  have hs53 : s < 2 ^ 53 := by rw [← hs]; split <;> omega
  have hk : c - 1 = 0 ∨ 2 ^ 52 ≤ s := by rw [← hs]; split <;> omega
  rw [nearest_eq (Nat.pow_pos (by omega)) value hs53 hk]
  have : (c - 1) * 2 ^ 52 + s = m := by
    rw [← hs, ← hc]
    split <;> omega
  rw [this]; omega

namespace Decimal

def length (d : Decimal) : Nat :=
  (Nat.toDigits 10 d.digits).length

/--
The two multiples of `10 ^ (exponent + dropped)` next to a decimal, the nearer first; of two
equally near the larger first.
-/
def neighbours (d : Decimal) (dropped : Nat) : List Decimal :=
  let unit := 10 ^ dropped
  let below : Decimal := ⟨d.digits / unit, d.exponent + dropped⟩
  let above : Decimal := ⟨d.digits / unit + 1, d.exponent + dropped⟩
  if 2 * (d.digits % unit) < unit then [below, above] else [above, below]

end Decimal

def maxDigits : Nat := 17

/--
The shortest decimal that reads as a finite magnitude: the first that does among the neighbours
of one digit, of two digits, and so on.
-/
def shortestDecimal (magnitude : Nat) : Decimal :=
  let exact := exactDecimal magnitude
  let length := exact.length
  let found := (List.range maxDigits).findSome? fun i =>
    (exact.neighbours (length - (i + 1))).find? (·.nearest == magnitude)
  found.getD exact

theorem test_of_findSome?_find? {α β : Type} {l : List α} {f : α → List β} {test : β → Bool} {b : β}
    (found : l.findSome? (fun a => (f a).find? test) = some b) : test b := by
  obtain ⟨a, _, hit⟩ := List.exists_of_findSome?_eq_some found
  exact List.find?_some hit

theorem nearest_shortestDecimal {m : Nat} (finite : m < infinity) :
    (shortestDecimal m).nearest = m := by
  simp only [shortestDecimal]
  generalize found : List.findSome? _ _ = candidate
  cases candidate with
  | none => rw [Option.getD_none, nearest_exactDecimal finite]
  | some d =>
    rw [Option.getD_some]
    have := test_of_findSome?_find? found
    exact eq_of_beq this

end Tabular.Binary64
