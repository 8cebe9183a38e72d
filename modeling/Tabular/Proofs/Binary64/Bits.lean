import Tabular.Binary64.Bits

/-!
# Reals and their bits

A real is the one with its sign and its magnitude, and the real with a sign and a magnitude has
them, NaN among them.
-/

namespace Tabular.Binary64

theorem ofParts_parts (x : Binary64) : ofParts (isNegative x) (magnitude x) = x := by
  obtain ⟨bits⟩ := x
  have bound := bits.toNat_lt
  apply congrArg mk
  apply UInt64.toNat_inj.mp
  simp only [isNegative, magnitude, decide_eq_true_eq]
  rw [UInt64.toNat_ofNat']
  split <;> omega

theorem magnitude_lt (x : Binary64) : magnitude x < 2 ^ 63 :=
  Nat.mod_lt _ (Nat.two_pow_pos 63)

theorem infinity_lt : infinity < 2 ^ 63 := by
  decide

section

variable {negative : Bool} {m : Nat} (small : m < 2 ^ 63)

include small

theorem toNat_bits_ofParts :
    (ofParts negative m).bits.toNat = if negative then 2 ^ 63 + m else m := by
  rw [ofParts, UInt64.toNat_ofNat']
  cases negative <;> simp <;> omega

theorem isNegative_ofParts : isNegative (ofParts negative m) = negative := by
  unfold isNegative
  rw [toNat_bits_ofParts small]
  cases negative <;> simp
  omega

theorem magnitude_ofParts : magnitude (ofParts negative m) = m := by
  unfold magnitude
  rw [toNat_bits_ofParts small]
  cases negative <;> simp <;> omega

theorem negate_ofParts : negate (ofParts negative m) = ofParts (!negative) m := by
  rw [negate, isNegative_ofParts small, magnitude_ofParts small]

end

end Tabular.Binary64
