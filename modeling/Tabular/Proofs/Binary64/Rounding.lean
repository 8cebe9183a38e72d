import Mathlib.Data.Nat.Log
import Tabular.Binary64.Decimal
import Tabular.Proofs.Binary64.Bits

/-!
# Integers as reals

An integer of 64 bits is rounded to the nearest real, which is finite.  Rounding keeps the order of
integers, though two of them may meet in one real.  Up to `2 ^ 53` every integer has a real of its
own.
-/

namespace Tabular.Binary64

/-! ## Rounded quotients -/

theorem div_le_roundDiv (num den : Nat) : num / den ≤ roundDiv num den := by
  unfold roundDiv
  simp only
  split <;> omega

theorem roundDiv_le (num den : Nat) : roundDiv num den ≤ num / den + 1 := by
  unfold roundDiv
  simp only
  split <;> omega

theorem roundDiv_mono {num num' : Nat} (le : num ≤ num') (den : Nat) :
    roundDiv num den ≤ roundDiv num' den := by
  have quotients : num / den ≤ num' / den := Nat.div_le_div_right le
  rcases Nat.lt_or_eq_of_le quotients with less | same
  · have below := roundDiv_le num den
    have above := div_le_roundDiv num' den
    omega
  · -- With one quotient the greater rest is rounded up where the less is.
    have rests : num % den ≤ num' % den := by
      have first := Nat.div_add_mod num den
      have second := Nat.div_add_mod num' den
      rw [same] at first
      omega
    unfold roundDiv
    simp only [same]
    split <;> split <;> omega

/-! ## Magnitudes of integers -/

theorem log2_mul_two_pow_lt {n k : Nat} (small : n < 2 ^ k) (positive : 0 < k) (l : Nat) :
    (n * 2 ^ l).log2 < k + l := by
  by_cases zero : n * 2 ^ l = 0
  · rw [zero, Nat.log2_zero]
    omega
  · rw [Nat.log2_lt zero, Nat.pow_add]
    exact Nat.mul_lt_mul_of_pos_right small (Nat.two_pow_pos l)

/-- With as many halvings as it has binary digits beyond 53, a number has at most 53. -/
theorem div_two_pow_lt (steps : Nat) : steps / 2 ^ (steps.log2 - 52) < 2 ^ 53 := by
  rw [Nat.div_lt_iff_lt_mul (Nat.two_pow_pos _), ← Nat.pow_add]
  refine Nat.lt_of_lt_of_le Nat.lt_log2_self ?_
  exact Nat.pow_le_pow_right (by omega) (by omega)

theorem nearest_lt_infinity {n : Nat} (small : n < 2 ^ 64) : nearest n 1 < infinity := by
  have digits := log2_mul_two_pow_lt small (by decide) 1074
  unfold nearest
  refine Nat.lt_of_le_of_lt (Nat.min_le_left _ _) ?_
  simp only [Nat.div_one, Nat.one_mul]
  generalize n * 2 ^ 1074 = steps at digits
  have quotient := div_two_pow_lt steps
  have rounded := roundDiv_le steps (2 ^ (steps.log2 - 52))
  unfold infinity
  omega

theorem nearest_mono {m n : Nat} (le : m ≤ n) : nearest m 1 ≤ nearest n 1 := by
  have steps : m * 2 ^ 1074 ≤ n * 2 ^ 1074 := Nat.mul_le_mul_right _ le
  unfold nearest
  simp only [Nat.div_one, Nat.one_mul]
  generalize m * 2 ^ 1074 = s at steps
  generalize n * 2 ^ 1074 = t at steps
  suffices h : (s.log2 - 52) * 2 ^ 52 + roundDiv s (2 ^ (s.log2 - 52)) ≤
      (t.log2 - 52) * 2 ^ 52 + roundDiv t (2 ^ (t.log2 - 52)) by omega
  have digits : s.log2 ≤ t.log2 := by
    simpa only [Nat.log2_eq_log_two] using Nat.log_mono_right steps
  rcases Nat.lt_or_eq_of_le (Nat.sub_le_sub_right digits 52) with less | same
  · -- A further doubling alone outweighs all that the digits of the less can add.
    have below := Nat.le_trans (roundDiv_le s (2 ^ (s.log2 - 52))) (div_two_pow_lt s)
    have above : 2 ^ 52 ≤ t / 2 ^ (t.log2 - 52) := by
      have positive : t ≠ 0 := by
        rintro rfl
        simp at less
      rw [Nat.le_div_iff_mul_le (Nat.two_pow_pos _), ← Nat.pow_add]
      refine Nat.le_trans (Nat.pow_le_pow_right (by omega) ?_) (Nat.log2_self_le positive)
      omega
    have rounded := Nat.le_trans above (div_le_roundDiv t (2 ^ (t.log2 - 52)))
    omega
  · rw [same]
    exact Nat.add_le_add_left (roundDiv_mono steps _) _

/-- Up to `2 ^ 53` an integer has no more binary digits than a real. -/
theorem exists_digits {n : Nat} (small : n ≤ 2 ^ 53) (l : Nat) (room : 52 ≤ l) :
    ∃ s k, n * 2 ^ l = s * 2 ^ k ∧ s < 2 ^ 53 ∧ (k = 0 ∨ 2 ^ 52 ≤ s) := by
  rcases Nat.eq_zero_or_pos n with rfl | positive
  · exact ⟨0, 0, by rw [Nat.zero_mul, Nat.zero_mul], by decide, .inl rfl⟩
  rcases Nat.lt_or_eq_of_le small with less | rfl
  · have nonzero : n ≠ 0 := Nat.ne_of_gt positive
    have digits : n.log2 < 53 := (Nat.log2_lt nonzero).mpr less
    have low : 2 ^ n.log2 ≤ n := Nat.log2_self_le nonzero
    have high : n < 2 ^ (n.log2 + 1) := Nat.lt_log2_self
    refine ⟨n * 2 ^ (52 - n.log2), l - 52 + n.log2, ?_, ?_, .inr ?_⟩
    · rw [Nat.mul_assoc, ← Nat.pow_add]
      congr 2
      omega
    · have widened := Nat.mul_lt_mul_of_pos_right high (Nat.two_pow_pos (52 - n.log2))
      rwa [← Nat.pow_add, show n.log2 + 1 + (52 - n.log2) = 53 by omega] at widened
    · have widened := Nat.mul_le_mul_right (2 ^ (52 - n.log2)) low
      rwa [← Nat.pow_add, show n.log2 + (52 - n.log2) = 52 by omega] at widened
  · refine ⟨2 ^ 52, l + 1, ?_, by decide, .inr (Nat.le_refl _)⟩
    rw [Nat.pow_succ 2 52, Nat.pow_succ 2 l, Nat.mul_assoc, Nat.mul_comm 2]

theorem nearest_zero : nearest 0 1 = 0 := by
  unfold nearest
  simp only [Nat.zero_mul]
  decide

theorem eq_of_nearest_eq {m n : Nat} (hm : m ≤ 2 ^ 53) (hn : n ≤ 2 ^ 53)
    (same : nearest m 1 = nearest n 1) : m = n := by
  obtain ⟨s, k, steps, digits, normal⟩ := exists_digits hm 1074 (by decide)
  obtain ⟨s', k', steps', digits', normal'⟩ := exists_digits hn 1074 (by decide)
  have finite := nearest_lt_infinity (Nat.lt_of_le_of_lt hm (by decide))
  have finite' := nearest_lt_infinity (Nat.lt_of_le_of_lt hn (by decide))
  rw [nearest_eq Nat.one_pos (steps.trans (Nat.mul_one _).symm) digits normal] at same finite
  rw [nearest_eq Nat.one_pos (steps'.trans (Nat.mul_one _).symm) digits' normal'] at same finite'
  obtain ⟨rfl, rfl⟩ : k = k' ∧ s = s' := by omega
  have value := steps.trans steps'.symm
  rwa [Nat.mul_left_inj (NeZero.ne _)] at value

/-! ## Integers of both signs -/

section

variable {m n : Int}

theorem isNaN_ofInt (small : n.natAbs < 2 ^ 64) : isNaN (ofInt n) = false := by
  have finite := nearest_lt_infinity small
  rw [ofInt, isNaN, magnitude_ofParts (finite.trans infinity_lt)]
  exact decide_eq_false (Nat.lt_asymm finite)

theorem numberKey_ofInt (small : n.natAbs < 2 ^ 64) :
    numberKey (ofInt n) = if n < 0 then -(nearest n.natAbs 1 : Int) else nearest n.natAbs 1 := by
  have finite := nearest_lt_infinity small
  rw [ofInt, numberKey, isNegative_ofParts (finite.trans infinity_lt),
    magnitude_ofParts (finite.trans infinity_lt)]
  simp only [decide_eq_true_eq]

theorem numberKey_ofInt_mono (hm : m.natAbs < 2 ^ 64) (hn : n.natAbs < 2 ^ 64) (le : m ≤ n) :
    numberKey (ofInt m) ≤ numberKey (ofInt n) := by
  rw [numberKey_ofInt hm, numberKey_ofInt hn]
  split <;> split
  · have rounded := nearest_mono (show n.natAbs ≤ m.natAbs by omega)
    omega
  · omega
  · omega
  · have rounded := nearest_mono (show m.natAbs ≤ n.natAbs by omega)
    omega

theorem eq_of_numberKey_ofInt_eq (hm : m.natAbs ≤ 2 ^ 53) (hn : n.natAbs ≤ 2 ^ 53)
    (same : numberKey (ofInt m) = numberKey (ofInt n)) : m = n := by
  rw [numberKey_ofInt (by omega), numberKey_ofInt (by omega)] at same
  have zero {k : Int} (hk : k.natAbs ≤ 2 ^ 53) (nothing : nearest k.natAbs 1 = 0) : k = 0 :=
    Int.natAbs_eq_zero.mp (eq_of_nearest_eq hk (Nat.zero_le _) (nothing.trans nearest_zero.symm))
  split at same <;> split at same
  · have equal := eq_of_nearest_eq hm hn (by omega)
    omega
  · rw [zero hm (by omega), zero hn (by omega)]
  · rw [zero hm (by omega), zero hn (by omega)]
  · have equal := eq_of_nearest_eq hm hn (by omega)
    omega

end

end Tabular.Binary64
