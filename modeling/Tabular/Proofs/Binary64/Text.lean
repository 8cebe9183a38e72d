import Tabular.Binary64.Text

/-!
# The text of a real reads back

A quotient reads as the same real however it is written, so digits may move across the point with a
power of ten.  The positional text of a finite real has digits on both sides of its point, and they
read as its magnitude.
-/

namespace Tabular.Binary64

/-! ## Quotients -/

theorem roundDiv_mul_left {k : Nat} (num den : Nat) (hk : 0 < k) :
    roundDiv (k * num) (k * den) = roundDiv num den := by
  have less : 2 * (k * (num % den)) < k * den ↔ 2 * (num % den) < den := by
    rw [Nat.mul_left_comm]
    exact Nat.mul_lt_mul_left hk
  have equal : 2 * (k * (num % den)) = k * den ↔ 2 * (num % den) = den := by
    rw [Nat.mul_left_comm]
    exact Nat.mul_right_inj (by omega)
  unfold roundDiv
  simp only [Nat.mul_div_mul_left _ _ hk, Nat.mul_mod_mul_left, less, equal]

theorem nearest_mul_left {k : Nat} (num den : Nat) (hk : 0 < k) :
    nearest (k * num) (k * den) = nearest num den := by
  unfold nearest
  simp only [Nat.mul_assoc k, Nat.mul_div_mul_left _ _ hk, roundDiv_mul_left _ _ hk]

theorem nearest_congr {a b c d : Nat} (hb : 0 < b) (hd : 0 < d) (h : a * d = c * b) :
    nearest a b = nearest c d := by
  have left := nearest_mul_left a b hd
  have right := nearest_mul_left c d hb
  rw [← left, ← right, Nat.mul_comm d a, h, Nat.mul_comm c b, Nat.mul_comm d b]

/-! ## Digits -/

def Digits (cs : List Char) : Prop :=
  ∀ c ∈ cs, c.isDigit = true

theorem digits_append {cs ds : List Char} (hc : Digits cs) (hd : Digits ds) :
    Digits (cs ++ ds) := by
  intro c member
  rcases List.mem_append.mp member with front | back
  · exact hc c front
  · exact hd c back

theorem digits_zeros (n : Nat) : Digits (List.replicate n '0') := by
  intro c member
  rw [(List.mem_replicate.mp member).2]
  rfl

theorem digits_toDigits (n : Nat) : Digits (Nat.toDigits 10 n) :=
  fun _ => Nat.isDigit_of_mem_toDigits (by omega) (by omega)

theorem digitsValue_nil : digitsValue [] = 0 := rfl

theorem digitsValue_zero : digitsValue ['0'] = 0 := rfl

theorem digitsValue_toDigits (n : Nat) : digitsValue (Nat.toDigits 10 n) = n :=
  Nat.ofDigitChars_ten_toDigits

theorem digitsValue_append (cs ds : List Char) :
    digitsValue (cs ++ ds) = digitsValue cs * 10 ^ ds.length + digitsValue ds := by
  have split := Nat.ofDigitChars_append (b := 10) (l := cs) (m := ds) 0
  have shift : Nat.ofDigitChars 10 ds (digitsValue cs) =
      10 ^ ds.length * digitsValue cs + digitsValue ds := Nat.ofDigitChars_eq_ofDigitChars_zero
  rw [Nat.mul_comm]
  exact split.trans shift

theorem digitsValue_zeros (n : Nat) : digitsValue (List.replicate n '0') = 0 := by
  have zeros : digitsValue (List.replicate n '0') = 10 ^ n * 0 := Nat.ofDigitChars_replicate_zero
  rw [Nat.mul_zero] at zeros
  exact zeros

theorem eq_zeros_of_takeWhile (cs : List Char) :
    cs.takeWhile (· == '0') = List.replicate (cs.takeWhile (· == '0')).length '0' := by
  refine List.eq_replicate_of_mem fun c member => ?_
  have zero := List.all_takeWhile (p := (· == '0')) (l := cs)
  exact eq_of_beq (List.all_eq_true.mp zero c member)

/-- The digits that are kept, and zeros for the others. -/
theorem trimmedDigits_append (n : Nat) :
    (trimmedDigits n).1 ++ List.replicate (trimmedDigits n).2 '0' =
      if n = 0 then [] else Nat.toDigits 10 n := by
  unfold trimmedDigits
  generalize (if n = 0 then [] else Nat.toDigits 10 n) = all
  have split := List.takeWhile_append_dropWhile (p := (· == '0')) (l := all.reverse)
  have zeros := eq_zeros_of_takeWhile all.reverse
  have count := congrArg List.length split
  simp only [List.length_append, List.length_reverse] at count
  have dropped : all.length - (all.reverse.dropWhile (· == '0')).reverse.length =
      (all.reverse.takeWhile (· == '0')).length := by
    rw [List.length_reverse]
    omega
  simp only [dropped]
  rw [← List.reverse_replicate, ← zeros, ← List.reverse_append, split, List.reverse_reverse]

theorem digits_trimmedDigits (n : Nat) : Digits (trimmedDigits n).1 := by
  intro c member
  have inside : c ∈ (trimmedDigits n).1 ++ List.replicate (trimmedDigits n).2 '0' :=
    List.mem_append_left _ member
  rw [trimmedDigits_append] at inside
  by_cases zero : n = 0
  · simp [zero] at inside
  · rw [if_neg zero] at inside
    exact digits_toDigits n c inside

theorem digitsValue_trimmedDigits (n : Nat) :
    digitsValue (trimmedDigits n).1 * 10 ^ (trimmedDigits n).2 = n := by
  have whole := congrArg digitsValue (trimmedDigits_append n)
  rw [digitsValue_append, digitsValue_zeros, List.length_replicate, Nat.add_zero] at whole
  rw [whole]
  by_cases zero : n = 0
  · rw [if_pos zero, zero]
    rfl
  · rw [if_neg zero, digitsValue_toDigits]

/-! ## Positional writing -/

/--
Digits on both sides of a point.  Without the point they are `digits`, with zeros that shift
them as far as `point` says.
-/
structure Places (digits : List Char) (point : Int) (whole fraction : List Char) : Prop where
  whole_ne_nil : whole ≠ []
  digits_whole : Digits whole
  digits_fraction : Digits fraction
  value : digitsValue (whole ++ fraction) * 10 ^ (digits.length - point).toNat =
    digitsValue digits * 10 ^ (point - digits.length).toNat * 10 ^ fraction.length

variable {digits : List Char} {point : Int}

/-- A number below one has a zero before its point, and zeros behind it. -/
theorem places_small (h : Digits digits) (small : point ≤ 0) :
    Places digits point ['0']
      (List.replicate point.natAbs '0' ++ if digits.isEmpty then ['0'] else digits) where
  whole_ne_nil := List.cons_ne_nil _ _
  digits_whole := digits_zeros 1
  digits_fraction := by
    refine digits_append (digits_zeros _) ?_
    split
    · exact digits_zeros 1
    · exact h
  value := by
    rw [digitsValue_append, digitsValue_append, digitsValue_zeros]
    cases digits with
    | nil => simp [digitsValue_zero, digitsValue_nil]
    | cons c cs =>
        have shift : (((c :: cs).length : Int) - point).toNat =
            point.natAbs + (c :: cs).length := by omega
        have none : (point - ((c :: cs).length : Int)).toNat = 0 := by omega
        rw [shift, none]
        simp only [List.isEmpty_cons, Bool.false_eq_true, if_false, List.length_append,
          List.length_replicate]
        rw [digitsValue_zero, Nat.zero_mul, Nat.zero_mul, Nat.zero_add, Nat.zero_add, Nat.pow_zero,
          Nat.mul_one]

theorem places_inside (h : Digits digits) (positive : 0 < point)
    (inside : point.natAbs < digits.length) :
    Places digits point (digits.take point.natAbs) (digits.drop point.natAbs) where
  whole_ne_nil := by
    apply List.ne_nil_of_length_pos
    rw [List.length_take]
    omega
  digits_whole c member := h c (List.mem_of_mem_take member)
  digits_fraction c member := h c (List.mem_of_mem_drop member)
  value := by
    have shift : ((digits.length : Int) - point).toNat = digits.length - point.natAbs := by omega
    have none : (point - (digits.length : Int)).toNat = 0 := by omega
    rw [List.take_append_drop, List.length_drop, shift, none, Nat.pow_zero, Nat.mul_one]

/-- An integer has zeros behind its digits, and one behind the point. -/
theorem places_integer (h : Digits digits) (positive : 0 < point)
    (outside : digits.length ≤ point.natAbs) :
    Places digits point (digits ++ List.replicate (point.natAbs - digits.length) '0') ['0'] where
  whole_ne_nil := by
    apply List.ne_nil_of_length_pos
    rw [List.length_append, List.length_replicate]
    omega
  digits_whole := digits_append h (digits_zeros _)
  digits_fraction := digits_zeros 1
  value := by
    have none : ((digits.length : Int) - point).toNat = 0 := by omega
    have shift : (point - (digits.length : Int)).toNat = point.natAbs - digits.length := by omega
    rw [digitsValue_append, digitsValue_append, digitsValue_zeros, List.length_replicate, shift,
      none, Nat.add_zero]
    rw [digitsValue_zero, Nat.add_zero, Nat.pow_zero, Nat.mul_one]

theorem positionalText_places (h : Digits digits) (point : Int) :
    ∃ whole fraction, positionalText digits point = whole ++ '.' :: fraction ∧
      Places digits point whole fraction := by
  unfold positionalText
  by_cases small : point ≤ 0
  · rw [if_pos small]
    exact ⟨_, _, rfl, places_small h small⟩
  · rw [if_neg small]
    have positive : 0 < point := by omega
    by_cases inside : point.natAbs < digits.length
    · have some : (digits.drop point.natAbs).isEmpty = false := by
        rw [List.isEmpty_eq_false_iff]
        apply List.ne_nil_of_length_pos
        rw [List.length_drop]
        omega
      have noZeros : point.natAbs - digits.length = 0 := by omega
      simp only [some, noZeros, List.replicate_zero, List.append_nil]
      exact ⟨_, _, rfl, places_inside h positive inside⟩
    · have outside : digits.length ≤ point.natAbs := by omega
      have none : digits.drop point.natAbs = [] := List.drop_eq_nil_of_le outside
      simp only [none, List.take_of_length_le outside]
      exact ⟨_, _, rfl, places_integer h positive outside⟩

/-! ## Reading back -/

theorem shift_exchange {v d f a b m n : Nat} (h : v * 10 ^ a = d * 10 ^ b * 10 ^ f)
    (same : m + b = a + n) : v * 10 ^ m = d * 10 ^ n * 10 ^ f := by
  apply Nat.eq_of_mul_eq_mul_right (Nat.pow_pos (by omega) : 0 < 10 ^ a)
  calc v * 10 ^ m * 10 ^ a
      = v * 10 ^ a * 10 ^ m := Nat.mul_right_comm ..
    _ = d * 10 ^ b * 10 ^ f * 10 ^ m := by rw [h]
    _ = d * (10 ^ m * 10 ^ b) * 10 ^ f := by ac_rfl
    _ = d * (10 ^ a * 10 ^ n) * 10 ^ f := by rw [← Nat.pow_add, ← Nat.pow_add, same]
    _ = d * 10 ^ n * 10 ^ f * 10 ^ a := by ac_rfl

theorem digitsMagnitude_of_places {whole fraction : List Char} {zeros : Nat} {exponent : Int}
    (places : Places digits (digits.length + zeros + exponent) whole fraction) :
    digitsMagnitude whole fraction =
      (Decimal.mk (digitsValue digits * 10 ^ zeros) exponent).nearest := by
  have moved := shift_exchange (m := (-exponent).toNat) (n := zeros + exponent.toNat) places.value
    (by omega)
  rw [Nat.pow_add, ← Nat.mul_assoc] at moved
  exact nearest_congr (Nat.pow_pos (by omega)) (Nat.pow_pos (by omega)) moved

theorem digitsMagnitude_of_places_nil {whole fraction : List Char}
    (places : Places [] 0 whole fraction) (exponent : Int) :
    digitsMagnitude whole fraction = (Decimal.mk 0 exponent).nearest := by
  have zero := places.value
  simp only [digitsValue_nil, Nat.zero_mul, List.length_nil] at zero
  change _ * 1 = 0 at zero
  rw [Nat.mul_one] at zero
  rw [digitsMagnitude, zero, Decimal.nearest]
  exact nearest_congr (Nat.pow_pos (by omega)) (Nat.pow_pos (by omega)) (by simp)

/-- A real is written with digits on both sides of a point, and they read as its magnitude. -/
theorem decimalText_reads (d : Decimal) :
    ∃ whole fraction, Layout.positional.decimalText d = whole ++ '.' :: fraction ∧ whole ≠ [] ∧
      Digits whole ∧ Digits fraction ∧ digitsMagnitude whole fraction = d.nearest := by
  have value := digitsValue_trimmedDigits d.digits
  rcases d with ⟨n, exponent⟩
  unfold Layout.decimalText
  generalize hk : (trimmedDigits n).1 = kept at *
  generalize hz : (trimmedDigits n).2 = zeros at *
  have digits : Digits kept := hk ▸ digits_trimmedDigits n
  simp only [hk, hz, Layout.positional, Bool.and_false, Bool.false_eq_true, if_false]
  cases kept with
  | nil =>
      obtain ⟨whole, fraction, text, places⟩ := positionalText_places digits 0
      have zero : n = 0 := by simpa [digitsValue_nil] using value.symm
      subst zero
      exact ⟨whole, fraction, text, places.whole_ne_nil, places.digits_whole,
        places.digits_fraction, digitsMagnitude_of_places_nil places exponent⟩
  | cons c cs =>
      obtain ⟨whole, fraction, text, places⟩ :=
        positionalText_places digits ((c :: cs).length + zeros + exponent)
      have reads := digitsMagnitude_of_places places
      rw [value] at reads
      exact ⟨whole, fraction, text, places.whole_ne_nil, places.digits_whole,
        places.digits_fraction, reads⟩

end Tabular.Binary64
