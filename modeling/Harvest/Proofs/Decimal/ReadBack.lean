import Mathlib
import Harvest.Decimal.Shortest

namespace Harvest.Decimal

theorem roundDiv_mul_self (q : Nat) {den : Nat} (positive : 0 < den) :
    roundDiv (q * den) den = q := by
  simp [roundDiv, Nat.mul_div_cancel q positive, positive]

theorem roundDiv_mul_right (num den : Nat) {c : Nat} (positive : 0 < c) :
    roundDiv (num * c) (den * c) = roundDiv num den := by
  have less : 2 * (num % den * c) < den * c ↔ 2 * (num % den) < den := by
    rw [← Nat.mul_assoc]
    exact Nat.mul_lt_mul_right positive
  have equal : 2 * (num % den * c) = den * c ↔ 2 * (num % den) = den := by
    rw [← Nat.mul_assoc]
    exact Nat.mul_left_inj positive.ne'
  simp only [roundDiv, Nat.mul_div_mul_right _ _ positive, Nat.mul_mod_mul_right, less, beq_iff_eq,
    Bool.or_eq_true, decide_eq_true_eq, Bool.and_eq_true, equal]

theorem rankOfUnits_mul_right (num den : Nat) {c : Nat} (positive : 0 < c) :
    rankOfUnits (num * c) (den * c) = rankOfUnits num den := by
  simp only [rankOfUnits, Nat.mul_div_mul_right _ _ positive]
  rw [Nat.mul_right_comm den c, roundDiv_mul_right _ _ positive]

theorem rankOfUnits_mul_pow (units k : Nat) :
    rankOfUnits (units * 10 ^ k) (10 ^ k) = rankOfUnits units 1 := by
  have reduced := rankOfUnits_mul_right units 1 (c := 10 ^ k) (by positivity)
  rwa [Nat.one_mul] at reduced

theorem unitsPerOne_eq : unitsPerOne = 2 ^ 1074 := by
  decide +kernel

theorem mul_pow_five_mul_pow_two (n k : Nat) : n * 5 ^ k * 2 ^ k = n * 10 ^ k := by
  rw [Nat.mul_assoc, ← Nat.mul_pow]

theorem log2_mul_pow {m : Nat} (k : Nat) (positive : m ≠ 0) :
    Nat.log2 (m * 2 ^ k) = Nat.log2 m + k := by
  induction k with
  | zero => simp
  | succ k ih =>
    have here : m * 2 ^ k ≠ 0 := by positivity
    rw [Nat.pow_succ, ← Nat.mul_assoc, Nat.mul_comm _ 2, Nat.log2_two_mul here, ih]
    omega

theorem unitsOfRank_lt {rank e : Nat} (bound : rank / 2 ^ 52 - 1 ≤ e) :
    unitsOfRank rank < 2 ^ 53 * 2 ^ e := by
  have significand : rank % 2 ^ 52 + 2 ^ 52 < 2 ^ 53 := by omega
  unfold unitsOfRank
  split
  next small =>
    have least : 1 ≤ 2 ^ e := Nat.one_le_two_pow
    rw [Nat.pow_eq] at small
    omega
  next large =>
    have shift := Nat.pow_le_pow_right (n := 2) (by decide) bound
    exact Nat.mul_lt_mul_of_lt_of_le significand shift (Nat.two_pow_pos e)

theorem carry_restored {n base : Nat} (positive : 0 < base) (large : base ≤ n) :
    (n / base - 1) * base + (n % base + base) = n := by
  have parts := Nat.div_add_mod' n base
  have leading : base ≤ n / base * base :=
    Nat.le_mul_of_pos_left _ (Nat.div_pos large positive)
  have carried := Nat.sub_one_mul (n / base) base
  omega

theorem rankOfUnits_unitsOfRank (rank : Nat) : rankOfUnits (unitsOfRank rank) 1 = rank := by
  unfold unitsOfRank
  split
  next small =>
    have shift : Nat.log2 rank - 52 = 0 := by
      rcases Nat.eq_zero_or_pos rank with rfl | positive
      · rfl
      · have below : Nat.log2 rank < 52 := (Nat.log2_lt positive.ne').2 small
        omega
    simpa [rankOfUnits, shift] using roundDiv_mul_self rank Nat.one_pos
  next large =>
    rw [Nat.pow_eq] at large ⊢
    -- the significand has all its bits, so the shift is that of the rank and nothing is rounded
    set m := rank % 2 ^ 52 + 2 ^ 52 with significand
    have bounds : 2 ^ 52 ≤ m ∧ m < 2 ^ 53 := by omega
    have logarithm : Nat.log2 m = 52 := by
      rw [Nat.log2_eq_iff (by omega)]
      exact bounds
    have shift : Nat.log2 (m * 2 ^ (rank / 2 ^ 52 - 1)) - 52 = rank / 2 ^ 52 - 1 := by
      rw [log2_mul_pow _ (by omega), logarithm]
      omega
    simp only [rankOfUnits, Nat.pow_eq, Nat.div_one, Nat.one_mul, shift]
    rw [roundDiv_mul_self _ (by positivity), significand]
    exact carry_restored (by decide) (by omega)

theorem digitCount_le_iff {n k : Nat} (positive : 0 < k) : digitCount n ≤ k ↔ n < 10 ^ k :=
  Nat.length_toDigits_le_iff (by decide) positive

theorem digitCount_mul_le {n bound c k : Nat} (some : 0 < k) (small : n ≤ bound)
    (enough : bound * c < 10 ^ k) : digitCount (n * c) ≤ k :=
  (digitCount_le_iff some).2 ((Nat.mul_le_mul_right c small).trans_lt enough)

theorem lt_digitCount_mul {n c k : Nat} (some : 0 < k) (positive : 0 < n) (enough : 10 ^ k ≤ c) :
    k < digitCount (n * c) := by
  by_contra short
  rw [not_lt, digitCount_le_iff some] at short
  exact absurd (enough.trans (Nat.le_mul_of_pos_left c positive)) (not_le.2 short)

theorem digitCount_mul_ten {n : Nat} (positive : 0 < n) :
    digitCount (n * 10) = digitCount n + 1 := by
  have split := Nat.toDigits_of_base_le (b := 10) (n := n * 10) (by decide) (by omega)
  simp [digitCount, split]

theorem digitCount_mul_pow {n : Nat} (k : Nat) (positive : 0 < n) :
    digitCount (n * 10 ^ k) = digitCount n + k := by
  induction k with
  | zero => simp
  | succ k ih =>
    have here : 0 < n * 10 ^ k := by positivity
    rw [Nat.pow_succ, ← Nat.mul_assoc, digitCount_mul_ten here, ih]
    omega

theorem rankOfDecimal?_neg {digits k : Nat} {rank : Fin rankCount} (nonzero : digits ≠ 0)
    (low : k ≤ digitCount digits + 400) (high : digitCount digits ≤ k + 400)
    (value : rankOfUnits (digits * unitsPerOne) (10 ^ k) = rank) :
    rankOfDecimal? digits (-k) = some rank := by
  rw [rankOfDecimal?, if_neg nonzero, if_neg (by omega), if_neg (by omega)]
  simp [value]

theorem rankOfDecimal?_zeros (digits k : Nat) :
    rankOfDecimal? (digits * 10 ^ (k + 1)) (-1) = rankOfDecimal? digits k := by
  rcases Nat.eq_zero_or_pos digits with rfl | positive
  · simp [rankOfDecimal?]
  · have whole : digits * 10 ^ (k + 1) ≠ 0 := by positivity
    have place : (-1 : Int) + digitCount (digits * 10 ^ (k + 1)) = k + digitCount digits := by
      rw [digitCount_mul_pow _ positive]
      omega
    have scaled : digits * 10 ^ (k + 1) * unitsPerOne = digits * 10 ^ k * unitsPerOne * 10 := by
      rw [Nat.pow_succ]
      ring
    have rank := rankOfUnits_mul_right (digits * 10 ^ k * unitsPerOne) 1 (c := 10) (by decide)
    simp only [rankOfDecimal?, whole, positive.ne', if_false, place, Nat.pow_eq]
    simp [scaled, rank]

theorem Numeral.rank?_ofNat (n : Nat) (exponent : Int) :
    (Numeral.ofNat n exponent).rank? = rankOfDecimal? n exponent := by
  simp [Numeral.rank?, Numeral.ofNat, Nat.ofDigitChars_ten_toDigits]

theorem Numeral.isDigit_ofNat (n : Nat) (exponent : Int) :
    ∀ c ∈ (Numeral.ofNat n exponent).digits, c.isDigit = true :=
  fun _ member => Nat.isDigit_of_mem_toDigits (b := 10) (by decide) (by decide) member

theorem Numeral.mem_of_mem_trimmed {n : Numeral} {c : Char} (member : c ∈ n.trimmed.digits) :
    c ∈ n.digits := by
  rw [trimmed, List.mem_reverse] at member
  exact List.mem_reverse.1 ((List.dropWhile_sublist _).subset member)

namespace Double

variable (d : Double)

theorem units_pos (nonzero : d.isZero = false) : 0 < d.units := by
  have positive : d.rank.val ≠ 0 := by simpa [isZero] using nonzero
  unfold units unitsOfRank
  split
  · omega
  · simp only [Nat.pow_eq]
    positivity

theorem place_exact (nonzero : d.isZero = false) :
    673 < digitCount (d.units * 5 ^ 1074) ∧ digitCount (d.units * 5 ^ 1074) ≤ 1474 := by
  have bound : d.rank.val < 2047 * 2 ^ 52 := d.rank.isLt
  have small : d.units < 2 ^ 53 * 2 ^ 2046 := unitsOfRank_lt (by omega)
  exact ⟨lt_digitCount_mul (by decide) (d.units_pos nonzero) (by decide +kernel),
    digitCount_mul_le (by decide) small.le (by decide +kernel)⟩

theorem rank?_exact (nonzero : d.isZero = false) : d.exact.rank? = some d.rank := by
  have positive := d.units_pos nonzero
  have ⟨low, high⟩ := d.place_exact nonzero
  have power : Nat.pow 5 1074 = 5 ^ 1074 := by decide +kernel
  have value : rankOfUnits (d.units * 5 ^ 1074 * unitsPerOne) (10 ^ 1074) = d.rank.val := by
    rw [unitsPerOne_eq, mul_pow_five_mul_pow_two, rankOfUnits_mul_pow, units,
      rankOfUnits_unitsOfRank]
  rw [exact, Numeral.rank?_ofNat, power]
  exact rankOfDecimal?_neg (k := 1074) (by positivity) (by omega) (by omega) value

theorem rank?_of_withDigits? {count : Nat} {n : Numeral} (found : d.withDigits? count = some n) :
    n.rank? = some d.rank := by
  simpa using List.find?_some found

theorem shortest_cases :
    d.isZero = true ∧ d.shortest = ⟨['0'], 1⟩ ∨
    (∃ count, d.withDigits? count = some d.shortest) ∨
    d.isZero = false ∧ d.shortest = d.exact := by
  unfold shortest
  split
  next zero => exact .inl ⟨zero, rfl⟩
  next nonzero =>
    cases found : (List.range maxDigits).findSome? fun k => d.withDigits? (k + 1) with
    | none => exact .inr (.inr ⟨by simpa using nonzero, rfl⟩)
    | some n =>
      obtain ⟨k, -, taken⟩ := List.exists_of_findSome?_eq_some found
      exact .inr (.inl ⟨k + 1, taken⟩)

/-- The shortest decimal of a number reads back to it. -/
theorem rank?_shortest : d.shortest.rank? = some d.rank := by
  rcases d.shortest_cases with ⟨zero, shortest⟩ | ⟨count, taken⟩ | ⟨nonzero, shortest⟩
  · have rank : d.rank = ⟨0, by decide⟩ := Fin.ext (by simpa [isZero] using zero)
    rw [shortest, rank]
    rfl
  · exact d.rank?_of_withDigits? taken
  · rw [shortest]
    exact d.rank?_exact nonzero

theorem isDigit_of_mem_digits_shortest : ∀ c ∈ d.shortest.digits, c.isDigit = true := by
  rcases d.shortest_cases with ⟨-, shortest⟩ | ⟨count, taken⟩ | ⟨-, shortest⟩
  · simp [shortest]
  · obtain ⟨n, -, numeral⟩ := List.mem_map.1 (List.mem_of_find?_eq_some taken)
    rw [← numeral]
    exact fun c member => Numeral.isDigit_ofNat _ _ c (Numeral.mem_of_mem_trimmed member)
  · rw [shortest]
    exact Numeral.isDigit_ofNat _ _

theorem digits_shortest_ne_nil : d.shortest.digits ≠ [] := by
  intro empty
  have read := d.rank?_shortest
  have zero : d.isZero = true := by
    simp only [Numeral.rank?, empty, Nat.ofDigitChars_nil, rankOfDecimal?, if_true,
      Option.some.injEq] at read
    simp [isZero, ← read]
  rw [shortest, if_pos zero] at empty
  exact absurd empty (by decide)

end Double

end Harvest.Decimal
