import AppReport.Number.Shortest
import Mathlib.Algebra.Order.Field.Power
import Mathlib.Algebra.Order.Floor.Semifield
import Mathlib.Data.Int.Log
import Mathlib.Data.Rat.Floor
import Mathlib.Tactic.FieldSimp
import Mathlib.Tactic.GCongr
import Mathlib.Tactic.Positivity
import Mathlib.Tactic.Ring

/-!
# Rounding rational numbers

A ratio and a decimal are both rounded to the floating-point number nearest to their value
(`Binary64.ofRatio_eq_nearest`, `Binary64.ofDecimal_eq_nearest`), so that decimals of one value are
read as one number, however they are written. A number that is rounded already stays as it is
(`Binary64.nearest_of_canonical`).
-/

namespace AppReport.Number

/-! ### Halves to even -/

/-- The natural number nearest to a rational one that is not negative; a half goes to the even
neighbour. -/
def halfEven (q : ℚ) : ℕ :=
  if q - ⌊q⌋₊ < 1 / 2 ∨ (q - ⌊q⌋₊ = 1 / 2 ∧ ⌊q⌋₊ % 2 = 0) then ⌊q⌋₊ else ⌊q⌋₊ + 1

/-- A whole number is not rounded. -/
theorem halfEven_natCast (n : ℕ) : halfEven n = n := by
  rw [halfEven, Nat.floor_natCast, sub_self]
  exact if_pos (Or.inl (by norm_num))

/-- Less than a half becomes nothing. -/
theorem halfEven_eq_zero {q : ℚ} (h : q < 1 / 2) : halfEven q = 0 := by
  have hfloor : ⌊q⌋₊ = 0 := Nat.floor_eq_zero.mpr (h.trans (by norm_num))
  rw [halfEven, hfloor]
  exact if_pos (Or.inl (by simpa using h))

theorem roundHalfEven_eq {n d : ℕ} (hd : 0 < d) : roundHalfEven n d = halfEven ((n : ℚ) / d) := by
  have hd' : (0 : ℚ) < d := Nat.cast_pos.mpr hd
  have hfloor : ⌊(n : ℚ) / d⌋₊ = n / d := Nat.floor_div_eq_div n d
  -- what is left of the quotient is the remainder over the divisor
  have hrest : (n : ℚ) / d - ((n / d : ℕ) : ℚ) = ((n % d : ℕ) : ℚ) / d := by
    have hn : (n : ℚ) = d * ((n / d : ℕ) : ℚ) + ((n % d : ℕ) : ℚ) := by
      exact_mod_cast (Nat.div_add_mod n d).symm
    rw [sub_eq_iff_eq_add, eq_comm, div_add' _ _ _ hd'.ne', div_left_inj' hd'.ne', hn]
    ring
  have hlt : ((n % d : ℕ) : ℚ) / d < 1 / 2 ↔ 2 * (n % d) < d := by
    rw [div_lt_div_iff₀ hd' two_pos, one_mul, mul_comm]
    exact_mod_cast Iff.rfl
  have heq : ((n % d : ℕ) : ℚ) / d = 1 / 2 ↔ 2 * (n % d) = d := by
    rw [div_eq_div_iff hd'.ne' two_ne_zero, one_mul, mul_comm]
    exact_mod_cast Iff.rfl
  rw [roundHalfEven, halfEven, hfloor, hrest]
  simp only [hlt, heq]

/-- A power with an integer exponent, as the power of the absolute value of the exponent. -/
theorem ofNat_zpow_of_nonneg {b : ℕ} [b.AtLeastTwo] {e : ℤ} (he : 0 ≤ e) :
    (ofNat(b) : ℚ) ^ e = ((Nat.pow ofNat(b) e.toNat : ℕ) : ℚ) := by
  obtain ⟨k, rfl⟩ := Int.eq_ofNat_of_zero_le he
  simp

theorem ofNat_zpow_of_neg {b : ℕ} [b.AtLeastTwo] {e : ℤ} (he : e < 0) :
    (ofNat(b) : ℚ) ^ e = ((Nat.pow ofNat(b) e.natAbs : ℕ) : ℚ)⁻¹ := by
  obtain ⟨k, rfl⟩ := Int.eq_negSucc_of_lt_zero he
  simp [zpow_negSucc]

/-- Rounding to a power of two. -/
theorem roundScaled_eq {n d : ℕ} (hd : 0 < d) (e : ℤ) :
    roundScaled n d e = halfEven ((n : ℚ) / d / 2 ^ e) := by
  rw [roundScaled]
  split
  · rename_i he
    have hpos : 0 < d * Nat.pow 2 e.toNat := Nat.mul_pos hd (Nat.pow_pos two_pos)
    rw [roundHalfEven_eq hpos, ofNat_zpow_of_nonneg he, div_div, Nat.cast_mul]
  · rename_i he
    rw [roundHalfEven_eq hd, ofNat_zpow_of_neg (not_le.mp he), div_inv_eq_mul, div_mul_eq_mul_div,
      Nat.cast_mul]

namespace Binary64

/-! ### The nearest number -/

/-- The exponent at which a positive rational number has a mantissa of 53 bits, or the least
exponent if that is greater. -/
def exponentOf (q : ℚ) : ℤ := max (Int.log 2 q - 52) (-1074)

/-- The number nearest to a rational one, with a sign; ties go to the even mantissa. -/
def nearest (negative : Bool) (q : ℚ) : Binary64 :=
  if q = 0 then zero negative
  else normal negative (halfEven (q / 2 ^ exponentOf q)) (exponentOf q)

/-- The exponent of a quotient is found without dividing. -/
theorem scaleOf_eq {n d : ℕ} (hn : n ≠ 0) (hd : d ≠ 0) :
    scaleOf n d = exponentOf ((n : ℚ) / d) := by
  have hn' : (0 : ℚ) < n := Nat.cast_pos.mpr (Nat.pos_of_ne_zero hn)
  have hd' : (0 : ℚ) < d := Nat.cast_pos.mpr (Nat.pos_of_ne_zero hd)
  have hq : (0 : ℚ) < (n : ℚ) / d := div_pos hn' hd'
  let e : ℤ := (n.log2 : ℤ) - (d.log2 : ℤ)
  -- the lengths of both numbers leave two possible logarithms
  have hnlow : ((2 : ℚ) ^ n.log2) ≤ n := by exact_mod_cast Nat.log2_self_le hn
  have hnhigh : (n : ℚ) < 2 ^ (n.log2 + 1) := by exact_mod_cast Nat.lt_log2_self
  have hdlow : ((2 : ℚ) ^ d.log2) ≤ d := by exact_mod_cast Nat.log2_self_le hd
  have hdhigh : (d : ℚ) < 2 ^ (d.log2 + 1) := by exact_mod_cast Nat.lt_log2_self
  have hupper : Int.log 2 ((n : ℚ) / d) < e + 1 := by
    rw [← Int.lt_zpow_iff_log_lt one_lt_two hq, div_lt_iff₀ hd']
    calc (n : ℚ) < 2 ^ (n.log2 + 1) := hnhigh
      _ = 2 ^ (e + 1) * 2 ^ d.log2 := by
        rw [← zpow_natCast, ← zpow_natCast, ← zpow_add₀ two_ne_zero]
        congr 1
        push_cast
        omega
      _ ≤ ((2 : ℕ) : ℚ) ^ (e + 1) * d := by
        push_cast
        gcongr
  have hlower : e - 1 ≤ Int.log 2 ((n : ℚ) / d) := by
    rw [← Int.zpow_le_iff_le_log one_lt_two hq, le_div_iff₀ hd']
    calc ((2 : ℕ) : ℚ) ^ (e - 1) * d ≤ 2 ^ (e - 1) * 2 ^ (d.log2 + 1) := by
          push_cast
          gcongr
      _ = 2 ^ n.log2 := by
        rw [← zpow_natCast, ← zpow_natCast, ← zpow_add₀ two_ne_zero]
        congr 1
        push_cast
        omega
      _ ≤ n := hnlow
  have hbelow : (if 0 ≤ e then decide (n < d * Nat.pow 2 e.toNat)
      else decide (n * Nat.pow 2 e.natAbs < d)) = true ↔ Int.log 2 ((n : ℚ) / d) < e := by
    rw [← Int.lt_zpow_iff_log_lt one_lt_two hq, div_lt_iff₀ hd', Nat.cast_ofNat]
    split
    · rename_i he
      rw [ofNat_zpow_of_nonneg he, decide_eq_true_iff, mul_comm]
      exact_mod_cast Iff.rfl
    · rename_i he
      have hpow : (0 : ℚ) < ((Nat.pow 2 e.natAbs : ℕ) : ℚ) :=
        Nat.cast_pos.mpr (Nat.pow_pos two_pos)
      rw [ofNat_zpow_of_neg (not_le.mp he), decide_eq_true_iff, inv_mul_eq_div, lt_div_iff₀ hpow]
      exact_mod_cast Iff.rfl
  rw [scaleOf, exponentOf]
  by_cases hcase : Int.log 2 ((n : ℚ) / d) < e
  · rw [if_pos (hbelow.mpr hcase)]
    congr 1
    omega
  · rw [if_neg (mt hbelow.mp hcase)]
    congr 1
    omega

/-- A ratio is rounded to the number nearest to its value. -/
theorem ofRatio_eq_nearest (negative : Bool) (n : ℕ) {d : ℕ} (hd : d ≠ 0) :
    ofRatio negative n d = nearest negative ((n : ℚ) / d) := by
  have hd' : (d : ℚ) ≠ 0 := Nat.cast_ne_zero.mpr hd
  rw [ofRatio, nearest]
  by_cases hn : n = 0
  · rw [if_pos hn, if_pos (by rw [hn]; simp)]
  · rw [if_neg hn, if_neg (div_ne_zero (Nat.cast_ne_zero.mpr hn) hd'), scaleOf_eq hn hd,
      roundScaled_eq (Nat.pos_of_ne_zero hd)]

/-! ### Numbers that need no rounding -/

theorem exponentOf_of_canonical {m : ℕ} {e : ℤ} (h : Canonical m e) (hm : m ≠ 0) :
    exponentOf ((m : ℚ) * 2 ^ e) = e := by
  obtain ⟨hlt, hleast, -, hnormal⟩ := h
  have hpos : (0 : ℚ) < m * 2 ^ e := by
    have : (0 : ℚ) < m := Nat.cast_pos.mpr (Nat.pos_of_ne_zero hm)
    positivity
  have hupper : Int.log 2 ((m : ℚ) * 2 ^ e) < e + 53 := by
    rw [← Int.lt_zpow_iff_log_lt one_lt_two hpos, Nat.cast_ofNat, zpow_add₀ two_ne_zero, mul_comm]
    have : (m : ℚ) < 2 ^ (53 : ℤ) := by exact_mod_cast hlt
    gcongr
  rw [exponentOf]
  rcases hnormal with hbits | rfl
  · have hlower : e + 52 ≤ Int.log 2 ((m : ℚ) * 2 ^ e) := by
      rw [← Int.zpow_le_iff_le_log one_lt_two hpos, Nat.cast_ofNat, zpow_add₀ two_ne_zero, mul_comm]
      have : (2 : ℚ) ^ (52 : ℤ) ≤ m := by exact_mod_cast hbits
      gcongr
    omega
  · omega

/-- What is in its canonical form stays as it is. -/
theorem normal_of_canonical (negative : Bool) {m : ℕ} {e : ℤ} (h : Canonical m e) :
    normal negative m e = .finite negative m e h := by
  rw [normal, if_neg h.1.ne]
  exact dif_pos h

/-- A number in its single form is the nearest to its own value. -/
theorem nearest_of_canonical (negative : Bool) {m : ℕ} {e : ℤ} (h : Canonical m e) :
    nearest negative (m * 2 ^ e) = .finite negative m e h := by
  have hpow : (2 : ℚ) ^ e ≠ 0 := zpow_ne_zero e two_ne_zero
  rw [nearest]
  by_cases hm : m = 0
  · subst hm
    -- zero has the least exponent
    obtain rfl : e = -1074 := h.2.2.2.resolve_left (by decide)
    rw [if_pos (by simp)]
    rfl
  · rw [if_neg (mul_ne_zero (Nat.cast_ne_zero.mpr hm) hpow), exponentOf_of_canonical h hm,
      mul_div_cancel_right₀ _ hpow, halfEven_natCast, normal_of_canonical negative h]

theorem normal_of_normal {m m' : ℕ} {e e' : ℤ} {h : Canonical m' e'}
    (hnormal : normal false m e = .finite false m' e' h) (negative : Bool) :
    normal negative m e = .finite negative m' e' h := by
  rw [normal] at hnormal ⊢
  generalize (if m = Nat.pow 2 53 then (Nat.pow 2 52, e + 1) else (m, e)) = pair at hnormal ⊢
  obtain ⟨m'', e''⟩ := pair
  dsimp only at hnormal ⊢
  by_cases hcanonical : Canonical m'' e''
  · rw [dif_pos hcanonical, Binary64.finite.injEq] at hnormal
    obtain ⟨-, rfl, rfl⟩ := hnormal
    exact dif_pos h
  · rw [dif_neg hcanonical] at hnormal
    cases hnormal

/-- The nearest number of another sign is the same but for the sign. -/
theorem nearest_of_nearest {q : ℚ} {m : ℕ} {e : ℤ} {h : Canonical m e}
    (hnearest : nearest false q = .finite false m e h) (negative : Bool) :
    nearest negative q = .finite negative m e h := by
  rw [nearest] at hnearest ⊢
  split
  · rename_i hq
    rw [if_pos hq, zero, Binary64.finite.injEq] at hnearest
    obtain ⟨-, rfl, rfl⟩ := hnearest
    rfl
  · rename_i hq
    rw [if_neg hq] at hnearest
    exact normal_of_normal hnearest negative

/-! ### Numbers out of range -/

/-- A number beyond the largest exponent becomes infinite. -/
theorem nearest_of_large (negative : Bool) {q : ℚ} (h : 2 ^ (1024 : ℤ) ≤ q) :
    nearest negative q = .infinite negative := by
  have hq : 0 < q := lt_of_lt_of_le (by positivity) h
  have hlog : 1024 ≤ Int.log 2 q :=
    (Int.zpow_le_iff_le_log one_lt_two hq).mp (by rwa [Nat.cast_ofNat])
  have hexponent : 972 ≤ exponentOf q := by
    rw [exponentOf]
    omega
  rw [nearest, if_neg hq.ne', normal]
  dsimp only
  rw [dif_neg]
  rintro ⟨-, -, hmost, -⟩
  split at hmost <;> (dsimp only at hmost; omega)

/-- A number below half the smallest one becomes zero. -/
theorem nearest_of_small (negative : Bool) {q : ℚ} (hq : 0 < q) (h : q < 2 ^ (-1075 : ℤ)) :
    nearest negative q = zero negative := by
  have hlog : Int.log 2 q < -1075 :=
    (Int.lt_zpow_iff_log_lt one_lt_two hq).mp (by rwa [Nat.cast_ofNat])
  have hexponent : exponentOf q = -1074 := by
    rw [exponentOf]
    omega
  have hhalf : q / 2 ^ (-1074 : ℤ) < 1 / 2 := by
    rw [div_lt_iff₀ (by positivity)]
    calc q < 2 ^ (-1075 : ℤ) := h
      _ = 1 / 2 * 2 ^ (-1074 : ℤ) := by
        rw [one_div, ← zpow_neg_one, ← zpow_add₀ two_ne_zero]
        rfl
  rw [nearest, if_neg hq.ne', hexponent, halfEven_eq_zero hhalf]
  rfl

/-! ### Decimals -/

/-- A decimal is rounded to the number nearest to its value. -/
theorem ofDecimal_eq_nearest (negative : Bool) (n : ℕ) (e : ℤ) :
    ofDecimal negative n e = nearest negative (n * 10 ^ e) := by
  rw [ofDecimal]
  by_cases hn : n = 0
  · rw [if_pos hn, nearest, if_pos (by rw [hn]; simp)]
  have hn' : (0 : ℚ) < n := Nat.cast_pos.mpr (Nat.pos_of_ne_zero hn)
  rw [if_neg hn]
  split
  · -- so many zeros that the number is beyond the largest exponent, as 8 < 10
    rename_i hlarge
    refine (nearest_of_large negative ?_).symm
    calc (2 : ℚ) ^ (1024 : ℤ) ≤ (2 ^ 3) ^ e := by
          rw [← zpow_natCast, ← zpow_mul]
          exact zpow_le_zpow_right₀ one_le_two (by push_cast; omega)
      _ ≤ 10 ^ e := zpow_le_zpow_left₀ (by omega) (by norm_num) (by norm_num)
      _ ≤ n * 10 ^ e := by
        have hone : (1 : ℚ) ≤ n := by exact_mod_cast Nat.pos_of_ne_zero hn
        exact le_mul_of_one_le_left (by positivity) hone
  split
  · -- so many places that the number is below half the smallest one, again as 8 < 10
    rename_i hsmall
    refine (nearest_of_small negative (by positivity) ?_).symm
    obtain ⟨k, rfl⟩ : ∃ k : ℕ, e = -k := ⟨e.natAbs, by omega⟩
    calc (n : ℚ) * 10 ^ (-(k : ℤ)) ≤ 2 ^ (n.log2 + 1) * (2 ^ 3) ^ (-(k : ℤ)) := by
          rw [zpow_neg, zpow_neg, zpow_natCast, zpow_natCast]
          have hhigh : (n : ℚ) ≤ 2 ^ (n.log2 + 1) := by exact_mod_cast Nat.lt_log2_self.le
          gcongr
          norm_num
      _ = 2 ^ ((n.log2 : ℤ) + 1 + 3 * (-(k : ℤ))) := by
        rw [← zpow_natCast, ← zpow_natCast, ← zpow_mul, ← zpow_add₀ two_ne_zero]
        push_cast
        rfl
      _ < 2 ^ (-1075 : ℤ) := zpow_lt_zpow_right₀ one_lt_two (by omega)
  split
  · rename_i he
    rw [ofRatio_eq_nearest negative _ one_ne_zero, ofNat_zpow_of_nonneg he, Nat.cast_one, div_one,
      Nat.cast_mul]
  · rename_i he
    have hpow : Nat.pow 10 e.natAbs ≠ 0 := (Nat.pow_pos (by norm_num)).ne'
    rw [ofRatio_eq_nearest negative _ hpow, ofNat_zpow_of_neg (not_le.mp he), div_eq_mul_inv]

end Binary64

/-! ### The shortest decimal -/

/-- The value of a decimal. -/
def Decimal.value (x : Decimal) : ℚ := x.significand * 10 ^ x.exponent

/-- A binary fraction is a decimal one. -/
theorem Decimal.value_ofBinary (m : ℕ) (e : ℤ) : (ofBinary m e).value = m * 2 ^ e := by
  rw [ofBinary]
  split
  · rename_i he
    simp only [value, ofNat_zpow_of_nonneg he, zpow_zero, mul_one, Nat.cast_mul]
  · rename_i he
    -- a power of five less is a power of ten less and a power of two more
    obtain ⟨k, rfl⟩ : ∃ k : ℕ, e = -k := ⟨e.natAbs, by omega⟩
    have hten : (10 : ℚ) = 2 * 5 := by norm_num
    simp only [value, Int.natAbs_neg, Int.natAbs_natCast, Nat.cast_mul, Nat.pow_eq, Nat.cast_pow,
      Nat.cast_ofNat, zpow_neg, zpow_natCast]
    rw [hten, mul_pow]
    field_simp

/-- The shortest decimal of a number is read as this number. -/
theorem nearest_value_shortest (negative : Bool) {m : ℕ} {e : ℤ} (h : Canonical m e) :
    Binary64.nearest negative (shortest m e).value = .finite negative m e h := by
  refine Binary64.nearest_of_nearest ?_ negative
  rw [shortest]
  generalize (List.range 17).flatMap _ = candidates
  cases hfind : candidates.find? fun d =>
      Binary64.ofDecimal false d.significand d.exponent = Binary64.normal false m e with
  | none =>
    rw [Option.getD_none, Decimal.value_ofBinary, Binary64.nearest_of_canonical false h]
  | some d =>
    have hfound := List.find?_some hfind
    rw [decide_eq_true_iff, Binary64.ofDecimal_eq_nearest,
      Binary64.normal_of_canonical false h] at hfound
    exact hfound

end AppReport.Number
