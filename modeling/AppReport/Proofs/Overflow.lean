import AppReport.Proofs.Rounding

/-!
# Numbers out of range

Halfway between the greatest finite number and the power of two above it is where rounding begins to
be out of range (`Binary64.overflowThreshold`): a half goes to the even neighbour, which is that
power. What is rounded to a finite number is exactly what is below it
(`Binary64.isFinite_nearest_iff`), whether it is an integer (`Binary64.isFinite_ofInt_iff`) or a
product (`Binary64.isFinite_scale_iff`).
-/

namespace AppReport.Number

/-! ### Bounds on halves to even -/

theorem le_halfEven {q : ℚ} {n : ℕ} (hq : 0 ≤ q) (h : (n : ℚ) ≤ q) : n ≤ halfEven q := by
  have hfloor : n ≤ ⌊q⌋₊ := (Nat.le_floor_iff hq).mpr h
  unfold halfEven
  split <;> omega

theorem halfEven_le {q : ℚ} {n : ℕ} (hq : 0 ≤ q) (h : q < n) : halfEven q ≤ n := by
  have hfloor : ⌊q⌋₊ < n := (Nat.floor_lt hq).mpr h
  unfold halfEven
  split <;> omega

/-- Rounding adds a half at most. -/
theorem halfEven_le_add_half {q : ℚ} (hq : 0 ≤ q) : (halfEven q : ℚ) ≤ q + 1 / 2 := by
  have hfloor : (⌊q⌋₊ : ℚ) ≤ q := Nat.floor_le hq
  unfold halfEven
  split
  · linarith
  · rename_i hnot
    rw [not_or, not_lt] at hnot
    push_cast
    linarith [hnot.1]

/-- From a half above an odd number on, the next number is the nearest. -/
theorem halfEven_of_odd {q : ℚ} {n : ℕ} (hodd : n % 2 = 1) (hlow : n + 1 / 2 ≤ q)
    (hhigh : q < n + 1) : halfEven q = n + 1 := by
  have hfloor : ⌊q⌋₊ = n := by
    rw [Nat.floor_eq_iff (by have := n.cast_nonneg (α := ℚ); linarith)]
    exact ⟨by linarith, hhigh⟩
  unfold halfEven
  rw [hfloor, if_neg]
  rintro (hless | ⟨-, heven⟩)
  · linarith
  · omega

namespace Binary64

/-! ### The exponent of a number -/

theorem two_zpow_le_iff {q : ℚ} (hq : 0 < q) (k : ℤ) : 2 ^ k ≤ q ↔ k ≤ Int.log 2 q := by
  rw [← Int.zpow_le_iff_le_log one_lt_two hq, Nat.cast_ofNat]

theorem lt_two_zpow_iff {q : ℚ} (hq : 0 < q) (k : ℤ) : q < 2 ^ k ↔ Int.log 2 q < k := by
  rw [← Int.lt_zpow_iff_log_lt one_lt_two hq, Nat.cast_ofNat]

theorem two_zpow_natCast_add (k : ℕ) (e : ℤ) : (2 : ℚ) ^ (k + e) = 2 ^ k * 2 ^ e := by
  rw [zpow_add₀ two_ne_zero, zpow_natCast]

theorem lt_zpow_exponentOf {q : ℚ} (hq : 0 < q) : q < 2 ^ (53 + exponentOf q) := by
  rw [lt_two_zpow_iff hq]
  unfold exponentOf
  omega

theorem zpow_exponentOf_le {q : ℚ} (hq : 0 < q) (h : exponentOf q ≠ -1074) :
    2 ^ (52 + exponentOf q) ≤ q := by
  rw [two_zpow_le_iff hq]
  unfold exponentOf at h ⊢
  omega

/-- Below the power of two that is out of range, exponents are no greater than those of finite
numbers. -/
theorem exponentOf_le {q : ℚ} (hq : 0 < q) (h : q < 2 ^ (1024 : ℤ)) : exponentOf q ≤ 971 := by
  rw [lt_two_zpow_iff hq] at h
  unfold exponentOf
  omega

/-- Between the last two powers of two, the exponent is the greatest one of finite numbers. -/
theorem exponentOf_eq {q : ℚ} (hlow : 2 ^ (1023 : ℤ) ≤ q) (hhigh : q < 2 ^ (1024 : ℤ)) :
    exponentOf q = 971 := by
  have hq : 0 < q := (zpow_pos two_pos _).trans_le hlow
  rw [two_zpow_le_iff hq] at hlow
  rw [lt_two_zpow_iff hq] at hhigh
  unfold exponentOf
  omega

/-! ### The end of the range -/

/-- The number halfway between the greatest finite number and the power of two above it. -/
def overflowThreshold : ℚ := (2 ^ 53 - 1 / 2) * 2 ^ (971 : ℤ)

theorem overflowThreshold_pos : 0 < overflowThreshold := by
  unfold overflowThreshold
  have hmantissa : (0 : ℚ) < 2 ^ 53 - 1 / 2 := by norm_num
  positivity

theorem overflowThreshold_lt : overflowThreshold < 2 ^ (1024 : ℤ) := by
  have hsplit : (2 : ℚ) ^ (1024 : ℤ) = 2 ^ 53 * 2 ^ (971 : ℤ) := two_zpow_natCast_add 53 971
  rw [overflowThreshold, hsplit]
  gcongr
  norm_num

theorem le_overflowThreshold : 2 ^ (1023 : ℤ) ≤ overflowThreshold := by
  have hsplit : (2 : ℚ) ^ (1023 : ℤ) = 2 ^ 52 * 2 ^ (971 : ℤ) := two_zpow_natCast_add 52 971
  rw [overflowThreshold, hsplit]
  gcongr
  norm_num

variable (negative : Bool)

theorem isFinite_normal {m : ℕ} {e : ℤ} (hm : m ≤ Nat.pow 2 53)
    (hbits : Nat.pow 2 52 ≤ m ∨ e = -1074) (hleast : -1074 ≤ e) (hmost : e ≤ 971)
    (htop : m = Nat.pow 2 53 → e < 971) : (normal negative m e).isFinite = true := by
  unfold normal
  by_cases heq : m = Nat.pow 2 53
  · have hcanonical : Canonical (Nat.pow 2 52) (e + 1) := by
      have := htop heq
      exact ⟨by decide, by omega, by omega, Or.inl le_rfl⟩
    simp only [if_pos heq, dif_pos hcanonical]
    rfl
  · have hcanonical : Canonical m e := ⟨lt_of_le_of_ne hm heq, hleast, hmost, hbits⟩
    simp only [if_neg heq, dif_pos hcanonical]
    rfl

/-- Below the threshold the mantissa has room. -/
theorem isFinite_nearest {q : ℚ} (hq : 0 ≤ q) (h : q < overflowThreshold) :
    (nearest negative q).isFinite = true := by
  unfold nearest
  by_cases hzero : q = 0
  · rw [if_pos hzero]
    rfl
  rw [if_neg hzero]
  have hpos : 0 < q := lt_of_le_of_ne hq (Ne.symm hzero)
  have hpow : (0 : ℚ) < 2 ^ exponentOf q := by positivity
  have hmantissa : 0 ≤ q / 2 ^ exponentOf q := by positivity
  have hmost : exponentOf q ≤ 971 := exponentOf_le hpos (h.trans overflowThreshold_lt)
  apply isFinite_normal
  · apply halfEven_le hmantissa
    rw [div_lt_iff₀ hpow]
    calc q < 2 ^ (53 + exponentOf q) := lt_zpow_exponentOf hpos
      _ = 2 ^ 53 * 2 ^ exponentOf q := two_zpow_natCast_add 53 _
      _ = ((Nat.pow 2 53 : ℕ) : ℚ) * 2 ^ exponentOf q := by norm_num
  · by_cases hleast : exponentOf q = -1074
    · exact Or.inr hleast
    · refine Or.inl (le_halfEven hmantissa ?_)
      rw [le_div_iff₀ hpow]
      calc ((Nat.pow 2 52 : ℕ) : ℚ) * 2 ^ exponentOf q = 2 ^ 52 * 2 ^ exponentOf q := by norm_num
        _ = 2 ^ (52 + exponentOf q) := (two_zpow_natCast_add 52 _).symm
        _ ≤ q := zpow_exponentOf_le hpos hleast
  · exact le_max_right _ _
  · exact hmost
  · -- with the greatest exponent, only from the threshold on is the mantissa that power of two
    intro htop
    apply lt_of_le_of_ne hmost
    intro hexponent
    have hhalf := halfEven_le_add_half hmantissa
    rw [htop, hexponent, ← sub_le_iff_le_add, le_div_iff₀ (by positivity)] at hhalf
    have hle : overflowThreshold ≤ q := by
      unfold overflowThreshold
      exact_mod_cast hhalf
    exact absurd h (not_lt.mpr hle)

/-- From the threshold on, what is nearest is out of range. -/
theorem nearest_of_le_threshold {q : ℚ} (h : overflowThreshold ≤ q) :
    nearest negative q = .infinite negative := by
  by_cases hlarge : 2 ^ (1024 : ℤ) ≤ q
  · exact nearest_of_large negative hlarge
  rw [not_le] at hlarge
  have hq : q ≠ 0 := (overflowThreshold_pos.trans_le h).ne'
  have hexponent := exponentOf_eq (le_overflowThreshold.trans h) hlarge
  have hmantissa : halfEven (q / 2 ^ (971 : ℤ)) = (2 ^ 53 - 1) + 1 := by
    apply halfEven_of_odd (by norm_num)
    · rw [le_div_iff₀ (by positivity)]
      refine le_trans (le_of_eq ?_) h
      rw [overflowThreshold]
      norm_num
    · rw [div_lt_iff₀ (by positivity)]
      refine (hlarge.trans_eq (two_zpow_natCast_add 53 971)).trans_eq ?_
      congr 1
      norm_num
  unfold nearest normal
  rw [if_neg hq, hexponent, hmantissa]
  rfl

/-- A number that is not negative is rounded to a finite one exactly below the threshold. -/
theorem isFinite_nearest_iff {q : ℚ} (hq : 0 ≤ q) :
    (nearest negative q).isFinite = true ↔ q < overflowThreshold := by
  constructor
  · intro hfinite
    by_contra hnot
    rw [nearest_of_le_threshold negative (not_lt.mp hnot)] at hfinite
    cases hfinite
  · exact isFinite_nearest negative hq

/-! ### Integers and products -/

theorem ofInt_eq_nearest (n : ℤ) : ofInt n = nearest (decide (n < 0)) n.natAbs := by
  rw [ofInt, ofRatio_eq_nearest _ _ one_ne_zero, Nat.cast_one, div_one]

theorem isFinite_ofInt_iff {n : ℤ} :
    (ofInt n).isFinite = true ↔ (n.natAbs : ℚ) < overflowThreshold := by
  rw [ofInt_eq_nearest, isFinite_nearest_iff _ (Nat.cast_nonneg _)]

/-- The value of a finite number without its sign. -/
theorem ratio_eq (m : ℕ) (e : ℤ) :
    ((ratio m e).1 : ℚ) / (ratio m e).2 = m * 2 ^ e ∧ (ratio m e).2 ≠ 0 := by
  unfold ratio
  split
  · rename_i he
    rw [ofNat_zpow_of_nonneg he]
    exact ⟨by simp, one_ne_zero⟩
  · rename_i he
    rw [ofNat_zpow_of_neg (not_le.mp he), div_eq_mul_inv]
    exact ⟨rfl, (Nat.pow_pos two_pos).ne'⟩

theorem scale_finite {m : ℕ} {e : ℤ} (h : Canonical m e) (factor : ℕ) :
    (finite negative m e h).scale factor = nearest negative (m * 2 ^ e * factor) := by
  obtain ⟨hvalue, hdenominator⟩ := ratio_eq m e
  show ofRatio negative ((ratio m e).1 * factor) (ratio m e).2 = _
  rw [ofRatio_eq_nearest _ _ hdenominator, ← hvalue, Nat.cast_mul, div_mul_eq_mul_div]

/-- A product is finite exactly where the factor is finite and the exact product is below the
threshold. -/
theorem isFinite_scale_iff {x : Binary64} {factor : ℕ} :
    (x.scale factor).isFinite = true ↔ ∃ negative m e h, x = .finite negative m e h ∧
      (m : ℚ) * 2 ^ e * factor < overflowThreshold := by
  cases x with
  | finite negative m e h =>
    have hvalue : (0 : ℚ) ≤ m * 2 ^ e * factor := by positivity
    rw [scale_finite, isFinite_nearest_iff negative hvalue]
    constructor
    · exact fun hlt => ⟨negative, m, e, h, rfl, hlt⟩
    · rintro ⟨_, _, _, _, heq, hlt⟩
      cases heq
      exact hlt
  | _ =>
    -- what is not finite stays as it is
    constructor
    · intro hfinite
      cases hfinite
    · rintro ⟨_, _, _, _, heq, -⟩
      cases heq

end Binary64

end AppReport.Number
