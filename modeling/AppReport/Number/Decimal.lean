/-!
# Decimal digits

`digits n` writes a natural number with its most significant digit first, `ofDigits` reads digits
back, and `ofDigits_digits` says that nothing is lost on the way.
-/

namespace AppReport.Number

/-- The character of a digit below ten. -/
def digitChar (d : Nat) : Char := Char.ofNat (48 + d)

/-- The value of a decimal digit of ASCII; other characters count as zero. -/
def digitValue (c : Char) : Nat := if c.isDigit then c.toNat - 48 else 0

/-- The decimal digits of `n` in front of `rest`. -/
def digitsOnto (n : Nat) (rest : List Char) : List Char :=
  if n < 10 then digitChar n :: rest else digitsOnto (n / 10) (digitChar (n % 10) :: rest)
termination_by n

/-- The decimal digits of `n`, most significant first. -/
def digits (n : Nat) : List Char := digitsOnto n []

/-- The number that a row of decimal digits denotes. -/
def ofDigits (cs : List Char) : Nat := cs.foldl (fun n c => 10 * n + digitValue c) 0

/-- An integer in decimal, with a sign only when it is negative. -/
def intText (n : Int) : List Char :=
  if n < 0 then '-' :: digits n.natAbs else digits n.natAbs

/-! ### Digits read back -/

theorem digitValue_digitChar : ∀ d < 10, digitValue (digitChar d) = d := by decide

theorem isDigit_digitChar : ∀ d < 10, (digitChar d).isDigit = true := by decide

theorem digitsOnto_eq_append (n : Nat) (rest : List Char) :
    digitsOnto n rest = digitsOnto n [] ++ rest := by
  induction n using Nat.strongRecOn generalizing rest with
  | _ n ih =>
    rw [digitsOnto, digitsOnto.eq_def n []]
    split
    · rfl
    · rw [ih (n / 10) (by omega), ih (n / 10) (by omega) [digitChar (n % 10)]]
      simp

/-- A number of two or more digits is the digits of its tenth part and one more digit. -/
theorem digits_eq_append (n : Nat) (h : 10 ≤ n) :
    digits n = digits (n / 10) ++ [digitChar (n % 10)] := by
  rw [digits, digitsOnto, if_neg (by omega), digitsOnto_eq_append]
  rfl

theorem digits_of_lt (n : Nat) (h : n < 10) : digits n = [digitChar n] := by
  rw [digits, digitsOnto, if_pos h]

theorem ofDigits_append_singleton (cs : List Char) (c : Char) :
    ofDigits (cs ++ [c]) = 10 * ofDigits cs + digitValue c := by
  simp [ofDigits]

/-- Reading the digits of a number gives the number. -/
theorem ofDigits_digits (n : Nat) : ofDigits (digits n) = n := by
  induction n using Nat.strongRecOn with
  | _ n ih =>
    by_cases h : n < 10
    · rw [digits_of_lt n h]
      simp [ofDigits, digitValue_digitChar n h]
    · rw [digits_eq_append n (by omega), ofDigits_append_singleton, ih (n / 10) (by omega),
        digitValue_digitChar _ (Nat.mod_lt _ (by omega))]
      omega

/-- The digits of a number are decimal digits. -/
theorem isDigit_of_mem_digits (n : Nat) {c : Char} (h : c ∈ digits n) : c.isDigit = true := by
  induction n using Nat.strongRecOn with
  | _ n ih =>
    by_cases hn : n < 10
    · rw [digits_of_lt n hn, List.mem_singleton] at h
      exact h ▸ isDigit_digitChar n hn
    · rw [digits_eq_append n (by omega), List.mem_append, List.mem_singleton] at h
      rcases h with h | h
      · exact ih (n / 10) (by omega) h
      · exact h ▸ isDigit_digitChar _ (Nat.mod_lt _ (by omega))

theorem digits_ne_nil (n : Nat) : digits n ≠ [] := by
  by_cases h : n < 10
  · simp [digits_of_lt n h]
  · simp [digits_eq_append n (by omega)]

/-- The digits of a number other than zero do not begin with a zero. -/
theorem head?_digits_ne_zero {n : Nat} (h : n ≠ 0) : (digits n).head? ≠ some '0' := by
  induction n using Nat.strongRecOn with
  | _ n ih =>
    by_cases hn : n < 10
    · rw [digits_of_lt n hn]
      have hdigit : ∀ d < 10, d ≠ 0 → digitChar d ≠ '0' := by decide
      simpa using hdigit n hn h
    · have htenth := ih (n / 10) (by omega) (by omega)
      obtain ⟨c, cs, hcs⟩ := List.exists_cons_of_ne_nil (digits_ne_nil (n / 10))
      rw [hcs] at htenth
      rw [digits_eq_append n (by omega), hcs]
      exact htenth

/-- A number below a power of ten has no more digits than zeros stand in that power. -/
theorem length_digits_le {n k : Nat} (hk : 0 < k) (h : n < Nat.pow 10 k) :
    (digits n).length ≤ k := by
  induction n using Nat.strongRecOn generalizing k with
  | _ n ih =>
    by_cases hn : n < 10
    · rw [digits_of_lt n hn]
      exact hk
    · obtain ⟨k, rfl⟩ : ∃ j, k = j + 1 := ⟨k - 1, by omega⟩
      have hk' : 0 < k := by
        cases k with
        | zero => exact absurd h hn
        | succ k => omega
      have hlt : n / 10 < Nat.pow 10 k := (Nat.div_lt_iff_lt_mul (by omega)).mpr h
      rw [digits_eq_append n (by omega), List.length_append]
      exact Nat.add_le_add_right (ih (n / 10) (by omega) hk' hlt) 1

/-! ### Rows of digits -/

theorem ofDigits_append (cs ds : List Char) :
    ofDigits (cs ++ ds) = ofDigits cs * Nat.pow 10 ds.length + ofDigits ds := by
  have hfoldl : ∀ n, ds.foldl (fun n c => 10 * n + digitValue c) n =
      n * Nat.pow 10 ds.length + ds.foldl (fun n c => 10 * n + digitValue c) 0 := by
    induction ds with
    | nil => simp
    | cons d ds ih =>
      intro n
      rw [List.foldl_cons, List.foldl_cons, ih (10 * n + digitValue d),
        ih (10 * 0 + digitValue d), List.length_cons, Nat.pow_eq, Nat.pow_eq, Nat.pow_succ,
        Nat.mul_zero, Nat.zero_add, Nat.add_mul]
      ac_rfl
  rw [ofDigits, List.foldl_append]
  exact hfoldl _

/-- Zeros in front of digits make no difference. -/
theorem ofDigits_replicate_append (k : Nat) (ds : List Char) :
    ofDigits (List.replicate k '0' ++ ds) = ofDigits ds := by
  induction k with
  | zero => rfl
  | succ k ih => exact ih

theorem ofDigits_replicate (k : Nat) : ofDigits (List.replicate k '0') = 0 := by
  rw [← List.append_nil (List.replicate k '0'), ofDigits_replicate_append]
  rfl

theorem digitValue_lt (c : Char) : digitValue c < 10 := by
  unfold digitValue
  split
  · rename_i h
    have hrange : 48 ≤ c.toNat ∧ c.toNat ≤ 57 := by
      simpa [Char.isDigit, UInt32.le_iff_toNat_le] using h
    omega
  · omega

/-- No more than `k` digits denote a number below the power of ten with `k` zeros. -/
theorem ofDigits_lt {cs : List Char} {k : Nat} (h : cs.length ≤ k) :
    ofDigits cs < Nat.pow 10 k := by
  induction cs generalizing k with
  | nil => exact Nat.pow_pos (by omega)
  | cons c cs ih =>
    obtain ⟨k, rfl⟩ : ∃ j, k = j + 1 := ⟨k - 1, by rw [List.length_cons] at h; omega⟩
    have hrest := ih (Nat.le_refl cs.length)
    have hpow : Nat.pow 10 cs.length ≤ Nat.pow 10 k :=
      Nat.pow_le_pow_right (by omega) (Nat.le_of_succ_le_succ h)
    have hle : digitValue c * Nat.pow 10 cs.length ≤ 9 * Nat.pow 10 cs.length :=
      Nat.mul_le_mul_right _ (Nat.le_of_lt_succ (digitValue_lt c))
    have hvalue : ofDigits [c] = digitValue c := by simp [ofDigits]
    have hsucc : Nat.pow 10 (k + 1) = Nat.pow 10 k * 10 := rfl
    rw [← List.singleton_append, ofDigits_append, hvalue, hsucc]
    omega

end AppReport.Number
