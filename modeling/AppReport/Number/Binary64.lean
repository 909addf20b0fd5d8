import AppReport.Number.Decimal

/-!
# Binary floating-point numbers of 64 bits

A finite number is a sign, a mantissa below `2 ^ 53` and a power of two, in the one form in which
either the mantissa has 53 bits or the exponent is the least one; so equal numbers are equal
terms, apart from the two zeros. All operations round an exact ratio to the nearest number, ties
to the even mantissa (`ofRatio`).
-/

namespace AppReport.Number

/-- The single form of a finite number: the exponent is in range, and only the least exponent
goes with a mantissa of fewer than 53 bits. -/
def Canonical (mantissa : Nat) (exponent : Int) : Prop :=
  mantissa < Nat.pow 2 53 ∧ -1074 ≤ exponent ∧ exponent ≤ 971 ∧
    (Nat.pow 2 52 ≤ mantissa ∨ exponent = -1074)

instance (mantissa : Nat) (exponent : Int) : Decidable (Canonical mantissa exponent) :=
  inferInstanceAs (Decidable (_ ∧ _ ∧ _ ∧ _))

/-- A binary floating-point number of 64 bits. -/
inductive Binary64 where
  /-- The number `mantissa * 2 ^ exponent`, with its sign. -/
  | finite (negative : Bool) (mantissa : Nat) (exponent : Int)
      (canonical : Canonical mantissa exponent)
  | infinite (negative : Bool)
  | nan
  deriving DecidableEq

/-- The integer nearest to `n / d`; a half goes to the even neighbour. -/
def roundHalfEven (n d : Nat) : Nat :=
  let q := n / d
  let r := n % d
  if 2 * r < d ∨ (2 * r = d ∧ q % 2 = 0) then q else q + 1

/-- The integer nearest to `n / (d * 2 ^ e)`. -/
def roundScaled (n d : Nat) (e : Int) : Nat :=
  if 0 ≤ e then roundHalfEven n (d * Nat.pow 2 e.toNat)
  else roundHalfEven (n * Nat.pow 2 e.natAbs) d

namespace Binary64

/-- Zero with a sign. -/
def zero (negative : Bool) : Binary64 := .finite negative 0 (-1074) (by decide)

/-- The exponent at which `n / d` has a mantissa of 53 bits, or the least exponent if that is
greater. -/
def scaleOf (n d : Nat) : Int :=
  let e : Int := (n.log2 : Int) - (d.log2 : Int)
  let below := if 0 ≤ e then decide (n < d * Nat.pow 2 e.toNat)
    else decide (n * Nat.pow 2 e.natAbs < d)
  max (if below then e - 53 else e - 52) (-1074)

/-- A rounded mantissa with its exponent; what is out of range is infinite. -/
def normal (negative : Bool) (mantissa : Nat) (exponent : Int) : Binary64 :=
  let (m, e) := if mantissa = Nat.pow 2 53 then (Nat.pow 2 52, exponent + 1)
    else (mantissa, exponent)
  if h : Canonical m e then .finite negative m e h else .infinite negative

/-- The number nearest to `n / d`, ties to the even mantissa. -/
def ofRatio (negative : Bool) (n d : Nat) : Binary64 :=
  if n = 0 then zero negative
  else normal negative (roundScaled n d (scaleOf n d)) (scaleOf n d)

/-- The number nearest to `digits * 10 ^ exponent`. A power of ten too great or too small for any
finite number to be near is settled without computing it. -/
def ofDecimal (negative : Bool) (digits : Nat) (exponent : Int) : Binary64 :=
  if digits = 0 then zero negative
  else if 400 < exponent then .infinite negative
  else if (digits.log2 : Int) + 1 + 3 * exponent < -1100 then zero negative
  else if 0 ≤ exponent then ofRatio negative (digits * Nat.pow 10 exponent.toNat) 1
  else ofRatio negative digits (Nat.pow 10 exponent.natAbs)

/-- The number nearest to an integer, which is infinite when the integer is out of range. -/
def ofInt (n : Int) : Binary64 := ofRatio (decide (n < 0)) n.natAbs 1

/-- The numerator and denominator of `mantissa * 2 ^ exponent`. -/
def ratio (mantissa : Nat) (exponent : Int) : Nat × Nat :=
  if 0 ≤ exponent then (mantissa * Nat.pow 2 exponent.toNat, 1)
  else (mantissa, Nat.pow 2 exponent.natAbs)

/-- Rounded multiplication by a natural number; the product of zero and infinity does not arise
because the factor is positive. -/
def scale (x : Binary64) (factor : Nat) : Binary64 :=
  match x with
  | .finite s m e _ => let (n, d) := ratio m e; ofRatio s (n * factor) d
  | x => x

/-- The integer part, towards zero; nothing for infinities and for the value that is no number. -/
def truncate? : Binary64 → Option Int
  | .finite s m e _ =>
    let (n, d) := ratio m e
    some (if s then -((n / d : Nat) : Int) else ((n / d : Nat) : Int))
  | _ => none

/-- Whether the number is finite. -/
def isFinite : Binary64 → Bool
  | .finite .. => true
  | _ => false

/-- Whether the number is one of the two zeros. -/
def isZero : Binary64 → Bool
  | .finite _ m _ _ => m = 0
  | _ => false

end Binary64

end AppReport.Number
