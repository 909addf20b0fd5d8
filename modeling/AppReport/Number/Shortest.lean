import AppReport.Number.Binary64
import AppReport.Text.Blank

/-!
# The shortest decimal that reads back

A floating-point number is written with the fewest digits from which reading gives the same
number again, and of the rows of that length with the nearest (`shortest`). `DecimalStyle` says
when the digits are laid out with a point and when with a power of ten.
-/

namespace AppReport.Number

/-- The number `significand * 10 ^ exponent`. -/
structure Decimal where
  significand : Nat
  exponent : Int
  deriving DecidableEq

/-- The exact decimal value of `mantissa * 2 ^ exponent`. -/
def Decimal.ofBinary (mantissa : Nat) (exponent : Int) : Decimal :=
  if 0 ≤ exponent then ⟨mantissa * Nat.pow 2 exponent.toNat, 0⟩
  else ⟨mantissa * Nat.pow 5 exponent.natAbs, exponent⟩

/-- The decimals of `count` digits on either side of `x`, the nearer one first. -/
def Decimal.neighbours (x : Decimal) (length count : Nat) : List Decimal :=
  let unit := Nat.pow 10 (length - count)
  let low := x.significand / unit
  let near := roundHalfEven x.significand unit
  let far := if near = low then low + 1 else low
  let exponent := x.exponent + ((length - count : Nat) : Int)
  [⟨near, exponent⟩, ⟨far, exponent⟩]

/-- `x` cut to `count` significant digits, to the nearest; a half goes up. -/
def Decimal.toSignificant (x : Decimal) (count : Nat) : Decimal :=
  let length := (digits x.significand).length
  if length ≤ count then x
  else
    let unit := Nat.pow 10 (length - count)
    ⟨(2 * x.significand + unit) / (2 * unit), x.exponent + ((length - count : Nat) : Int)⟩

/-- The decimal of fewest digits that reads back as the finite number
`mantissa * 2 ^ exponent`. -/
def shortest (mantissa : Nat) (exponent : Int) : Decimal :=
  let exact := Decimal.ofBinary mantissa exponent
  let length := (digits exact.significand).length
  let candidates := (List.range 17).flatMap fun i =>
    if i < length then exact.neighbours length (i + 1) else []
  let target := Binary64.normal false mantissa exponent
  (candidates.find? fun d => Binary64.ofDecimal false d.significand d.exponent = target).getD exact

/-- How the digits of a number are laid out. -/
structure DecimalStyle where
  /-- The least power of ten of the first digit that is written with a point. -/
  lowest : Int
  /-- The greatest power of ten of the first digit that is written with a point. -/
  highest : Int
  /-- Whether a number with a point always has a digit after it. -/
  wholeFraction : Bool
  /-- Whether a number with a power of ten always has a digit after the point. -/
  scientificFraction : Bool
  /-- The text of a positive infinity. -/
  infinity : String
  /-- The text of the value that is no number. -/
  notANumber : String

/-- Numbers in documents and messages: a point from `1e-4` to below `1e16`. -/
def DecimalStyle.plain : DecimalStyle := ⟨-4, 15, true, false, "inf", "nan"⟩

/-- The power of ten behind its mark: a sign and at least two digits. -/
def exponentText (e : Int) : List Char :=
  let ds := digits e.natAbs
  'e' :: (if e < 0 then '-' else '+') :: (if ds.length < 2 then '0' :: ds else ds)

/-- Significant digits, of which the first `point` stand before the point, in a given style. -/
def DecimalStyle.layOut (style : DecimalStyle) (ds : List Char) (point : Int) : List Char :=
  if style.lowest ≤ point - 1 ∧ point - 1 ≤ style.highest then
    if point ≤ 0 then '0' :: '.' :: (List.replicate point.natAbs '0' ++ ds)
    else if ds.length ≤ point.toNat then
      ds ++ List.replicate (point.toNat - ds.length) '0'
        ++ (if style.wholeFraction then ['.', '0'] else [])
    else ds.take point.toNat ++ '.' :: ds.drop point.toNat
  else
    match ds with
    | [] => exponentText (point - 1)
    | [d] => d :: (if style.scientificFraction then ['.', '0'] else []) ++ exponentText (point - 1)
    | d :: rest => d :: '.' :: rest ++ exponentText (point - 1)

/-- A decimal in a given style. -/
def Decimal.text (x : Decimal) (style : DecimalStyle) : List Char :=
  if x.significand = 0 then style.layOut ['0'] 1
  else
    let ds := digits x.significand
    style.layOut (Text.dropRightWhile (· == '0') ds) (ds.length + x.exponent)

/-- The minus sign of a negative number. -/
def signed (negative : Bool) (cs : List Char) : List Char := if negative then '-' :: cs else cs

/-- The text of a floating-point number: the shortest decimal that reads back. -/
def Binary64.text (x : Binary64) : List Char :=
  match x with
  | .finite s m e _ => signed s ((shortest m e).text .plain)
  | .infinite s => signed s DecimalStyle.plain.infinity.toList
  | .nan => DecimalStyle.plain.notANumber.toList

end AppReport.Number
