import AppReport.Number.Shortest

/-!
# Numbers with a given number of places

A floating-point number is written exactly and then cut to a number of places behind the point
(`fixed`), to a number of significant digits (`scientific`), or to whichever of the two suits its
size (`general`); a half goes to the even neighbour.
-/

namespace AppReport.Number

/-- The first `count` significant digits of a decimal, rounded, and the power of ten of the first
of them. -/
def Decimal.leading (x : Decimal) (count : Nat) : List Char × Int :=
  let ds := digits x.significand
  if x.significand = 0 then (List.replicate count '0', 0)
  else if ds.length ≤ count then
    (ds ++ List.replicate (count - ds.length) '0', ds.length - 1 + x.exponent)
  else
    let rounded := digits (roundHalfEven x.significand (Nat.pow 10 (ds.length - count)))
    if count < rounded.length then (rounded.take count, ds.length + x.exponent)
    else (rounded, ds.length - 1 + x.exponent)

/-- Digits with a point in front of the last `places` of them. -/
def insertPoint (ds : List Char) (places : Nat) (keepPoint : Bool) : List Char :=
  let ds := List.replicate (places + 1 - ds.length) '0' ++ ds
  if places = 0 then (if keepPoint then ds ++ ['.'] else ds)
  else ds.take (ds.length - places) ++ '.' :: ds.drop (ds.length - places)

/-- `mantissa * 2 ^ exponent` with a number of places behind the point. -/
def fixedText (mantissa : Nat) (exponent : Int) (places : Nat) (keepPoint : Bool) : List Char :=
  insertPoint (digits (roundScaled (mantissa * Nat.pow 10 places) 1 (-exponent))) places keepPoint

/-- Digits with a point behind the first of them and a power of ten. -/
def scientificText (ds : List Char) (power : Int) (keepPoint : Bool) : List Char :=
  match ds with
  | [] => []
  | [d] => d :: (if keepPoint then ['.'] else []) ++ exponentText power
  | d :: rest => d :: '.' :: rest ++ exponentText power

/-- The ways to write a floating-point number with a given number of places. -/
inductive PlacesForm where
  | fixed
  | scientific
  | general

/-- A floating-point number with `places` places, or significant digits in the general form. The
alternate form keeps the point and the zeros at the end. -/
def Binary64.placesText (x : Binary64) (form : PlacesForm) (places : Nat) (alternate : Bool) :
    List Char :=
  match x with
  | .nan => "nan".toList
  | .infinite s => signed s "inf".toList
  | .finite s m e _ =>
    signed s <| match form with
      | .fixed => fixedText m e places alternate
      | .scientific =>
        let (ds, power) := (Decimal.ofBinary m e).leading (places + 1)
        scientificText ds power alternate
      | .general =>
        let count := max places 1
        let (ds, power) := (Decimal.ofBinary m e).leading count
        let kept := if alternate then ds
          else match Text.dropRightWhile (· == '0') ds with
            | [] => ['0']
            | kept => kept
        if -4 ≤ power ∧ power < count then
          if power < 0 then '0' :: '.' :: (List.replicate (power.natAbs - 1) '0' ++ kept)
          else
            let whole := power.toNat + 1
            if kept.length ≤ whole then
              kept ++ List.replicate (whole - kept.length) '0' ++ (if alternate then ['.'] else [])
            else kept.take whole ++ '.' :: kept.drop whole
        else scientificText kept power alternate

end AppReport.Number
