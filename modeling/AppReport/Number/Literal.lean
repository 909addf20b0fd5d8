import AppReport.Number.Binary64
import AppReport.Text.Blank
import AppReport.Text.DecimalDigit

/-!
# Numbers in texts

`integer?` and `binary64?` read a whole text as a number. Blanks around it make no difference, the
digits may be of any script, and a single `_` may stand between two digits. `plainNumber?` is the
stricter form of the two in tables: digits of ASCII alone.
-/

namespace AppReport.Number

open Text

/-- A minus or plus sign, and what follows it. -/
def readSign (cs : List Char) : Bool × List Char :=
  match cs with
  | '-' :: rest => (true, rest)
  | '+' :: rest => (false, rest)
  | rest => (false, rest)

/-- The power of ten, and what follows it. -/
def readExponent? (cs : List Char) : Option (Int × List Char) :=
  match cs with
  | c :: rest =>
    if c = 'e' ∨ c = 'E' then
      let (negative, rest) := readSign rest
      let ds := rest.takeWhile Char.isDigit
      if ds.isEmpty then none
      else
        let n : Int := ofDigits ds
        some (if negative then -n else n, rest.dropWhile Char.isDigit)
    else none
  | [] => none

/-! ### Plain numbers -/

/-- A number of digits, a point and a power of ten. -/
structure PlainNumber where
  negative : Bool
  /-- The digits, with those behind the point. -/
  significand : Nat
  exponent : Int
  /-- Whether it is written with neither a point nor a power of ten. -/
  isWhole : Bool

/-- The number nearest to a plain number. -/
def PlainNumber.toBinary64 (n : PlainNumber) : Binary64 :=
  .ofDecimal n.negative n.significand n.exponent

/-- The integer of the digits of a plain number. -/
def PlainNumber.toInt (n : PlainNumber) : Int :=
  if n.negative then -(n.significand : Int) else n.significand

/-- Reads a whole text as a number of digits, a point and a power of ten. At least one digit stands
before or behind the point. -/
def plainNumber? (cs : List Char) : Option PlainNumber :=
  let (negative, cs) := readSign cs
  let whole := cs.takeWhile Char.isDigit
  let rest := cs.dropWhile Char.isDigit
  let (point, places, rest) := match rest with
    | '.' :: rest => (true, rest.takeWhile Char.isDigit, rest.dropWhile Char.isDigit)
    | rest => (false, [], rest)
  if whole.isEmpty && places.isEmpty then none
  else
    let significand := ofDigits (whole ++ places)
    match rest with
    | [] => some ⟨negative, significand, -places.length, !point⟩
    | rest =>
      match readExponent? rest with
      | some (e, []) => some ⟨negative, significand, e - places.length, false⟩
      | _ => none

/-! ### Numbers in any script -/

/-- The blanks around a number. -/
def isNumberBlank (c : Char) : Bool := isPlainBlank c || (0x7f < c.toNat && isBlank c)

/-- The digit of ASCII for a digit of any script; other characters stay. -/
def plainDigit (c : Char) : Char :=
  match decimalDigit? c with
  | some d => digitChar d
  | none => c

/-- Takes out each `_` between two digits; one at another place spoils the text. -/
def dropSeparators (before : Option Char) : List Char → Option (List Char)
  | [] => if before = some '_' then none else some []
  | '_' :: rest => if before.any Char.isDigit then dropSeparators (some '_') rest else none
  | c :: rest =>
    if before = some '_' && !c.isDigit then none
    else (dropSeparators (some c) rest).map (c :: ·)

/-- A text without the blanks around it, in digits of ASCII and without separators. -/
def plainText? (cs : List Char) : Option (List Char) :=
  dropSeparators none ((trimBoth isNumberBlank cs).map plainDigit)

/-- The greatest number of digits of an integer that is read or written. -/
def maxDigits : Nat := 4300

/-- Reads a text as an integer. -/
def integer? (cs : List Char) : Option Int :=
  match plainText? cs with
  | none => none
  | some cs =>
    let (negative, ds) := readSign cs
    if ds.isEmpty || !ds.all Char.isDigit || decide (maxDigits < ds.length) then none
    else some (if negative then -(ofDigits ds : Int) else ofDigits ds)

/-- The numbers that have names, in lower case. -/
def namedNumbers : List (String × (Bool → Binary64)) :=
  [("inf", .infinite), ("infinity", .infinite), ("nan", fun _ => .nan)]

/-- Reads a text as a floating-point number. -/
def binary64? (cs : List Char) : Option Binary64 :=
  match plainText? cs with
  | none => none
  | some cs =>
    let (negative, name) := readSign cs
    match namedNumbers.lookup (String.ofList (name.map Char.toLower)) with
    | some number => some (number negative)
    | none => (plainNumber? cs).map PlainNumber.toBinary64

end AppReport.Number
