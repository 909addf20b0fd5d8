import AppReport.Failure

/-!
# Values that have no text

Not every value can be shown. The digits of an integer are written only up to `maxDigits`, and
containers are gone through only as deep as documents nest (`Json.deepest`).
-/

namespace AppReport

open Number

mutual

/-- Whether an integer in a value has more digits than can be written. -/
def Value.hasLongInt : Value → Bool
  | .int n => Nat.pow 10 maxDigits ≤ n.natAbs
  | .list items => Value.anyLongInt items
  | .object fields => Value.anyLongIntField fields
  | _ => false

/-- Whether an integer in a list has more digits than can be written. -/
def Value.anyLongInt : List Value → Bool
  | [] => false
  | v :: rest => v.hasLongInt || Value.anyLongInt rest

/-- Whether an integer in an object has more digits than can be written. -/
def Value.anyLongIntField : List (String × Value) → Bool
  | [] => false
  | (_, v) :: rest => v.hasLongInt || Value.anyLongIntField rest

end

mutual

/-- The number of containers around the innermost part of a value. -/
def Value.depth : Value → Nat
  | .list items => Value.itemsDepth items + 1
  | .object fields => Value.fieldsDepth fields + 1
  | _ => 0

/-- The greatest depth of the items of a list. -/
def Value.itemsDepth : List Value → Nat
  | [] => 0
  | v :: rest => max v.depth (Value.itemsDepth rest)

/-- The greatest depth of the fields of an object. -/
def Value.fieldsDepth : List (String × Value) → Nat
  | [] => 0
  | (_, v) :: rest => max v.depth (Value.fieldsDepth rest)

end

/-- The failure to write an integer of too many digits. -/
def Failure.longInt : Failure :=
  .of .value ("Exceeds the limit (" ++ toString maxDigits
    ++ " digits) for integer string conversion; use sys.set_int_max_str_digits() to increase"
    ++ " the limit")

/-- The text of a value, unless an integer is too long or the containers nest too deep. -/
def Value.shown? (v : Value) : Except Failure String :=
  if Json.deepest < v.depth then
    .error (.of .recursion "maximum recursion depth exceeded while getting the repr of an object")
  else if v.hasLongInt then .error .longInt
  else .ok v.shown

end AppReport
