import AppReport.Record

/-!
# Numbers in values

Settings hold numbers as such or as text. A value of another kind is a failure of its type, a text
that is no number a failure of its value, and a number that is too great an overflow.
-/

namespace AppReport

open Number

namespace Value

/-- The integer of a truth value. -/
def ofBool (b : Bool) : Int := if b then 1 else 0

/-- The integer nearest to zero from a floating-point number. -/
def truncated (x : Binary64) : Except Failure Int :=
  match x.truncate? with
  | some n => .ok n
  | none =>
    match x with
    | .infinite _ => .error (.of .overflow "cannot convert float infinity to integer")
    | _ => .error (.of .value "cannot convert float NaN to integer")

/-- The floating-point number nearest to an integer. -/
def nearest (n : Int) : Except Failure Binary64 :=
  match Binary64.ofInt n with
  | .infinite _ => .error (.of .overflow "int too large to convert to float")
  | x => .ok x

/-- A value as a floating-point number. -/
def toBinary64 (v : Value) : Except Failure Binary64 :=
  match v with
  | float x => .ok x
  | int n => nearest n
  | bool b => nearest (ofBool b)
  | text s =>
    match binary64? s.toList with
    | some x => .ok x
    | none => .error (.of .value ("could not convert string to float: " ++
        String.ofList (Text.quoted s.toList)))
  | v => .error (.of .typeMismatch
      ("float() argument must be a string or a real number, not '" ++ v.kindName ++ "'"))

/-- A value as an integer; what is behind the point does not count. -/
def toInteger (v : Value) : Except Failure Int :=
  match v with
  | float x => truncated x
  | int n => .ok n
  | bool b => .ok (ofBool b)
  | text s =>
    match integer? s.toList with
    | some n => .ok n
    | none => .error (.of .value ("invalid literal for int() with base 10: " ++
        String.ofList (Text.quoted s.toList)))
  | v => .error (.of .typeMismatch
      ("int() argument must be a string, a bytes-like object or a real number, not '" ++ v.kindName
        ++ "'"))

end Value

end AppReport
