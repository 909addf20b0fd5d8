import AppReport.Number.Places
import AppReport.Value.Shown

/-!
# Message templates

A template is a text in which each `%` begins a directive: an optional key in parentheses, flags,
a width, a precision and a letter that says how the next value is written. `Template.fill` puts
the values in; too few values, too many, and values that do not suit their directive are faults.
-/

namespace AppReport.Template

open Number Text

/-- The values for a template. -/
inductive Args where
  /-- Values in the order of the directives. -/
  | inOrder (values : List Value)
  /-- Values by the keys of the directives. -/
  | byKey (fields : Fields)

/-- The values that are left: the ones next in order, and those that can be had by key. -/
structure Supply where
  next : List Value
  byKey : Option Fields

/-- All values. -/
def Args.supply : Args → Supply
  | inOrder values => ⟨values, none⟩
  | byKey fields => ⟨[.object fields], some fields⟩

/-- A value of the wrong kind. -/
def unsuited {α : Type} (message : String) : Except Failure α := .error (.of .typeMismatch message)

/-- A template that cannot be understood. -/
def broken {α : Type} (message : String) : Except Failure α := .error (.of .value message)

/-- Takes the next value. -/
def Supply.take (s : Supply) : Except Failure (Value × Supply) :=
  match s.next with
  | v :: rest => .ok (v, { s with next := rest })
  | [] => unsuited "not enough arguments for format string"

/-- How a value is laid out. -/
structure Layout where
  left : Bool
  plus : Bool
  blank : Bool
  alternate : Bool
  zero : Bool
  width : Option Nat
  precision : Option Nat

/-! ### Laying out -/

/-- A text in its width, cut to its precision. -/
def Layout.text (l : Layout) (cs : List Char) : List Char :=
  let cs := match l.precision with
    | some n => cs.take n
    | none => cs
  let fill := List.replicate (l.width.getD 0 - cs.length) ' '
  if l.left then cs ++ fill else fill ++ cs

/-- A number in its width. The first `lead` characters after the sign are the mark of its base. -/
def Layout.number (l : Layout) (cs : List Char) (lead : Nat) : List Char :=
  let (sign, body) := match cs with
    | '-' :: rest => (['-'], rest)
    | cs => ((if l.plus then ['+'] else if l.blank then [' '] else []), cs)
  let fill := l.width.getD 0 - (sign.length + body.length)
  if l.left then sign ++ body ++ List.replicate fill ' '
  else if l.zero then sign ++ body.take lead ++ List.replicate fill '0' ++ body.drop lead
  else List.replicate fill ' ' ++ sign ++ body

/-- The digits of a number in a base up to sixteen. -/
def baseDigits (base : Nat) (n : Nat) : List Char :=
  if base = 10 then digits n else Nat.toDigits base n

/-- The letters that write an integer. -/
def isIntegerLetter (c : Char) : Bool := "diuoxX".toList.contains c

/-- The letters that write a floating-point number. -/
def isFloatLetter (c : Char) : Bool := "eEfFgG".toList.contains c

/-- The integer that a value is for a directive. -/
def integerOf (letter : Char) (v : Value) : Except Failure Int :=
  let wrong := unsuited ("%" ++ String.ofList [letter]
    ++ " format: a real number is required, not " ++ v.shown)
  match v with
  | .int n => .ok n
  | .bool b => .ok (if b then 1 else 0)
  | .float x =>
    if letter = 'o' ∨ letter = 'x' ∨ letter = 'X' then wrong
    else match x.truncate?, x with
      | some n, _ => .ok n
      | none, .nan => broken "cannot convert float NaN to integer"
      | none, _ => .error (.of .overflow "cannot convert float infinity to integer")
  | _ => wrong

/-- An integer as a directive writes it. -/
def Layout.integer (l : Layout) (letter : Char) (n : Int) : List Char :=
  let (base, mark) := match letter with
    | 'o' => (8, "0o".toList)
    | 'x' => (16, "0x".toList)
    | 'X' => (16, "0X".toList)
    | _ => (10, [])
  let ds := baseDigits base n.natAbs
  let ds := if letter = 'X' then ds.map Char.toUpper else ds
  let ds := List.replicate (l.precision.getD 0 - ds.length) '0' ++ ds
  let mark := if l.alternate then mark else []
  l.number (signed (decide (n < 0)) (mark ++ ds)) mark.length

/-- The floating-point number that a value is for a directive. -/
def floatOf (v : Value) : Except Failure Binary64 :=
  match v with
  | .float x => .ok x
  | .int n =>
    match Binary64.ofInt n with
    | .infinite _ => .error (.of .overflow "int too large to convert to float")
    | x => .ok x
  | .bool b => .ok (.ofInt (if b then 1 else 0))
  | v => unsuited ("must be real number, not " ++ v.shown)

/-- A floating-point number as a directive writes it. -/
def Layout.float (l : Layout) (letter : Char) (x : Binary64) : List Char :=
  let form := match letter.toLower with
    | 'f' => PlacesForm.fixed
    | 'e' => .scientific
    | _ => .general
  let cs := x.placesText form (l.precision.getD 6) l.alternate
  l.number (if letter.isUpper then cs.map Char.toUpper else cs) 0

/-- The character that a value is for a directive. -/
def charOf (v : Value) : Except Failure Char :=
  let number := fun (n : Int) =>
    if 0 ≤ n ∧ n.toNat.isValidChar then .ok (Char.ofNat n.toNat)
    else .error (.of .overflow "%c arg not in range(0x110000)")
  match v with
  | .int n => number n
  | .bool b => number (if b then 1 else 0)
  | .text s =>
    match s.toList with
    | [c] => .ok c
    | _ => unsuited "%c requires int or char"
  | _ => unsuited "%c requires int or char"

/-- A text in which characters beyond ASCII are escapes. -/
def asciiOnly (cs : List Char) : List Char :=
  cs.flatMap fun c => if c.toNat < 0x80 then [c] else codeEscape c

/-- A value as a directive writes it; `place` is where its letter stands in the template. A value
that has no text cannot be written as one. -/
def Layout.write (l : Layout) (letter : Char) (place : Nat) (v : Value) :
    Except Failure (List Char) :=
  if letter = 's' then v.shown?.map fun shown => l.text shown.toList
  else if letter = 'r' then v.shown?.map fun _ => l.text v.inner
  else if letter = 'a' then v.shown?.map fun _ => l.text (asciiOnly v.inner)
  else if letter = 'c' then (charOf v).map fun c => { l with precision := none }.text [c]
  else if isIntegerLetter letter then (integerOf letter v).map (l.integer letter)
  else if isFloatLetter letter then (floatOf v).map (l.float letter)
  else broken ("unsupported format character '"
    ++ (if ' ' ≤ letter && letter ≤ '~' then String.ofList [letter] else "?") ++ "' (0x"
    ++ String.ofList (Nat.toDigits 16 letter.toNat) ++ ") at index " ++ toString place)

/-! ### Directives -/

/-- The key up to the closing parenthesis that belongs to the opening one. -/
def takeKey : (depth : Nat) → List Char → Option (List Char × List Char)
  | _, [] => none
  | 0, ')' :: rest => some ([], rest)
  | depth + 1, ')' :: rest => (takeKey depth rest).map fun (key, rest) => (')' :: key, rest)
  | depth, '(' :: rest => (takeKey (depth + 1) rest).map fun (key, rest) => ('(' :: key, rest)
  | depth, c :: rest => (takeKey depth rest).map fun (key, rest) => (c :: key, rest)

/-- The key of a directive; its value becomes the next one. -/
def readKey (s : Supply) (cs : List Char) : Except Failure (Supply × List Char) :=
  match cs with
  | '(' :: rest =>
    match s.byKey with
    | none => unsuited "format requires a mapping"
    | some fields =>
      match takeKey 0 rest with
      | none => broken "incomplete format key"
      | some (key, rest) =>
        match fields.get? (String.ofList key) with
        | none => .error (.of .key (String.ofList (quoted key)))
        | some v => .ok ({ s with next := [v] }, rest)
  | cs => .ok (s, cs)

/-- The bounds of a count: how great it may be, and what is said of one that is greater, written out
or taken from the values. -/
structure CountBound where
  greatest : Nat
  written : String
  taken : String

/-- The bounds of widths. -/
def widthBound : CountBound :=
  ⟨9223372036854775807, "width too big", "the width is too great"⟩

/-- The bounds of precisions. -/
def precisionBound : CountBound :=
  ⟨2147483647, "precision too big", "the precision is too great"⟩

/-- A count taken from the values. -/
def CountBound.check (bound : CountBound) (n : Int) : Except Failure Int :=
  if bound.greatest < n.natAbs then .error (.of .overflow bound.taken) else .ok n

/-- A count that is written out or taken from the values. -/
def readCount (bound : CountBound) (s : Supply) (cs : List Char) :
    Except Failure (Option Int × Supply × List Char) :=
  match cs with
  | '*' :: rest =>
    match s.take with
    | .error e => .error e
    | .ok (.int n, s) => (bound.check n).map fun n => (some n, s, rest)
    | .ok (.bool b, s) => .ok (some (if b then 1 else 0), s, rest)
    | .ok _ => unsuited "* wants int"
  | cs =>
    let ds := cs.takeWhile Char.isDigit
    if ds.isEmpty then .ok (none, s, cs)
    else if bound.greatest < ofDigits ds then broken bound.written
    else .ok (some (ofDigits ds), s, cs.dropWhile Char.isDigit)

/-- The flags of directives. -/
def isFlag (c : Char) : Bool := "-+ #0".toList.contains c

/-- A precision behind a point. -/
def readPrecision (s : Supply) (cs : List Char) :
    Except Failure (Option Nat × Supply × List Char) :=
  match cs with
  | '.' :: rest =>
    match readCount precisionBound s rest with
    | .error e => .error e
    | .ok (n, s, rest) => .ok (some (n.getD 0).toNat, s, rest)
  | cs => .ok (none, s, cs)

/-- Passes over a letter that tells a size; it makes no difference. -/
def skipSize : List Char → List Char
  | [] => []
  | c :: rest => if c = 'h' ∨ c = 'l' ∨ c = 'L' then rest else c :: rest

/-- The layout that a directive asks for; a width below zero is one for the left side. -/
def Layout.ofDirective (flags : List Char) (width : Option Int) (precision : Option Nat) :
    Layout where
  left := flags.contains '-' || width.any (· < 0)
  plus := flags.contains '+'
  blank := flags.contains ' '
  alternate := flags.contains '#'
  zero := flags.contains '0'
  width := width.map Int.natAbs
  precision := precision

/-- Writes the next value as the letter says that ends a directive. `length` is the length of the
whole template. -/
def writeNext (length : Nat) (layout : Layout) (s : Supply) (cs : List Char) :
    Except Failure (List Char × Supply × List Char) :=
  match cs with
  | [] => broken "incomplete format"
  | letter :: rest =>
    match s.take with
    | .error e => .error e
    | .ok (v, s) =>
      (layout.write letter (length - rest.length - 1) v).map fun written => (written, s, rest)

/-- A directive for a value behind its `%`: what it writes, the values and the template that are
left. -/
def valueDirective (length : Nat) (s : Supply) (cs : List Char) :
    Except Failure (List Char × Supply × List Char) :=
  match readKey s cs with
  | .error e => .error e
  | .ok (s, cs) =>
    match readCount widthBound s (cs.dropWhile isFlag) with
    | .error e => .error e
    | .ok (width, s, rest) =>
      match readPrecision s rest with
      | .error e => .error e
      | .ok (precision, s, rest) =>
        writeNext length (.ofDirective (cs.takeWhile isFlag) width precision) s (skipSize rest)

/-- A directive behind its `%`; a second `%` stands for itself. -/
def directive (length : Nat) (s : Supply) (cs : List Char) :
    Except Failure (List Char × Supply × List Char) :=
  match cs with
  | '%' :: rest => .ok (['%'], s, rest)
  | cs => valueDirective length s cs

/-- Fills the rest of a template of a given length; each directive takes a character, so `fuel`
greater than what is left is enough. -/
def fillFrom (length : Nat) : (fuel : Nat) → Supply → List Char → Except Failure (List Char)
  | 0, _, _ => broken "incomplete format"
  | _ + 1, s, [] =>
    if s.byKey.isNone && !s.next.isEmpty then
      unsuited "not all arguments converted during string formatting"
    else .ok []
  | fuel + 1, s, '%' :: rest =>
    match directive length s rest with
    | .error e => .error e
    | .ok (written, s, rest) => (fillFrom length fuel s rest).map (written ++ ·)
  | fuel + 1, s, c :: rest => (fillFrom length fuel s rest).map (c :: ·)

/-- A template with its values. -/
def fill (template : List Char) (args : Args) : Except Failure (List Char) :=
  fillFrom template.length (template.length + 1) args.supply template

end AppReport.Template
