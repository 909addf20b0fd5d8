import AppReport.Text.Utf8
import AppReport.Value

/-!
# Checking untyped values

A record is checked field by field, and every field that does not fit adds an issue: what is wrong
and where. Issues stand in the order of the fields, and unknown fields come after them in the
order of the input.
-/

namespace AppReport

open Number Text

/-- One step into a value. -/
inductive Locus where
  | key (name : String)
  | index (i : Nat)
  deriving DecidableEq

/-- What is wrong with a value. -/
inductive IssueKind where
  | missing
  | notText
  | undecodableText
  | notList
  | notObject
  | notRecord (model : String)
  | unknownField
  | unreadableBool
  | notBool
  deriving DecidableEq

/-- The short name of an issue. -/
def IssueKind.label : IssueKind → String
  | missing => "missing"
  | notText => "string_type"
  | undecodableText => "string_unicode"
  | notList => "list_type"
  | notObject => "dict_type"
  | notRecord _ => "model_type"
  | unknownField => "extra_forbidden"
  | unreadableBool => "bool_parsing"
  | notBool => "bool_type"

/-- The words for an issue. -/
def IssueKind.words : IssueKind → String
  | missing => "Field required"
  | notText => "Input should be a valid string"
  | undecodableText =>
    "Input should be a valid string, unable to parse raw data as a unicode string"
  | notList => "Input should be a valid list"
  | notObject => "Input should be a valid dictionary"
  | notRecord model => "Input should be a valid dictionary or instance of " ++ model
  | unknownField => "Extra inputs are not permitted"
  | unreadableBool => "Input should be a valid boolean, unable to interpret input"
  | notBool => "Input should be a valid boolean"

/-- An issue and the place of the value that has it. -/
structure Issue where
  kind : IssueKind
  place : List Locus
  deriving DecidableEq

/-- A checked value, or the issues that were found. -/
abbrev Checked (α : Type) := Except (List Issue) α

namespace Checked

/-- An issue of the value itself. -/
def fail {α : Type} (kind : IssueKind) : Checked α := .error [⟨kind, []⟩]

/-- The issues of a check. -/
def issues {α : Type} : Checked α → List Issue
  | .ok _ => []
  | .error e => e

/-- The same check, of the part of a value that is reached by one step. -/
def inside {α : Type} (step : Locus) : Checked α → Checked α
  | .ok a => .ok a
  | .error e => .error (e.map fun issue => { issue with place := step :: issue.place })

/-- Both checks; the issues of both are kept. -/
def both {α β : Type} (a : Checked α) (b : Checked β) : Checked (α × β) :=
  match a, b with
  | .ok x, .ok y => .ok (x, y)
  | a, b => .error (a.issues ++ b.issues)

/-- Checks every item of a list, from index `i` on. -/
def itemsFrom {α β : Type} (check : α → Checked β) : Nat → List α → Checked (List β)
  | _, [] => .ok []
  | i, x :: rest =>
    match both ((check x).inside (.index i)) (itemsFrom check (i + 1) rest) with
    | .ok (y, ys) => .ok (y :: ys)
    | .error e => .error e

/-- Checks every item of a list. -/
def items {α β : Type} (check : α → Checked β) (xs : List α) : Checked (List β) :=
  itemsFrom check 0 xs

/-- A text; bytes are a text if they are well-formed UTF-8. -/
def text : Value → Checked String
  | .text s => .ok s
  | .bytes b =>
    match decode? b with
    | some cs => .ok (String.ofList cs)
    | none => fail .undecodableText
  | _ => fail .notText

/-- A text or nothing. -/
def text? : Value → Checked (Option String)
  | .null => .ok none
  | v => match text v with
    | .ok s => .ok (some s)
    | .error e => .error e

/-- The words that mean false. -/
def falseWords : List String := ["0", "off", "f", "false", "n", "no"]

/-- The words that mean true. -/
def trueWords : List String := ["1", "on", "t", "true", "y", "yes"]

/-- A truth value: one itself, a number equal to zero or one, or a word for one in any case. An
integer of more than 64 bits is treated like any other value that is no truth value. -/
def bool : Value → Checked Bool
  | .bool b => .ok b
  | .int n =>
    if n = 0 then .ok false
    else if n = 1 then .ok true
    else if -9223372036854775808 ≤ n ∧ n < 9223372036854775808 then fail .unreadableBool
    else fail .notBool
  | .float x =>
    if x.isZero then .ok false
    else if x = .ofInt 1 then .ok true
    else fail .notBool
  | .text s => word s
  | .bytes b =>
    match decode? b with
    | some cs => word (String.ofList cs)
    | none => fail .unreadableBool
  | _ => fail .notBool
where
  /-- A word for a truth value. -/
  word (s : String) : Checked Bool :=
    let lower := String.ofList (s.toList.map Char.toLower)
    if falseWords.contains lower then .ok false
    else if trueWords.contains lower then .ok true
    else fail .unreadableBool

/-- A list whose items pass a check. -/
def list {α : Type} (check : Value → Checked α) : Value → Checked (List α)
  | .list xs => items check xs
  | _ => fail .notList

/-- An object with any values. -/
def object : Value → Checked Fields
  | .object fields => .ok fields
  | _ => fail .notObject

end Checked

/-- A field of a record: its name, and the name that documents know it by. -/
structure FieldName where
  name : String
  external : String

namespace FieldName

/-- A field that documents know by its own name. -/
def plain (name : String) : FieldName := ⟨name, name⟩

/-- The key under which an object gives the field; the external name goes first. -/
def keyIn? (field : FieldName) (fields : Fields) : Option String :=
  if (fields.get? field.external).isSome then some field.external
  else if (fields.get? field.name).isSome then some field.name
  else none

/-- Checks a field. One that is not given has the default, or is missing. -/
def check {α : Type} (field : FieldName) (fields : Fields) (default : Option α)
    (reader : Value → Checked α) : Checked α :=
  match field.keyIn? fields with
  | some key => (reader (fields.getD key)).inside (.key key)
  | none =>
    match default with
    | some a => .ok a
    | none => .error [⟨.missing, [.key field.external]⟩]

end FieldName

/-- The fields of an object that a record does not know. -/
def Fields.unknown (fields : Fields) (known : List FieldName) : Fields :=
  let used := known.filterMap fun field => field.keyIn? fields
  fields.filter fun (key, _) => !used.contains key

/-- An issue for each field that a record does not know. -/
def Fields.forbidUnknown (fields : Fields) (known : List FieldName) : Checked Unit :=
  match fields.unknown known with
  | [] => .ok ()
  | extras => .error (extras.map fun (key, _) => ⟨.unknownField, [.key key]⟩)

/-- The issues of a record of a certain kind. -/
structure ValidationReport where
  model : String
  issues : List Issue

/-- The first line of the report of a failed check. -/
def ValidationReport.message (report : ValidationReport) : String :=
  let n := report.issues.length
  toString n ++ " validation error" ++ (if n = 1 then "" else "s") ++ " for " ++ report.model

end AppReport
