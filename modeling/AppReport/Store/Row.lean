import AppReport.Record

/-!
# Rows of the configuration store

The store keeps applications, environments and workloads. A column of texts holds a text or bytes
(`Stored`): numbers that are put there become their text (`Stored.ofValue?`), with fifteen
significant digits where there is a point. A column of numbers (`Cell`) makes a number of a text
that looks like one.

A database does not look at the bytes of a text, so that a text may be there that is not UTF-8
(`Stored.malformed`). It stays in the table like any other, but a row with it in one of the columns
that are asked for cannot be read (`firstMalformed?`).
-/

namespace AppReport

open Number Text

/-! ### Columns -/

/-- What a column of texts holds. -/
inductive Stored where
  | text (s : String)
  | bytes (b : List UInt8)
  /-- A text whose bytes are not UTF-8. -/
  | malformed (b : List UInt8) (h : decode? b = none)
  deriving DecidableEq

/-- How numbers are written in columns of texts. -/
def DecimalStyle.stored : DecimalStyle := ⟨-4, 14, true, true, "Inf", ""⟩

/-- The text of a number in a column of texts; there is none for the value that is no number. -/
def storedText? (x : Binary64) : Option String :=
  match x with
  | .finite s m e _ =>
    let decimal := (Decimal.ofBinary m e).toSignificant 15
    some (String.ofList (signed (s && m ≠ 0) (decimal.text DecimalStyle.stored)))
  | .infinite s => some (String.ofList (signed s DecimalStyle.stored.infinity.toList))
  | .nan => none

namespace Stored

/-- What a column of texts makes of a value; nothing for a value that cannot be in a table, and for
none. -/
def ofValue? (v : Value) : Option Stored :=
  match v with
  | .text s => some (text s)
  | .bytes b => some (bytes b)
  | .int n => some (text (String.ofList (intText n)))
  | .bool b => some (text (if b then "1" else "0"))
  | .float x => (storedText? x).map text
  | .null | .list _ | .object _ => none

/-- The value that a column of texts gives. A text that is not UTF-8 gives none. -/
def value : Stored → Value
  | text s => .text s
  | bytes b => .bytes b
  | malformed .. => .null

/-- The bytes of a text that is not UTF-8. -/
def malformed? : Stored → Option (List UInt8)
  | malformed b _ => some b
  | _ => none

/-- The order of names: texts by their characters, which is that of their bytes, and after them
bytes by their numbers. -/
def le : Stored → Stored → Bool
  | text s, text t => s ≤ t
  | text s, malformed c _ => encode s.toList ≤ c
  | malformed b _, text t => b ≤ encode t.toList
  | malformed b _, malformed c _ => b ≤ c
  | bytes b, bytes c => b ≤ c
  | bytes _, _ => false
  | _, bytes _ => true

end Stored

/-- The value that a column of texts gives that may hold nothing. -/
def storedValue (s : Option Stored) : Value :=
  match s with
  | some s => s.value
  | none => .null

/-- What a column of numbers holds. -/
inductive Cell where
  | integer (n : Int)
  | real (x : Binary64)
  | text (s : String)
  | bytes (b : List UInt8)
  /-- A text whose bytes are not UTF-8. -/
  | malformed (b : List UInt8) (h : decode? b = none)

namespace Cell

/-- Whether an integer fits the 64 bits of a column. -/
def fits (n : Int) : Bool := -9223372036854775808 ≤ n && n < 9223372036854775808

/-- What a column of numbers makes of a text. -/
def ofText (s : String) : Cell :=
  match plainNumber? (trimBoth isPlainBlank s.toList) with
  | none => text s
  | some n => if n.isWhole && fits n.toInt then integer n.toInt else real n.toBinary64

/-- What a column of numbers makes of a value; nothing for a value that cannot be there. -/
def ofValue? (v : Value) : Option Cell :=
  match v with
  | .text s => some (ofText s)
  | .bytes b => some (bytes b)
  | .int n => if fits n then some (integer n) else none
  | .bool b => some (integer (if b then 1 else 0))
  | .float .nan => none
  | .float x => some (real x)
  | .null | .list _ | .object _ => none

/-- The value that a column of numbers gives. A text that is not UTF-8 gives none. -/
def value : Cell → Value
  | integer n => .int n
  | real x => .float x
  | text s => .text s
  | bytes b => .bytes b
  | malformed .. => .null

/-- The bytes of a text that is not UTF-8. -/
def malformed? : Cell → Option (List UInt8)
  | malformed b _ => some b
  | _ => none

end Cell

/-! ### Rows -/

/-- A row for an application. -/
structure ApplicationRow where
  id : Int
  name : Stored
  accountId : Option Stored
  domain : Option Stored
  version : Option Stored
  tags : Option Stored

/-- A row for an environment of the application with the id `app`. -/
structure EnvironmentRow where
  id : Int
  app : Int
  name : Stored
  accountId : Option Stored
  region : Option Stored
  prod : Cell
  registryUrl : Option Stored
  executionRole : Option Stored
  managerRole : Option Stored

/-- A row for a workload of the application with the id `app`. -/
structure WorkloadRow where
  id : Int
  app : Int
  name : Stored
  type : Option Stored

/-- The fields of the row of an application. -/
def ApplicationRow.toFields (r : ApplicationRow) : Fields :=
  [("name", r.name.value), ("account_id", storedValue r.accountId),
    ("domain", storedValue r.domain), ("version", storedValue r.version),
    ("tags", storedValue r.tags)]

/-- The fields of the row of an environment, given the name of its application. -/
def EnvironmentRow.toFields (app : Stored) (r : EnvironmentRow) : Fields :=
  [("app", app.value), ("name", r.name.value), ("account_id", storedValue r.accountId),
    ("region", storedValue r.region), ("prod", r.prod.value),
    ("registry_url", storedValue r.registryUrl),
    ("execution_role_arn", storedValue r.executionRole),
    ("manager_role_arn", storedValue r.managerRole)]

/-- The fields of the row of a workload, given the name of its application. -/
def WorkloadRow.toFields (app : Stored) (r : WorkloadRow) : Fields :=
  [("app", app.value), ("name", r.name.value), ("type", storedValue r.type)]

/-! ### Rows that cannot be read -/

/-- The greatest length of a message about a column. -/
def maxColumnMessage : Nat := 198

/-- The failure to read a column that holds a text of certain bytes. The message shows them up to
the first zero, those of ASCII as characters and U+FFFD for any other. -/
def Failure.malformedColumn (column : String) (b : List UInt8) : Failure :=
  let shown := (b.takeWhile (· ≠ 0)).map fun x =>
    if x < 0x80 then Char.ofNat x.toNat else replacement
  let words := ("Could not decode to UTF-8 column '" ++ column ++ "' with text '").toList ++ shown
    ++ ['\'']
  .of .tableOperation (String.ofList (words.take maxColumnMessage))

/-- The failure to read a row, given the names of its columns and the bytes of the texts in them
that are not UTF-8: the first of these counts. -/
def firstMalformed? (columns : List (String × Option (List UInt8))) : Option Failure :=
  columns.findSome? fun (column, b?) => b?.map (Failure.malformedColumn column)

/-- The failure to read the row of an application. -/
def ApplicationRow.malformed? (r : ApplicationRow) : Option Failure :=
  firstMalformed? [("name", r.name.malformed?), ("account_id", r.accountId.bind Stored.malformed?),
    ("domain", r.domain.bind Stored.malformed?), ("version", r.version.bind Stored.malformed?),
    ("tags", r.tags.bind Stored.malformed?)]

/-- The failure to read the row of an environment, given the name of its application. -/
def EnvironmentRow.malformed? (app : Stored) (r : EnvironmentRow) : Option Failure :=
  firstMalformed? [("app", app.malformed?), ("name", r.name.malformed?),
    ("account_id", r.accountId.bind Stored.malformed?),
    ("region", r.region.bind Stored.malformed?), ("prod", r.prod.malformed?),
    ("registry_url", r.registryUrl.bind Stored.malformed?),
    ("execution_role_arn", r.executionRole.bind Stored.malformed?),
    ("manager_role_arn", r.managerRole.bind Stored.malformed?)]

/-- The failure to read the row of a workload, given the name of its application. -/
def WorkloadRow.malformed? (app : Stored) (r : WorkloadRow) : Option Failure :=
  firstMalformed? [("app", app.malformed?), ("name", r.name.malformed?),
    ("type", r.type.bind Stored.malformed?)]

/-- Reads a row: its fields, unless there is a failure to read it. -/
def readRow (malformed? : Option Failure) (fields : Fields) : Except Failure Fields :=
  match malformed? with
  | some f => .error f
  | none => .ok fields

/-- Reads the row of an application. -/
def ApplicationRow.read (r : ApplicationRow) : Except Failure Fields :=
  readRow r.malformed? r.toFields

/-- Reads the row of an environment, given the name of its application. -/
def EnvironmentRow.read (app : Stored) (r : EnvironmentRow) : Except Failure Fields :=
  readRow (r.malformed? app) (r.toFields app)

/-- Reads the row of a workload, given the name of its application. -/
def WorkloadRow.read (app : Stored) (r : WorkloadRow) : Except Failure Fields :=
  readRow (r.malformed? app) (r.toFields app)

/-! ### Rows from fields -/

/-- The row of an application with an id; its name must be there. -/
def ApplicationRow.ofFields? (id : Int) (fields : Fields) : Option ApplicationRow :=
  let column := fun key => Stored.ofValue? (fields.getD key)
  (column "name").map fun name => {
    id, name
    accountId := column "account_id"
    domain := column "domain"
    version := column "version"
    tags := column "tags" }

/-- The row of an environment of an application. Its name must be there, and whether it is for
production defaults to zero. -/
def EnvironmentRow.ofFields? (id app : Int) (fields : Fields) : Option EnvironmentRow :=
  let column := fun key => Stored.ofValue? (fields.getD key)
  let prod := match fields.get? "prod" with
    | none => some (.integer 0)
    | some v => Cell.ofValue? v
  match column "name", prod with
  | some name, some prod => some {
      id, app, name, prod
      accountId := column "account_id"
      region := column "region"
      registryUrl := column "registry_url"
      executionRole := column "execution_role_arn"
      managerRole := column "manager_role_arn" }
  | _, _ => none

/-- The row of a workload of an application; its name must be there. -/
def WorkloadRow.ofFields? (id app : Int) (fields : Fields) : Option WorkloadRow :=
  let column := fun key => Stored.ofValue? (fields.getD key)
  (column "name").map fun name => { id, app, name, type := column "type" }

end AppReport
