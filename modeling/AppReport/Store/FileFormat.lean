import AppReport.Files.Content

/-!
# The bytes of a database

A database that someone else has written lies in a file as a row of pages of one size. The rows of a
table are in the leaves of a tree of pages, each as a list of columns that its payload begins by
describing, and what is too long for a page goes on in others. The first page holds the header and
the table of all tables, which says where the tree of each begins. `Database.ofBytes?` reads the
tables of the store from there; a table that is not there has no rows yet.

Texts are taken as their bytes, so that one that is not UTF-8 is there like any other
(`Stored.malformed`).
-/

namespace AppReport

open Number Text

/-- The bytes of a file. -/
abbrev Page := Array UInt8

/-- What a column of a row holds. -/
inductive RawColumn where
  | null
  | integer (n : Int)
  | real (x : Binary64)
  | text (b : List UInt8)
  | bytes (b : List UInt8)

namespace RawColumn

/-- As a column of texts. -/
def stored? (c : RawColumn) : Option Stored :=
  match c with
  | null => none
  | integer n => Stored.ofValue? (.int n)
  | real x => Stored.ofValue? (.float x)
  | bytes b => some (.bytes b)
  | text b =>
    match h : decode? b with
    | some cs => some (.text (String.ofList cs))
    | none => some (.malformed b h)

/-- As a column of numbers. -/
def cell? (c : RawColumn) : Option Cell :=
  match c with
  | null => none
  | integer n => some (.integer n)
  | real x => some (.real x)
  | bytes b => some (.bytes b)
  | text b =>
    match h : decode? b with
    | some cs => some (.text (String.ofList cs))
    | none => some (.malformed b h)

/-- As a column of ids. -/
def id? : RawColumn → Option Int
  | integer n => some n
  | _ => none

end RawColumn

/-! ### Numbers -/

/-- The number that a count of bytes write, the greatest place first. -/
def wordAt (b : Page) (start count : Nat) : Nat :=
  (List.range count).foldl (fun n i => 256 * n + (b.getD (start + i) 0).toNat) 0

/-- A number of so many bits with a sign. -/
def withSign (bits n : Nat) : Int :=
  if n < Nat.pow 2 (bits - 1) then (n : Int) else (n : Int) - Nat.pow 2 bits

/-- The number that goes on with the bytes at a place, and where it ends. A byte with its first bit
set is followed by another one; after eight of these the ninth counts as a whole. -/
def groupsFrom (b : Page) (n start : Nat) : Nat → Nat × Nat
  | 0 => (256 * n + wordAt b start 1, start + 1)
  | left + 1 =>
    let byte := wordAt b start 1
    if byte < 128 then (128 * n + byte, start + 1)
    else groupsFrom b (128 * n + (byte - 128)) (start + 1) left

/-- The number of one to nine bytes at a place, and where it ends. -/
def groupsAt (b : Page) (start : Nat) : Nat × Nat := groupsFrom b 0 start 8

/-- The floating-point number of 64 bits. -/
def Number.Binary64.ofBits (bits : Nat) : Binary64 :=
  let negative := decide (Nat.pow 2 63 ≤ bits)
  let power := bits / Nat.pow 2 52 % 2048
  let fraction := bits % Nat.pow 2 52
  if power = 2047 then if fraction = 0 then .infinite negative else .nan
  else if power = 0 then .normal negative fraction (-1074)
  else .normal negative (Nat.pow 2 52 + fraction) (power - 1075)

/-! ### Rows -/

/-- The number of bytes of a column, by its type. -/
def columnSize (type : Nat) : Nat :=
  match type with
  | 1 => 1
  | 2 => 2
  | 3 => 3
  | 4 => 4
  | 5 => 6
  | 6 => 8
  | 7 => 8
  | type => if type < 12 then 0 else (type - 12) / 2

/-- The column of a type that begins at a place. -/
def columnAt (b : Page) (start type : Nat) : RawColumn :=
  let size := columnSize type
  match type with
  | 0 => .null
  | 7 => .real (Binary64.ofBits (wordAt b start 8))
  | 8 => .integer 0
  | 9 => .integer 1
  | type =>
    if type < 12 then .integer (withSign (8 * size) (wordAt b start size))
    else
      let content := (b.extract start (start + size)).toList
      if type % 2 = 0 then .bytes content else .text content

/-- The columns of which the types begin at a place and end at another one, and which begin at a
third. There are no more than `fuel` of them. -/
def columnsFrom (b : Page) (stop : Nat) : Nat → Nat → Nat → List RawColumn
  | 0, _, _ => []
  | fuel + 1, types, start =>
    if stop ≤ types then []
    else
      let (type, next) := groupsAt b types
      columnAt b start type :: columnsFrom b stop fuel next (start + columnSize type)

/-- The columns of a row, from its payload. -/
def columnsOf (payload : Page) : List RawColumn :=
  let (stop, types) := groupsAt payload 0
  columnsFrom payload stop stop types stop

/-! ### Pages -/

/-- The bytes of a database with the size of its pages, and how much of a page is used. -/
structure PagedFile where
  bytes : Page
  pageSize : Nat
  usable : Nat

namespace PagedFile

/-- Where a page begins; they are counted from one. -/
def place (f : PagedFile) (page : Nat) : Nat := (page - 1) * f.pageSize

/-- What is left of a payload that goes on in a page. -/
def overflow (f : PagedFile) : Nat → Nat → Nat → List UInt8
  | 0, _, _ => []
  | fuel + 1, page, size =>
    let start := f.place page
    let here := min size (f.usable - 4)
    let content := (f.bytes.extract (start + 4) (start + 4 + here)).toList
    if size ≤ here then content
    else content ++ f.overflow fuel (wordAt f.bytes start 4) (size - here)

/-- How much of a payload is kept in the page of its row. -/
def kept (f : PagedFile) (size : Nat) : Nat :=
  if size ≤ f.usable - 35 then size
  else
    let least := (f.usable - 12) * 32 / 255 - 23
    let most := least + (size - least) % (f.usable - 4)
    if most ≤ f.usable - 35 then most else least

/-- The id and the columns of the row at a place in a leaf. -/
def rowAt (f : PagedFile) (start : Nat) : Int × List RawColumn :=
  let (size, afterSize) := groupsAt f.bytes start
  let (id, afterId) := groupsAt f.bytes afterSize
  let here := f.kept size
  let content := (f.bytes.extract afterId (afterId + here)).toList
  let payload := if here = size then content
    else content ++ f.overflow f.bytes.size (wordAt f.bytes (afterId + here) 4) (size - here)
  (withSign 64 id, columnsOf payload.toArray)

/-- The rows of the tree that begins with a page. No branch is longer than `fuel`. -/
def rows (f : PagedFile) : Nat → Nat → List (Int × List RawColumn)
  | 0, _ => []
  | fuel + 1, page =>
    let start := f.place page
    -- the header of the file is in front of the first page
    let head := if page = 1 then 100 else start
    let count := wordAt f.bytes (head + 3) 2
    let cells := fun first =>
      (List.range count).map fun i => start + wordAt f.bytes (head + first + 2 * i) 2
    match wordAt f.bytes head 1 with
    | 13 => (cells 8).map f.rowAt
    | 5 => (cells 12).flatMap (fun cell => f.rows fuel (wordAt f.bytes cell 4)) ++
      f.rows fuel (wordAt f.bytes (head + 8) 4)
    | _ => []

/-- The greatest number of pages one below the other. -/
def maxDepth : Nat := 20

/-- The rows of the table with a name. -/
def table (f : PagedFile) (name : String) : List (Int × List RawColumn) :=
  let isIt := fun columns => match columns with
    | .text kind :: .text n :: _ => kind = encode "table".toList && n = encode name.toList
    | _ => false
  match (f.rows maxDepth 1).find? fun row => isIt row.2 with
  | some (_, [_, _, _, .integer page, _]) => f.rows maxDepth page.toNat
  | _ => []

end PagedFile

/-! ### The tables of the store -/

/-- The row of an application, from its columns behind the id. -/
def ApplicationRow.ofColumns? (id : Int) : List RawColumn → Option ApplicationRow
  | [_, name, accountId, domain, version, tags] =>
    name.stored?.map fun name =>
      ⟨id, name, accountId.stored?, domain.stored?, version.stored?, tags.stored?⟩
  | _ => none

/-- The row of an environment, from its columns behind the id. -/
def EnvironmentRow.ofColumns? (id : Int) : List RawColumn → Option EnvironmentRow
  | [_, app, name, accountId, region, prod, registryUrl, executionRole, managerRole] =>
    match app.id?, name.stored?, prod.cell? with
    | some app, some name, some prod => some
      ⟨id, app, name, accountId.stored?, region.stored?, prod, registryUrl.stored?,
        executionRole.stored?, managerRole.stored?⟩
    | _, _, _ => none
  | _ => none

/-- The row of a workload, from its columns behind the id. -/
def WorkloadRow.ofColumns? (id : Int) : List RawColumn → Option WorkloadRow
  | [_, app, name, type] =>
    match app.id?, name.stored? with
    | some app, some name => some ⟨id, app, name, type.stored?⟩
    | _, _ => none
  | _ => none

/-- The database that bytes write, if they begin as one does and its texts are in UTF-8. -/
def Database.ofBytes? (b : List UInt8) : Option Database :=
  let bytes := b.toArray
  let pageSize := wordAt bytes 16 2
  let f : PagedFile := {
    bytes
    pageSize := if pageSize = 1 then 65536 else pageSize
    usable := (if pageSize = 1 then 65536 else pageSize) - wordAt bytes 20 1 }
  if !(encode "SQLite format 3\x00".toList).isPrefixOf b || wordAt bytes 56 4 ≠ 1 then none
  else
    let put := fun {α : Type} (name : String) (row? : Int → List RawColumn → Option α)
        (add : Tables → α → Tables) (t : Tables) =>
      (f.table name).foldl (fun t (id, columns) => ((row? id columns).map (add t)).getD t) t
    let tables := put "workloads" WorkloadRow.ofColumns? Tables.addWorkload
      (put "environments" EnvironmentRow.ofColumns? Tables.addEnvironment
        (put "applications" ApplicationRow.ofColumns? Tables.addApplication .empty))
    some ⟨wordAt bytes 18 1 = 2, tables⟩

/-- The content of a file that certain bytes are written to. -/
def Content.ofBytes (b : List UInt8) : Content :=
  match Database.ofBytes? b with
  | some d => .database d
  | none => .bytes b

end AppReport
