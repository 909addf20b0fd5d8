import AppReport.Settings

/-!
# Connections to a store

`Connection.connect` opens the database in a file. The path and the options that are not given
come from the settings, which are read only where one is missing. A database that need not exist is
made, with the directories that it lies in. What goes wrong with the file or with its switches is a
fault of the database; a fault of the settings goes through as it is.
-/

namespace AppReport

open Number

/-- A time in seconds. -/
inductive Seconds where
  | whole (n : Int)
  | fraction (x : Binary64)

namespace Seconds

/-- The time that a value gives. -/
def ofValue? (v : Value) : Option Seconds :=
  match v with
  | .int n => some (whole n)
  | .bool b => some (whole (Value.ofBool b))
  | .float x => some (fraction x)
  | _ => none

/-- The time as a floating-point number. -/
def toBinary64 : Seconds → Except Failure Binary64
  | whole n => Value.nearest n
  | fraction x => .ok x

/-- The thousandths of a second; what is behind the point does not count. -/
def milliseconds : Seconds → Except Failure Int
  | whole n => .ok (n * 1000)
  | fraction x => Value.truncated (x.scale 1000)

end Seconds

/-- How a database is opened. What is not given comes from the settings. -/
structure OpenOptions where
  timeout : Option Seconds
  writeAhead : Option Bool
  foreignKeys : Option Bool
  mustExist : Bool
  /-- An explicit path of the settings. -/
  config : Option String

/-- Where a database is kept. -/
inductive Medium where
  | memory
  | file (place : Place)

/-- An open database with its switches. -/
structure Connection where
  medium : Medium
  foreignKeys : Bool
  /-- The thousandths of a second to wait for a busy database. -/
  busyTimeout : Nat

/-- How changes of a database are kept until they are done. -/
inductive Journal where
  | delete
  | writeAhead
  | memory

/-- The name of a kind of journal. -/
def Journal.label : Journal → String
  | delete => "delete"
  | writeAhead => "wal"
  | memory => "memory"

/-- The failure to open a file as a database. -/
def Failure.cannotOpen : Failure := .of .tableOperation "unable to open database file"

/-- The failure to use a file that holds no database. -/
def Failure.notADatabase : Failure := .of .tableFormat "file is not a database"

/-- Whether a fault is one of the tables. -/
def FaultKind.isTable : FaultKind → Bool
  | tableOperation | tableFormat | tableBinding => true
  | _ => false

/-- A failure of the tables as one of the database, with what was being done. -/
def Failure.asDatabase (doing : String) (f : Failure) : Failure :=
  if f.isKind FaultKind.isTable then
    .causedBy (.other .database ("Failed to " ++ doing ++ ": " ++ f.text)) f
  else f

namespace Connection

/-! ### The database of a connection -/

/-- The database that a connection is to. -/
def database (c : Connection) (files : Files) : Except Failure Database :=
  match c.medium with
  | .memory => .ok .empty
  | .file place =>
    match files.at? place with
    | some (.file content) =>
      match content.database? with
      | some d => .ok d
      | none => .error .notADatabase
    | _ => .error .cannotOpen

/-- The files with another database for a connection. -/
def putDatabase (c : Connection) (files : Files) (d : Database) : Files :=
  match c.medium with
  | .memory => files
  | .file place => files.put place (.file (.database d))

/-- Makes the database of a connection write ahead, from now on. -/
def turnToWriteAhead (c : Connection) (files : Files) : Except Failure Files :=
  match c.database files with
  | .error e => .error e
  | .ok d => .ok (c.putDatabase files { d with writesAhead := true })

/-- The tables of a connection; those that are not there are made. -/
def tables (c : Connection) (files : Files) : Except Failure Tables × Files :=
  match c.database files with
  | .error e => (.error e, files)
  | .ok d => (.ok d.tables, c.putDatabase files d)

/-- The journal of a connection. -/
def journal (c : Connection) (files : Files) : Except Failure Journal :=
  match c.medium with
  | .memory => .ok .memory
  | .file _ =>
    match c.database files with
    | .error e => .error e
    | .ok d => .ok (if d.writesAhead then .writeAhead else .delete)

/-! ### Switches -/

/-- The greatest time to wait, in thousandths of a second. -/
def maxBusyTimeout : Int := 2147483647

/-- The time to wait that is kept: none for a time that is negative or too long. -/
def busyTimeoutOf (milliseconds : Int) : Nat :=
  if milliseconds ≤ maxBusyTimeout then milliseconds.toNat else 0

/-- Sets the switches of a connection; a time that is not given stays. -/
def apply (c : Connection) (files : Files) (writeAhead foreignKeys : Bool)
    (milliseconds : Option Int) : Except Failure Connection × Files :=
  match if writeAhead then c.turnToWriteAhead files else .ok files with
  | .error e => (.error (e.asDatabase "apply PRAGMAs"), files)
  | .ok files =>
    (.ok { c with
      foreignKeys := c.foreignKeys || foreignKeys
      busyTimeout := (milliseconds.map busyTimeoutOf).getD c.busyTimeout }, files)

/-! ### Opening -/

/-- The name of the database that is in no file. -/
def memoryName : String := ":memory:"

/-- Opens the database at a path; a file that does not exist is made. -/
def openAt (files : Files) (p : Path) : Except Failure Medium × Files :=
  if p.text = memoryName then (.ok .memory, files)
  else
    match files.walk false p with
    | .found place (.file _) => (.ok (.file place), files)
    | .vacant place => (.ok (.file place), files.put place (.file (.bytes [])))
    | .failed .endsEarly => (.error (FileFault.endsEarly.failure p), files)
    | _ => (.error .cannotOpen, files)

/-- The path of the database: an explicit one, else that of the settings. -/
def pathOf (user : User) (files : Files) (explicit : Option Path) (options : OpenOptions) :
    Except Failure Path :=
  match explicit with
  | some p => .ok p
  | none => Settings.storePath user files options.config

/-- Makes sure that a database can be opened: that its file is there if it must be, or else that
the directories that it lies in are. -/
def prepare (files : Files) (p : Path) (mustExist : Bool) : Except Failure Files :=
  if mustExist then
    match files.isFile? p with
    | .error e => .error e
    | .ok true => .ok files
    | .ok false => .error (.of .database ("database " ++ p.text ++ " does not exist"))
  else files.ensureDirectories p.parent

/-- The switches of a database and the time to wait for it. -/
structure Switches where
  timeout : Seconds
  writeAhead : Bool
  foreignKeys : Bool

/-- The time to wait for a database: an explicit one, else that of the settings. -/
def timeoutOf (user : User) (files : Files) (options : OpenOptions) : Except Failure Seconds :=
  match options.timeout with
  | some timeout => .ok timeout
  | none => (Settings.storeTimeout user files options.config).map .fraction

/-- The switches of a database: explicit ones, else those of the settings. -/
def switchesOf (user : User) (files : Files) (options : OpenOptions) : Except Failure Switches :=
  match timeoutOf user files options with
  | .error e => .error e
  | .ok timeout =>
    match options.writeAhead, options.foreignKeys with
    | some writeAhead, some foreignKeys => .ok ⟨timeout, writeAhead, foreignKeys⟩
    | writeAhead, foreignKeys =>
      match Settings.storeOptions user files options.config with
      | .error e => .error e
      | .ok set => .ok ⟨timeout, writeAhead.getD set.writeAhead, foreignKeys.getD set.foreignKeys⟩

/-- Opens a database with its switches. -/
def openWith (files : Files) (p : Path) (switches : Switches) :
    Except Failure Connection × Files :=
  match switches.timeout.toBinary64 with
  | .error e => (.error e, files)
  | .ok _ =>
    match openAt files p with
    | (.error e, files) => (.error (e.asDatabase "connect to database"), files)
    | (.ok medium, files) =>
      match switches.timeout.milliseconds with
      | .error e => (.error e, files)
      | .ok milliseconds =>
        apply ⟨medium, false, 0⟩ files switches.writeAhead switches.foreignKeys
          (some milliseconds)

/-- Opens a database. -/
def connect (user : User) (explicit : Option Path) (options : OpenOptions) (files : Files) :
    Except Failure Connection × Files :=
  match pathOf user files explicit options with
  | .error e => (.error e, files)
  | .ok p =>
    match prepare files p options.mustExist with
    | .error e => (.error e, files)
    | .ok files =>
      match switchesOf user files options with
      | .error e => (.error e, files)
      | .ok switches => openWith files p switches

end Connection

end AppReport
