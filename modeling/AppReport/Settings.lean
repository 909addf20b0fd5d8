import AppReport.Directory.Client
import AppReport.Files.Content
import AppReport.Value.Number

/-!
# Settings

Settings come from a single JSON document, and each has a default of its own. The document is
found at an explicit path, else at the path that the environment names, else in the home
directory; one that does not exist holds nothing. `CommandSettings.build` puts the settings and the
options of a command together, where options go first.
-/

namespace AppReport

open Number

/-- Who runs the program: the home directory, those of others by name, and the path of the settings
that the environment names. -/
structure User where
  home : String
  others : Path.Homes
  configVariable : Option String

/-- The home directories of all users. -/
def User.homes (u : User) : Path.Homes := ("", u.home) :: u.others

/-- How the directory of pipelines is reached. -/
structure DirectorySettings where
  baseUrl : String
  timeout : Binary64
  pageSize : Int

/-- How the tables of the store are used. -/
structure StoreOptions where
  writeAhead : Bool
  foreignKeys : Bool

namespace Settings

/-- The seconds to wait for the store when nothing is set. -/
def defaultStoreTimeout : Binary64 := .ofInt 30

/-- The directory of pipelines when nothing is set. -/
def defaultDirectory : DirectorySettings := ⟨Client.defaultBaseUrl, .ofInt 10, 50⟩

/-- The path of the document. -/
def path (user : User) (explicit : Option String) : Except Failure Path :=
  match explicit with
  | some s => (Path.ofText s).expandHome user.homes
  | none =>
    match user.configVariable.getD "" with
    | "" => .ok (((Path.ofText user.home).child ".appatlas").child "config.json")
    | s => (Path.ofText s).expandHome user.homes

/-- The document. -/
def load (user : User) (files : Files) (explicit : Option String) : Except Failure Value :=
  match path user explicit with
  | .error e => .error e
  | .ok p =>
    match files.exists? p with
    | .error e => .error e
    | .ok false => .ok (.object [])
    | .ok true => files.readDocument p

/-- The fields of the document. -/
def fields (user : User) (files : Files) (explicit : Option String) : Except Failure Fields :=
  match load user files explicit with
  | .error e => .error e
  | .ok document => document.fieldsOrFail

/-- A section of the document; anything but an object has nothing set. -/
def sectionOf (settings : Fields) (name : String) : Fields :=
  match settings.getD name with
  | .object fields => fields
  | _ => []

/-- The path of the store in a section, by default `store.db` beside the document. -/
def storeText (directory : Path) (paths : Fields) : Except Failure Path :=
  match paths.get? "store_path" with
  | none => .ok (directory.child "store.db")
  | some (.text s) => .ok (.ofText s)
  | some v => .error (.of .typeMismatch
      ("expected str, bytes or os.PathLike object, not " ++ v.kindName))

/-- The path of the store. One that is not absolute is seen from the directory of the document. -/
def storePath (user : User) (files : Files) (explicit : Option String) : Except Failure Path :=
  match fields user files explicit with
  | .error e => .error e
  | .ok settings =>
    match path user explicit with
    | .error e => .error e
    | .ok document =>
      match storeText document.parent (sectionOf settings "paths") with
      | .error e => .error e
      | .ok p =>
        match p.expandHome user.homes with
        | .error e => .error e
        | .ok p =>
          if p.isAbsolute then .ok p else files.resolve (document.parent.join p)

/-- A conversion that falls back to a default where a value is of no use. A number too great to
convert is a failure all the same. -/
def orDefault {α : Type} (default : α) (converted : Except Failure α) : Except Failure α :=
  match converted with
  | .ok a => .ok a
  | .error e =>
    if e.isKind (· == .typeMismatch) || e.isKind FaultKind.isValue then .ok default else .error e

/-- A number of a section. -/
def numberOf {α : Type} (convert : Value → Except Failure α) (fields : Fields) (name : String)
    (default : α) : Except Failure α :=
  match fields.get? name with
  | none => .ok default
  | some v => orDefault default (convert v)

/-- The seconds to wait for the store. -/
def storeTimeout (user : User) (files : Files) (explicit : Option String) :
    Except Failure Binary64 :=
  match fields user files explicit with
  | .error e => .error e
  | .ok settings =>
    numberOf Value.toBinary64 settings "db_timeout_seconds" defaultStoreTimeout

/-- A switch of a section, which is on by default. -/
def switchOf (fields : Fields) (name : String) : Bool :=
  match fields.get? name with
  | none => true
  | some v => v.isSet

/-- How the tables of the store are used. -/
def storeOptions (user : User) (files : Files) (explicit : Option String) :
    Except Failure StoreOptions :=
  match fields user files explicit with
  | .error e => .error e
  | .ok settings =>
    let tables := sectionOf settings "db"
    .ok ⟨switchOf tables "enable_wal", switchOf tables "foreign_keys"⟩

/-- The address in a section. -/
def addressOf (fields : Fields) : String :=
  match fields.get? "base_url" with
  | none => defaultDirectory.baseUrl
  | some v => v.shown

/-- How the directory of pipelines is reached. -/
def directory (user : User) (files : Files) (explicit : Option String) :
    Except Failure DirectorySettings :=
  match fields user files explicit with
  | .error e => .error e
  | .ok settings =>
    let part := sectionOf settings "pipeline_directory"
    match numberOf Value.toBinary64 part "timeout_seconds" defaultDirectory.timeout with
    | .error e => .error e
    | .ok timeout =>
      match numberOf Value.toInteger part "page_size" defaultDirectory.pageSize with
      | .error e => .error e
      | .ok pageSize => .ok ⟨addressOf part, timeout, pageSize⟩

end Settings

/-! ### Options of a command -/

/-- All that a command works with. -/
structure CommandSettings where
  store : Path
  storeTimeout : Binary64
  storeOptions : StoreOptions
  directory : DirectorySettings
  /-- The explicit path of the document. -/
  config : Option Path

namespace CommandSettings

/-- The path of the store: an explicit one, else that of the document. -/
def storeOf (user : User) (explicit : Option String) (configured : Path) : Except Failure Path :=
  match explicit with
  | none => .ok configured
  | some s => (Path.ofText s).expandHome user.homes

/-- An explicit path of the document. -/
def configOf (user : User) (explicit : Option String) : Except Failure (Option Path) :=
  match explicit with
  | none => .ok none
  | some s => ((Path.ofText s).expandHome user.homes).map some

/-- The settings for explicit paths of the store and of the document and for an explicit address
of the directory. -/
def build (user : User) (files : Files) (store url config : Option String) :
    Except Failure CommandSettings := do
  let configured ← Settings.storePath user files config
  let store ← storeOf user store configured
  let directory ← Settings.directory user files config
  let storeTimeout ← Settings.storeTimeout user files config
  let storeOptions ← Settings.storeOptions user files config
  let config ← configOf user config
  pure {
    store, storeTimeout, storeOptions, config
    directory := { directory with baseUrl := url.getD directory.baseUrl } }

/-- The client of the directory. -/
def client (c : CommandSettings) : Client :=
  .ofUrl c.directory.baseUrl (.float c.directory.timeout) (.int c.directory.pageSize)

end CommandSettings

end AppReport
