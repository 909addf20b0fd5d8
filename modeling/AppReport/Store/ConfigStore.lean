import AppReport.Log.Record
import AppReport.Store.Connection

/-!
# The configuration store

The store answers from the tables of a database, which every read opens anew. An application is
found by its exact name; what belongs to a name that no application has is nothing. A row that
cannot be read is the failure of every read that comes to it.
-/

namespace AppReport

/-- Where the store is, and how it is opened. -/
structure ConfigStore where
  user : User
  path : Option Path
  options : OpenOptions

namespace ConfigStore

/-- The tables of the store. -/
def tables (store : ConfigStore) (files : Files) : Except Failure Tables × Files :=
  match Connection.connect store.user store.path store.options files with
  | (.error e, files) => (.error e, files)
  | (.ok c, files) => c.tables files

/-- The name that a value gives in a search; nothing has the name of no value. -/
def searched (v : Value) : Except Failure (Option Stored) :=
  match v with
  | .list _ | .object _ => .error (.of .tableBinding
      ("Error binding parameter 1: type '" ++ v.kindName ++ "' is not supported"))
  | v => .ok (Stored.ofValue? v)

/-- Reads the tables with a name to search for. -/
def search {α : Type} (store : ConfigStore) (name : Value) (read : Tables → Option Stored → α)
    (files : Files) : Except Failure α × Files :=
  match store.tables files with
  | (.error e, files) => (.error e, files)
  | (.ok t, files) => ((searched name).map (read t), files)

/-- The application with a name. -/
def application (store : ConfigStore) (name : Value) (files : Files) :
    Except Failure Application × Files :=
  match store.search name (fun t name => name.bind t.application?) files with
  | (.error e, files) => (.error e, files)
  | (.ok none, files) => (.error (.unknownApplication name), files)
  | (.ok (some row), files) => (row.read.bind Application.ofRow, files)

/-- All applications in the order of their names. -/
def applications (store : ConfigStore) (files : Files) :
    Except Failure (List Application) × Files :=
  match store.tables files with
  | (.error e, files) => (.error e, files)
  | (.ok t, files) =>
    ((mapUntilFailure ApplicationRow.read t.applicationRows).bind
      (mapUntilFailure Application.ofRow), files)

/-- What belongs to the application with a name, made of its rows once all of them are read. -/
def listing {α : Type} (store : ConfigStore) (name : Value)
    (rows : Tables → Stored → Except Failure (List Fields)) (ofRow : Fields → α) (files : Files) :
    Except Failure (List α) × Files :=
  match store.search name (fun t name => name.elim (.ok []) (rows t)) files with
  | (.error e, files) => (.error e, files)
  | (.ok found, files) => (found.map (List.map ofRow), files)

/-- The environments of the application with a name, in the order in which they came. -/
def environments (store : ConfigStore) (name : Value) (files : Files) :
    Except Failure (List Environment) × Files :=
  store.listing name
    (fun t app => mapUntilFailure (EnvironmentRow.read app) (t.environmentRows app)) .ofRow files

/-- The workloads of the application with a name, in the order in which they came. -/
def workloads (store : ConfigStore) (name : Value) (files : Files) :
    Except Failure (List Workload) × Files :=
  store.listing name (fun t app => mapUntilFailure (WorkloadRow.read app) (t.workloadRows app))
    .ofRow files

/-! ### Tracing -/

/-- The name under which the store logs. -/
def logger : String := "appatlas.services.config_store"

/-- A record for tracing. -/
def trace (template : String) (values : List Value) : Log.Record where
  logger := logger
  level := Log.debug
  template := template.toList
  values := values
  context := none
  failure := none

/-- The record before an application is read. -/
def searchTrace (name : Value) : Log.Record := trace "Getting application %s" [name]

/-- The record after a number of things of a kind have been read for an application. -/
def foundTrace (kind : String) (count : Nat) (name : Value) : Log.Record :=
  trace ("Found %d " ++ kind ++ " for %s") [.int count, name]

end ConfigStore

end AppReport
