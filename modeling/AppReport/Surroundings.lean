import AppReport.Description
import AppReport.Log.Record

/-!
# What the program works with

The program reads a store and a directory, lets someone select an application, and writes a
report. All of these may answer or fail differently at every call; `Surroundings σ` gives their
behaviour on a state `σ` of any kind. Each call is told the log fields in force.

A `Session` keeps the state together with the calls made so far.
-/

namespace AppReport

/-- The four reads of a description, in the order in which they are declared. -/
inductive Slot where
  | app
  | environments
  | services
  | pipelines
  deriving DecidableEq

/-- What the directory hands over: checked records, or a value still to be checked. -/
inductive Listing where
  | records (ps : List Pipeline)
  | raw (v : Value)

/-- What a read gives when it succeeds. -/
abbrev Slot.Result : Slot → Type
  | app => Application
  | environments => List Environment
  | services => List Workload
  | pipelines => Listing

/-- What happens to a read: it begins on a thread of its own, and later it completes. -/
inductive ReadEvent where
  | begins (slot : Slot)
  | completes (slot : Slot)

/-- The order in which things happen to concurrent reads: what has happened each time the one who
waits for them can wake. Whatever is not mentioned happens at the end, where the reads that are
left begin and then complete together. -/
abbrev Schedule := List (List ReadEvent)

/-- The behaviour of everything around the program. -/
structure Surroundings (σ : Type) where
  getApplication : Log.Context → Value → σ → Except Failure Application × σ
  listEnvironments : Log.Context → Value → σ → Except Failure (List Environment) × σ
  listServices : Log.Context → Value → σ → Except Failure (List Workload) × σ
  findPipelines : Log.Context → String → Value → σ → Except Failure Listing × σ
  /-- Asks for a name, given a prompt and a line of help. -/
  select : Log.Context → String → String → σ → Except Failure Value × σ
  write : String → σ → Except Failure Unit × σ
  log : Log.Context → Log.Record → σ → σ
  /-- How the reads go on that are asked for in a state. -/
  schedule : σ → Schedule

/-- A call of the program to its surroundings. -/
inductive Call where
  | getApplication (name : Value)
  | listEnvironments (name : Value)
  | listServices (name : Value)
  | findPipelines (key : String) (value : Value)
  | select (promptText help : String)
  | write (text : String)

/-- The state of the surroundings and the calls made so far, the first one first. -/
structure Session (σ : Type) where
  world : σ
  calls : List Call

namespace Surroundings

variable {σ : Type} (around : Surroundings σ)

/-- Makes a call and keeps it. -/
def call {α : Type} (c : Call) (act : σ → α × σ) (s : Session σ) : α × Session σ :=
  let (a, world) := act s.world
  (a, ⟨world, s.calls ++ [c]⟩)

/-- Reads an application. -/
def readApplication (now : Log.Context) (name : Value) (s : Session σ) :
    Except Failure Application × Session σ :=
  call (.getApplication name) (around.getApplication now name) s

/-- Reads the environments of an application. -/
def readEnvironments (now : Log.Context) (name : Value) (s : Session σ) :
    Except Failure (List Environment) × Session σ :=
  call (.listEnvironments name) (around.listEnvironments now name) s

/-- Reads the services of an application. -/
def readServices (now : Log.Context) (name : Value) (s : Session σ) :
    Except Failure (List Workload) × Session σ :=
  call (.listServices name) (around.listServices now name) s

/-- Reads the pipelines with a tag. -/
def readPipelines (now : Log.Context) (key : String) (value : Value) (s : Session σ) :
    Except Failure Listing × Session σ :=
  call (.findPipelines key value) (around.findPipelines now key value) s

/-- Asks for an application. -/
def ask (now : Log.Context) (promptText help : String) (s : Session σ) :
    Except Failure Value × Session σ :=
  call (.select promptText help) (around.select now promptText help) s

/-- Writes a text. -/
def put (text : String) (s : Session σ) : Except Failure Unit × Session σ :=
  call (.write text) (around.write text) s

/-- Logs a record. -/
def note (now : Log.Context) (record : Log.Record) (s : Session σ) : Session σ :=
  { s with world := around.log now record s.world }

end Surroundings

end AppReport
