import AppReport.Log.Record

/-!
# Loggers

Loggers have dotted names, and a record goes to the handlers of its logger, of the loggers that
its name lies below, and of the root. Before the program is configured, a logger that is asked for
gets a handler of its own if nothing else would show its warnings (`Registry.get`);
`Registry.configure` takes these handlers away, once, and gives the root the only one.
-/

namespace AppReport.Log

/-- What shows records. -/
inductive Handler where
  /-- Shows a record with its context. -/
  | contextual
  /-- Shows the message alone. -/
  | plain
  deriving DecidableEq

/-- A logger; level zero leaves the decision to the loggers above. -/
structure Logger where
  handlers : List Handler
  level : Level
  deriving DecidableEq

/-- A logger that nothing has been set on. -/
def Logger.unset : Logger := ⟨[], 0⟩

/-- All loggers of a program. -/
structure Registry where
  root : Logger
  loggers : List (String × Logger)
  configured : Bool
  /-- The names of the loggers that have a handler only until the program is configured. -/
  fallbacks : List String

namespace Registry

/-- Whether a name is that of the root. -/
def isRoot (name : String) : Bool := name = "" || name = "root"

/-- The logger with a name. -/
def logger (r : Registry) (name : String) : Logger :=
  if isRoot name then r.root else (r.loggers.lookup name).getD .unset

/-- Sets the entry of a name. -/
def putLogger (name : String) (logger : Logger) :
    List (String × Logger) → List (String × Logger)
  | [] => [(name, logger)]
  | (n, l) :: rest => if n = name then (n, logger) :: rest else (n, l) :: putLogger name logger rest

/-- Sets the logger with a name. -/
def set (r : Registry) (name : String) (logger : Logger) : Registry :=
  if isRoot name then { r with root := logger }
  else { r with loggers := putLogger name logger r.loggers }

/-- The names that the first `count` characters of a name lie below, nearest first. -/
def ancestorsWithin (name : List Char) : (count : Nat) → List String
  | 0 => []
  | 1 => []
  | count + 2 =>
    if name[count + 1]? = some '.' then
      String.ofList (name.take (count + 1)) :: ancestorsWithin name count
    else ancestorsWithin name (count + 1)

/-- The names that a name lies below, nearest first. -/
def ancestors (name : String) : List String := ancestorsWithin name.toList name.toList.length

/-- The logger with a name and those that it lies below, the root last. -/
def chain (r : Registry) (name : String) : List Logger :=
  if isRoot name then [r.root]
  else (name :: ancestors name).map (fun n => (r.loggers.lookup n).getD .unset) ++ [r.root]

/-- The level that decides for a logger: the first one that is set. -/
def effectiveLevel (r : Registry) (name : String) : Level :=
  (((r.chain name).map Logger.level).find? (· ≠ 0)).getD 0

/-- Whether records of a level are shown for a logger. -/
def isEnabled (r : Registry) (name : String) (level : Level) : Bool :=
  0 < level && r.effectiveLevel name ≤ level

/-- The handlers that a record of a logger goes to. -/
def handlersFor (r : Registry) (name : String) : List Handler :=
  (r.chain name).flatMap Logger.handlers

/-- Gives out the logger with a name. Before the program is configured, one without a handler gets
one for warnings if the root has none either. -/
def get (r : Registry) (name : String) : Registry :=
  if r.configured || !(r.logger name).handlers.isEmpty || !r.root.handlers.isEmpty then r
  else { r.set name ⟨[.contextual], warning⟩ with
    fallbacks := if r.fallbacks.contains name then r.fallbacks else r.fallbacks ++ [name] }

/-- The loggers of libraries that would say too much. -/
def thirdParties : List String := ["urllib3", "requests", "asyncio"]

/-- Configures the program: only the root has a handler, and its level decides. Later
configurations change nothing. -/
def configure (r : Registry) (level thirdPartyLevel : Level) : Registry :=
  if r.configured then r
  else
    let r := { r with configured := true, root := ⟨[], level⟩ }
    let r := { r.fallbacks.foldl (fun r name => r.set name .unset) r with fallbacks := [] }
    let r := { r with root := { r.root with handlers := r.root.handlers ++ [.contextual] } }
    thirdParties.foldl
      (fun r name => r.set name { r.logger name with level := thirdPartyLevel }) r

/-- Adds a handler to the root. -/
def addRootHandler (r : Registry) (handler : Handler) : Registry :=
  { r with root := { r.root with handlers := r.root.handlers ++ [handler] } }

/-- What is shown when a record cannot be written. -/
def loggingError : List Char := "--- Logging error ---".toList

/-- A line that a handler shows. -/
def shownLine (line : Except Failure (List Char)) : List Char :=
  match line with
  | .ok line => line
  | .error _ => loggingError

/-- What handlers show of a record, one after the other. -/
def handle (now : Context) : List Handler → Record → List (List Char)
  | [], _ => []
  | .contextual :: rest, record =>
    let (line, record) := (record.noteContext now).contextual now .full
    shownLine line :: handle now rest record
  | .plain :: rest, record => shownLine (record.line .message) :: handle now rest record

/-- What is shown of a record: without any handler, warnings are shown as they are. -/
def emit (r : Registry) (now : Context) (record : Record) : List (List Char) :=
  if r.isEnabled record.logger record.level then
    match r.handlersFor record.logger with
    | [] => if warning ≤ record.level then [shownLine (record.line .message)] else []
    | handlers => handle now handlers record
  else []

/-- The parts of this program that log from the start. -/
def ownLoggers : List String :=
  ["appatlas.infrastructure.http.client", "appatlas.services.describe",
    "appatlas.services.show_app", "appatlas.interfaces.cli.selector"]

/-- No loggers, and a root that shows warnings. -/
def empty : Registry := ⟨⟨[], warning⟩, [], false, []⟩

/-- The loggers of this program before anything is configured. -/
def initial : Registry := ownLoggers.foldl get empty

end Registry

end AppReport.Log
