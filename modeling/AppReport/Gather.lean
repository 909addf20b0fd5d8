import AppReport.Surroundings

/-!
# Gathering the reads of a description

A description needs four reads, which are made at the same time. Each read begins on a thread of its
own and completes at some later time (`Schedule`). Who waits for them goes on when all of them have
completed, or at the first occasion after one has failed (`Gather.watch`); reads that have not begun
by then are never made, and what the others give later is lost. The first failed read in the order
of declaration, among those that have completed, is the failure of the whole (`Progress.join`).

The failure of a read is handed over to the task that waits for it, where it is told as that of a
step, with two exceptions (`Slot.failure`). A read that fails by being cancelled cancels this task:
nobody is woken by that, nothing is logged, and the cancellation goes through as it is. And a name
that has no text makes the step fail before it can be told.
-/

namespace AppReport

namespace Slot

/-- All reads in the order of declaration. -/
def all : List Slot := [app, environments, services, pipelines]

/-- What a read does. -/
def operation : Slot → String
  | app => "get application"
  | environments => "list environments in application"
  | services => "list services in application"
  | pipelines => "list pipelines in application"

/-- The kind of failure that a failed read is. -/
def kind : Slot → FailureKind
  | pipelines => .directoryAccess
  | _ => .storeAccess

/-- The failure of a read for an application: that of the step, unless the read was cancelled or the
name has no text. -/
def failure (slot : Slot) (name : Value) (cause : Failure) : Failure :=
  if cause.isCancelled then cause.handedOver
  else
    match name.shown? with
    | .ok _ => .step slot.kind slot.operation name cause.handedOver
    | .error unshown => unshown

end Slot

/-- What each of the four reads gives. -/
abbrev Outcomes := (slot : Slot) → Except Failure slot.Result

/-- The results of four reads that have succeeded. -/
abbrev Findings := (slot : Slot) → slot.Result

/-- The results by slot. -/
def Findings.of (app : Application) (environments : List Environment) (services : List Workload)
    (pipelines : Listing) : Findings
  | .app => app
  | .environments => environments
  | .services => services
  | .pipelines => pipelines

/-- The failure of an outcome. -/
def Outcome.failure? {α : Type} : Except Failure α → Option Failure
  | .ok _ => none
  | .error f => some f

/-! ### How far the reads are -/

/-- What the reads give that have begun, and which of them have completed. -/
structure Progress where
  outcome? : (slot : Slot) → Option (Except Failure slot.Result)
  completed : List Slot

namespace Progress

/-- No read has begun. -/
def start : Progress := ⟨fun _ => none, []⟩

/-- A read has begun that gives an outcome. -/
def put (p : Progress) (slot : Slot) (outcome : Except Failure slot.Result) : Progress :=
  { p with outcome? := fun other =>
      if h : slot = other then some (h ▸ outcome) else p.outcome? other }

/-- A read has completed. -/
def complete (p : Progress) (slot : Slot) : Progress :=
  { p with completed := p.completed ++ [slot] }

/-- The failure of a read that has completed. -/
def failure? (p : Progress) (slot : Slot) : Option Failure :=
  if p.completed.contains slot then (p.outcome? slot).bind Outcome.failure? else none

/-- Whether a read has completed that has failed, and was not cancelled. -/
def hasFailed (p : Progress) : Bool :=
  Slot.all.any fun slot => (p.failure? slot).any fun cause => !cause.isCancelled

/-- The failure of a read that was given up. -/
def givenUp : Failure := .of .cancelled ""

/-- The result of a read that has completed; one that has not has been given up. -/
def result (p : Progress) (slot : Slot) : Except Failure slot.Result :=
  if p.completed.contains slot then (p.outcome? slot).getD (.error givenUp) else .error givenUp

/-- The results of all four reads. -/
def findings (p : Progress) : Except Failure Findings :=
  match p.result .app with
  | .error f => .error f
  | .ok app =>
    match p.result .environments with
    | .error f => .error f
    | .ok environments =>
      match p.result .services with
      | .error f => .error f
      | .ok services =>
        match p.result .pipelines with
        | .error f => .error f
        | .ok pipelines => .ok (.of app environments services pipelines)

/-- What the reads for an application come to: the first failure in the order of declaration, or
else all results. -/
def join (p : Progress) (name : Value) : Except Failure Findings :=
  match Slot.all.findSome? fun slot => (p.failure? slot).map (slot.failure name) with
  | some f => .error f
  | none => p.findings

end Progress

/-! ### Reading -/

namespace Gather

/-- The tag of the pipelines of an application. -/
def tagKey : String := "application"

/-- The name under which descriptions log. -/
def logger : String := "appatlas.services.describe"

/-- A record for tracing. -/
def trace (template : String) (values : List Value) : Log.Record where
  logger := logger
  level := Log.debug
  template := template.toList
  values := values
  context := none
  failure := none

/-- The record of a failed read. -/
def failureTrace (slot : Slot) (name : Value) (cause : Failure) : Log.Record :=
  trace "%s %s failed: %s" [.text slot.operation, name, .text cause.text]

variable {σ : Type} (around : Surroundings σ) (now : Log.Context) (name : Value)

/-- Makes a read. -/
def fetch (slot : Slot) : Session σ → Except Failure slot.Result × Session σ :=
  match slot with
  | .app => around.readApplication now name
  | .environments => around.readEnvironments now name
  | .services => around.readServices now name
  | .pipelines => around.readPipelines now tagKey name

/-- The reads of a description while they are under way. -/
structure State (σ : Type) where
  progress : Progress
  session : Session σ

/-- Begins a read, unless it has begun. -/
def beginRead (slot : Slot) (g : State σ) : State σ :=
  match g.progress.outcome? slot with
  | some _ => g
  | none =>
    let (outcome, session) := fetch around now name slot g.session
    ⟨g.progress.put slot outcome, session⟩

/-- Logs the failure of a read that has failed, unless it was cancelled. -/
def noteFailure (slot : Slot) (g : State σ) : State σ :=
  match g.progress.failure? slot with
  | some cause =>
    if cause.isCancelled then g
    else { g with session := around.note now (failureTrace slot name cause) g.session }
  | none => g

/-- Completes a read, unless it has completed; it begins first if it has not begun. -/
def completeRead (slot : Slot) (g : State σ) : State σ :=
  if g.progress.completed.contains slot then g
  else
    let g := beginRead around now name slot g
    noteFailure around now name slot { g with progress := g.progress.complete slot }

/-- Lets something happen to a read. -/
def happen (g : State σ) : ReadEvent → State σ
  | .begins slot => beginRead around now name slot g
  | .completes slot => completeRead around now name slot g

/-- What happens when nothing else is said: the reads begin, and then they complete. -/
def remaining : List ReadEvent := Slot.all.map .begins ++ Slot.all.map .completes

/-- Lets things happen to the reads until one has failed or all have completed. -/
def watch (g : State σ) : Schedule → State σ
  | [] => remaining.foldl (happen around now name) g
  | events :: later =>
    let g := events.foldl (happen around now name) g
    if g.progress.hasFailed then g else watch g later

/-- Makes the four reads, and joins what they give. -/
def gather (schedule : Schedule) (s : Session σ) : Except Failure Findings × Session σ :=
  let g := watch around now name ⟨.start, s⟩ schedule
  (g.progress.join name, g.session)

end Gather

end AppReport
