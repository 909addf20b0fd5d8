import AppReport.Json.Reader
import AppReport.Validation

/-!
# Failures and their causes

A `Failure` is a fault with the faults that led to it, closest first. The faults of the program's
own steps (`StepFailure`) name the step and the application; their text goes on with the text of
their cause unless they have a detail of their own (`Failure.textOf`). It goes down to the causes by
recursion, so that a chain which goes on in this way for too long has no text
(`Failure.textWithin`). Every other fault is told apart by its `FaultKind`.
-/

namespace AppReport

open Text

/-- The part of the work that failed. -/
inductive FailureKind where
  | invalidInput
  | selectionFailed
  | storeAccess
  | directoryAccess
  | renderError
  deriving DecidableEq

/-- The name of a kind in log lines. -/
def FailureKind.label : FailureKind → String
  | invalidInput => "invalid_input"
  | selectionFailed => "selection_failed"
  | storeAccess => "store_access"
  | directoryAccess => "directory_access"
  | renderError => "render_error"

/-- The failure of a step of the program: what was being done, and to which application. -/
structure StepFailure where
  kind : FailureKind
  operation : String
  /-- The name of the application, or nothing that is set. -/
  app : Value
  detail : Option String

/-- The step, with the application if one is named. -/
def StepFailure.subject (s : StepFailure) : String :=
  if s.app.isSet then s.operation ++ " " ++ s.app.shown else s.operation

/-- The subject, with the detail if there is one that is not empty. -/
def StepFailure.message (s : StepFailure) : String :=
  match s.detail with
  | some detail => if detail = "" then s.subject else s.subject ++ ": " ++ detail
  | none => s.subject

/-- The kinds of faults outside the program's own steps. -/
inductive FaultKind where
  | runtime
  | operatingSystem
  | value
  | key
  | lookup
  | timeout
  | overflow
  | typeMismatch
  | missingAttribute
  | recursion
  | malformedDocument
  | undecodable
  | unencodable
  | fileExists
  | isDirectory
  | notDirectory
  | permission
  | tableOperation
  | tableFormat
  | tableBinding
  | database
  | unknownApplication
  | selection
  | directory
  | directoryTimeout
  | abort
  /-- That something was given up before it was done. -/
  | cancelled
  /-- That something is not in the state that it is used in. -/
  | invalidState
  /-- The end of an iteration, which no task can pass on. -/
  | stopIteration
  | request
  | requestTimeout
  | connectTimeout
  | readTimeout
  | connection
  | certificate
  | redirection
  | missingScheme
  | unsupportedScheme
  | invalidUrl
  /-- A kind that the program knows nothing of. -/
  | foreign (label : String)
  deriving DecidableEq

namespace FaultKind

/-- The name of a kind of fault. -/
def label : FaultKind → String
  | runtime => "RuntimeError"
  | operatingSystem => "OSError"
  | value => "ValueError"
  | key => "KeyError"
  | lookup => "LookupError"
  | timeout => "TimeoutError"
  | overflow => "OverflowError"
  | typeMismatch => "TypeError"
  | missingAttribute => "AttributeError"
  | recursion => "RecursionError"
  | malformedDocument => "JSONDecodeError"
  | undecodable => "UnicodeDecodeError"
  | unencodable => "UnicodeEncodeError"
  | fileExists => "FileExistsError"
  | isDirectory => "IsADirectoryError"
  | notDirectory => "NotADirectoryError"
  | permission => "PermissionError"
  | tableOperation => "OperationalError"
  | tableFormat => "DatabaseError"
  | tableBinding => "ProgrammingError"
  | database => "DatabaseError"
  | unknownApplication => "ApplicationNotFoundError"
  | selection => "SelectionError"
  | directory => "PipelineDirectoryError"
  | directoryTimeout => "PipelineDirectoryTimeoutError"
  | abort => "Abort"
  | cancelled => "CancelledError"
  | invalidState => "InvalidStateError"
  | stopIteration => "StopIteration"
  | request => "RequestException"
  | requestTimeout => "Timeout"
  | connectTimeout => "ConnectTimeout"
  | readTimeout => "ReadTimeout"
  | connection => "ConnectionError"
  | certificate => "SSLError"
  | redirection => "TooManyRedirects"
  | missingScheme => "MissingSchema"
  | unsupportedScheme => "InvalidSchema"
  | invalidUrl => "InvalidURL"
  | foreign label => label

/-- The part of the program or of its surroundings that a kind of fault belongs to; empty for the
faults that anything can have. -/
def origin : FaultKind → String
  | tableOperation | tableFormat | tableBinding => "sqlite3"
  | database => "appatlas.infrastructure.db.connection"
  | unknownApplication => "appatlas.infrastructure.db.repositories.applications"
  | selection => "appatlas.services.errors"
  | directory | directoryTimeout => "appatlas.infrastructure.http.client"
  | abort => "click.exceptions"
  | request | requestTimeout | connectTimeout | readTimeout | connection | certificate
  | redirection | missingScheme | unsupportedScheme | invalidUrl => "requests.exceptions"
  | _ => ""

/-- Whether the fault is that a request took too long. -/
def isRequestTimeout : FaultKind → Bool
  | requestTimeout | connectTimeout | readTimeout => true
  | _ => false

/-- Whether the fault is one of sending a request. -/
def isRequest : FaultKind → Bool
  | request | requestTimeout | connectTimeout | readTimeout | connection | certificate
  | redirection | missingScheme | unsupportedScheme | invalidUrl => true
  | _ => false

/-- Whether the fault is one of the value of an argument. -/
def isValue : FaultKind → Bool
  | value | malformedDocument | undecodable | unencodable | missingScheme | unsupportedScheme
  | invalidUrl => true
  | _ => false

/-- Whether the fault is one of the operating system. -/
def isOperatingSystem : FaultKind → Bool
  | operatingSystem | timeout | fileExists | isDirectory | notDirectory | permission
  | directoryTimeout => true
  | kind => kind.isRequest

/-- Whether a fault is made anew, with nothing but its message, when it goes from the thread that it
has ended to the task that waits for this thread. -/
def isMadeAnew : FaultKind → Bool
  | timeout | cancelled | invalidState => true
  | _ => false

end FaultKind

/-- One fault of a chain. -/
inductive Fault where
  | step (failure : StepFailure)
  | invalid (report : ValidationReport)
  | other (kind : FaultKind) (message : String)

/-- The name of the kind of a fault. -/
def Fault.label : Fault → String
  | step _ => "ShowAppError"
  | invalid _ => "ValidationError"
  | other kind _ => kind.label

/-- The part of the program or of its surroundings that a fault belongs to. -/
def Fault.origin : Fault → String
  | step _ => "appatlas.services.errors"
  | invalid _ => ""
  | other kind _ => kind.origin

/-- The text of a fault on its own. -/
def Fault.message : Fault → String
  | step failure => failure.message
  | invalid report => report.message
  | other _ message => message

/-- Whether the fault is that no application has a name. -/
def Fault.isNotFound : Fault → Bool
  | other .unknownApplication _ => true
  | _ => false

/-- A fault with its causes, closest first. -/
structure Failure where
  fault : Fault
  causes : List Fault

namespace Failure

/-- A fault without a cause. -/
def of (kind : FaultKind) (message : String) : Failure := ⟨.other kind message, []⟩

/-- The failure of a check. -/
def invalid (model : String) (issues : List Issue) : Failure := ⟨.invalid ⟨model, issues⟩, []⟩

/-- A fault that another failure led to. -/
def causedBy (fault : Fault) (cause : Failure) : Failure := ⟨fault, cause.fault :: cause.causes⟩

/-- The text of a chain: a step without a detail goes on with the text of its cause. -/
def textOf : Fault → List Fault → String
  | .step s, cause :: rest =>
    match s.detail with
    | none => s.message ++ ": " ++ textOf cause rest
    | some _ => s.message
  | fault, _ => fault.message

/-- The text of a failure. -/
def text (f : Failure) : String := textOf f.fault f.causes

/-- The failure to go down to a cause for which there is no room. -/
def noRoom : Failure := of .recursion "maximum recursion depth exceeded"

/-- The text of a chain where there is room to go down to some causes only. How many they are
depends on what else is being done. -/
def textWithin : Fault → List Fault → (room : Nat) → Except Failure String
  | .step s, cause :: rest, room =>
    match s.detail with
    | some _ => .ok s.message
    | none =>
      match room with
      | 0 => .error noRoom
      | room + 1 => (textWithin cause rest room).map fun text => s.message ++ ": " ++ text
  | fault, _, _ => .ok fault.message

/-- The text of a failure where there is room to go down to some causes. -/
def text? (room : Nat) (f : Failure) : Except Failure String := textWithin f.fault f.causes room

/-- A number of causes for which there is always room. -/
def leastRoom : Nat := 300

/-- Whether no application has the name, here or in any cause. -/
def isNotFound (f : Failure) : Bool := f.causes.any Fault.isNotFound

/-- The failures of each cause in turn, with the causes below it. -/
def below : List Fault → List Failure
  | [] => []
  | fault :: rest => ⟨fault, rest⟩ :: below rest

/-- The failure of a step with a detail of its own. -/
def ofStep (kind : FailureKind) (operation : String) (app : Value) (detail : Option String) :
    Failure :=
  ⟨.step ⟨kind, operation, app, detail⟩, []⟩

/-- The failure of a step that another failure led to. -/
def step (kind : FailureKind) (operation : String) (app : Value) (cause : Failure) : Failure :=
  causedBy (.step ⟨kind, operation, app, none⟩) cause

/-- The failure to find an application. -/
def unknownApplication (name : Value) : Failure :=
  of .unknownApplication ("application " ++ name.shown ++ " not found")

/-- The failure to read a document. -/
def ofReadError (e : Json.ReadError) : Failure :=
  match e with
  | .malformed .. => of .malformedDocument e.message
  | .tooManyDigits _ => of .value e.message
  | .tooDeep => of .recursion e.message

/-- The part of a text or of bytes from `first` on, up to but not including `after`, with `one` for
a part of one. -/
def partWords (unit one : String) (first after : Nat) : String :=
  if after ≤ first + 1 then unit ++ " " ++ one ++ " in position " ++ toString first
  else unit ++ "s in position " ++ toString first ++ "-" ++ toString (after - 1)

/-- The failure to read bytes as text. -/
def undecodable (bytes : List UInt8) (flaw : Flaw) : Failure :=
  of .undecodable ("'utf-8' codec can't decode " ++
    partWords "byte" ("0x" ++ String.ofList (hexDigits 2 (bytes.getD flaw.first 0).toNat))
      flaw.first flaw.after ++ ": " ++ flaw.kind.words)

/-- The text of bytes, or the failure to read them as text. -/
def decoded (bytes : List UInt8) : Except Failure (List Char) :=
  (decodeOrFlaw bytes).mapError (undecodable bytes)

/-- The bytes of a text whose characters stand for one byte each, or the failure at those that do
not. -/
def latin1Bytes (cs : List Char) : Except Failure (List UInt8) :=
  let fits := fun (c : Char) => c.toNat < 256
  match cs.dropWhile fits with
  | [] => .ok (cs.map fun c => UInt8.ofNat c.toNat)
  | c :: rest =>
    let first := (cs.takeWhile fits).length
    let after := first + 1 + (rest.takeWhile fun c => !fits c).length
    .error (of .unencodable ("'latin-1' codec can't encode " ++
      partWords "character" ("'" ++ String.ofList (codeEscape c) ++ "'") first after
      ++ ": ordinal not in range(256)"))

/-- The kind of fault at the head of a failure that is no step and no check. -/
def kind? (f : Failure) : Option FaultKind :=
  match f.fault with
  | .other kind _ => some kind
  | _ => none

/-- Whether the head of a failure is of a class of faults. -/
def isKind (p : FaultKind → Bool) (f : Failure) : Bool := f.kind?.any p

/-- Whether a failure is that something was given up. -/
def isCancelled (f : Failure) : Bool := f.isKind (· = .cancelled)

/-- A failure as it reaches the task that waits for the thread which has ended with it: what is made
anew on the way has lost its causes. -/
def handedOver (f : Failure) : Failure :=
  if f.isKind FaultKind.isMadeAnew then ⟨f.fault, []⟩ else f

end Failure

/-! ### Lists -/

/-- The results of a function on each item of a list, up to the first failure. -/
def mapUntilFailure {α β : Type} (f : α → Except Failure β) : List α → Except Failure (List β)
  | [] => .ok []
  | a :: rest =>
    match f a with
    | .error e => .error e
    | .ok b =>
      match mapUntilFailure f rest with
      | .error e => .error e
      | .ok bs => .ok (b :: bs)

/-- There are results exactly when there is one for each item, and then they are these. -/
theorem mapUntilFailure_eq_ok_iff {α β : Type} {f : α → Except Failure β} {as : List α}
    {bs : List β} : mapUntilFailure f as = .ok bs ↔ as.map f = bs.map .ok := by
  induction as generalizing bs with
  | nil => cases bs <;> simp [mapUntilFailure]
  | cons a as ih =>
    rw [mapUntilFailure, List.map_cons]
    cases ha : f a with
    | error e => cases bs <;> simp
    | ok b =>
      cases hrest : mapUntilFailure f as with
      | error e =>
        constructor
        · exact nofun
        · intro h
          cases bs with
          | nil => cases h
          | cons b' bs =>
            rw [ih.mpr (List.cons.inj h).2] at hrest
            cases hrest
      | ok rest =>
        have hmap := ih.mp hrest
        cases bs with
        | nil => simp
        | cons b' bs =>
          have hinjective : Function.Injective (Except.ok : β → Except Failure β) :=
            fun _ _ h => Except.ok.inj h
          simp [hmap, List.map_inj_right fun _ _ h => hinjective h]

/-- Every item has a result exactly when there is a list of all results. -/
theorem exists_map_eq_map_ok_iff {ε α β : Type} {f : α → Except ε β} {as : List α} :
    (∃ bs : List β, as.map f = bs.map .ok) ↔ ∀ a ∈ as, ∃ b, f a = .ok b := by
  induction as with
  | nil => exact ⟨fun _ => nofun, fun _ => ⟨[], rfl⟩⟩
  | cons a as ih =>
    rw [List.forall_mem_cons, ← ih]
    constructor
    · rintro ⟨bs, hbs⟩
      cases bs with
      | nil => cases hbs
      | cons b bs =>
        obtain ⟨hb, hrest⟩ := List.cons.inj hbs
        exact ⟨⟨b, hb⟩, ⟨bs, hrest⟩⟩
    · rintro ⟨⟨b, hb⟩, ⟨bs, hbs⟩⟩
      exact ⟨b :: bs, by rw [List.map_cons, List.map_cons, hb, hbs]⟩

/-- The first failure is that of an item. -/
theorem mapUntilFailure_eq_error {α β : Type} {f : α → Except Failure β} {as : List α}
    {e : Failure} (h : mapUntilFailure f as = .error e) : ∃ a ∈ as, f a = .error e := by
  induction as with
  | nil => cases h
  | cons a as ih =>
    rw [mapUntilFailure] at h
    split at h
    · rename_i ha
      cases h
      exact ⟨a, List.mem_cons_self, ha⟩
    split at h
    · rename_i hrest
      cases h
      obtain ⟨b, hb, hfailed⟩ := ih hrest
      exact ⟨b, List.mem_cons_of_mem a hb, hfailed⟩
    · cases h

/-- Two lists that agree item by item in one way agree in every way that follows from it for the
items of the first. -/
theorem map_eq_map_of_mem_imp {α β γ δ : Type} {f : α → γ} {i : β → γ} {g : α → δ} {j : β → δ}
    {as : List α} {bs : List β} (himp : ∀ a ∈ as, ∀ b, f a = i b → g a = j b)
    (h : as.map f = bs.map i) : as.map g = bs.map j := by
  induction as generalizing bs with
  | nil => cases bs with
    | nil => rfl
    | cons b bs => cases h
  | cons a as ih => cases bs with
    | nil => cases h
    | cons b bs =>
      obtain ⟨hfirst, hrest⟩ := List.forall_mem_cons.mp himp
      obtain ⟨hhead, htail⟩ := List.cons.inj h
      rw [List.map_cons, List.map_cons, hfirst b hhead, ih hrest htail]

/-- Two lists that agree item by item in one way agree in every way that follows from it. -/
theorem map_eq_map_of_imp {α β γ δ : Type} {f : α → γ} {i : β → γ} {g : α → δ} {j : β → δ}
    (himp : ∀ a b, f a = i b → g a = j b) {as : List α} {bs : List β}
    (h : as.map f = bs.map i) : as.map g = bs.map j :=
  map_eq_map_of_mem_imp (fun a _ => himp a) h

end AppReport
