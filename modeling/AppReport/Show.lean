import AppReport.Describe
import AppReport.Report.Document

/-!
# Showing an application

A run checks a name that was supplied, asks for one that was not, and then writes the report of the
application. Nothing is written before the report is complete, and it is written at once.
-/

namespace AppReport

/-- Whether it is known which application to show. -/
inductive Resolution where
  /-- A name that was supplied or selected. -/
  | supplied (name : Value)
  /-- No name yet; someone will be asked for one. -/
  | unresolved

/-- The resolution for an optional name; an empty one is none. -/
def Resolution.ofName? (name : Option String) : Resolution :=
  match name with
  | none => unresolved
  | some s => if s = "" then unresolved else supplied (.text s)

/-- A run of the program: what to show, in which form, and the session so far. -/
structure Showing (σ : Type) where
  resolution : Resolution
  asJson : Bool
  session : Session σ

namespace Showing

/-- The question for an application. -/
def question : String := "Which application would you like to show?"

/-- The line of help for the question. -/
def questionHelp : String := "An application is a collection of related services."

/-- What is said about a name that breaks the rule for names. -/
def nameRule : String :=
  "names start with a lowercase letter and contain only lowercase letters, numbers, and hyphens"

/-- The name under which runs log. -/
def logger : String := "appatlas.services.show_app"

/-- The characters of a name after its first one. -/
def isNameChar (c : Char) : Bool := c.isLower || c.isDigit || c == '-'

/-- Whether a text has the form of a name. A line feed at its end makes no difference. -/
def isName (cs : List Char) : Bool :=
  match cs with
  | [] => false
  | first :: rest =>
    let after := rest.dropWhile isNameChar
    first.isLower && (after = [] || after = ['\n'])

/-- Checks the form of a name. -/
def checkName (name : Value) : Except Failure Unit :=
  match name with
  | .text s =>
    if isName s.toList then .ok ()
    else .error (.ofStep .invalidInput "validate application name" name (some nameRule))
  | .bytes _ => .error (.of .typeMismatch "cannot use a string pattern on a bytes-like object")
  | v => .error (.of .typeMismatch ("expected string or bytes-like object, got '" ++ v.kindName
      ++ "'"))

/-- The failure of the read that checks a name: that there is no such application is the fault of
the name, all else that of the store. -/
def lookupFailure (name : Value) (cause : Failure) : Failure :=
  .step (if cause.fault.isNotFound then .invalidInput else .storeAccess) "get application" name
    cause

variable {σ : Type} (around : Surroundings σ)

/-- Checks a supplied name. -/
def validate (w : Showing σ) : Except Failure Unit × Showing σ :=
  match w.resolution with
  | .unresolved => (.ok (), w)
  | .supplied name =>
    match checkName name with
    | .error f => (.error f, w)
    | .ok () =>
      match around.readApplication [] name w.session with
      | (.ok _, session) => (.ok (), { w with session })
      | (.error cause, session) => (.error (lookupFailure name cause), { w with session })

/-- What a run does when it asks for an application. -/
def selectOperation : String := "select application"

/-- Asks for a name if none was supplied. -/
def ask (w : Showing σ) : Except Failure Unit × Showing σ :=
  match w.resolution with
  | .supplied _ => (.ok (), w)
  | .unresolved =>
    match around.ask [] question questionHelp w.session with
    | (.error cause, session) =>
      (.error (.step .selectionFailed selectOperation .null cause), { w with session })
    | (.ok name, session) =>
      if name.isSet then (.ok (), { w with session, resolution := .supplied name })
      else
        (.error (.ofStep .selectionFailed selectOperation .null (some "no application was chosen")),
          { w with session })

/-- Describes the application and writes the report. -/
def execute (w : Showing σ) : Except Failure Unit × Showing σ :=
  match w.resolution with
  | .unresolved =>
    (.error (.ofStep .invalidInput "show application" .null
      (some "no application name was resolved")), w)
  | .supplied name =>
    match describe around name w.session with
    | (.error f, session) => (.error f, { w with session })
    | (.ok d, session) =>
      match Report.render d w.asJson with
      | .error f => (.error f, { w with session })
      | .ok text =>
        let (outcome, session) := around.put text session
        (outcome, { w with session })

/-- Goes on with a stage if the one before has succeeded. -/
def andThen (first second : Showing σ → Except Failure Unit × Showing σ) (w : Showing σ) :
    Except Failure Unit × Showing σ :=
  match first w with
  | (.error f, w) => (.error f, w)
  | (.ok (), w) => second w

/-- The three stages without the log record of a failure. -/
def stages : Showing σ → Except Failure Unit × Showing σ :=
  andThen (validate around) (andThen (ask around) (execute around))

/-- A whole run. The failure of a step is logged with its kind. -/
def run (w : Showing σ) : Except Failure Unit × Showing σ :=
  match stages around w with
  | (.ok (), w) => (.ok (), w)
  | (.error f, w) =>
    match f.fault with
    | .step s =>
      let now : Log.Context := [("kind", .text s.kind.label)]
      let record := Log.failureRecord logger "Showing application failed" f
      (.error f, { w with session := around.note now record w.session })
    | _ => (.error f, w)

end Showing

end AppReport
