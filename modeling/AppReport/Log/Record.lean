import AppReport.Text.Template

/-!
# Log records

A record is a template with values, and the fields that were in force when it was logged. Writing
a record with its context (`Record.contextual`) puts the fields behind the template before the
values are filled in, and leaves the record with them: written once more, it shows them twice.
-/

namespace AppReport.Log

open Text

/-- The fields in force while something is done, in the order in which they were set. -/
abbrev Context := Fields

/-- The fields of a block inside others: an inner field takes the place of an outer one. -/
def Context.merge (outer inner : Context) : Context :=
  inner.foldl (fun fields (k, v) => Fields.put k v fields) outer

/-- The fields side by side, each of which has a value with a text. -/
def Context.text (context : Context) : List Char :=
  match context with
  | [] => []
  | [(k, v)] => k.toList ++ '=' :: v.shown.toList
  | (k, v) :: rest => k.toList ++ '=' :: v.shown.toList ++ ' ' :: Context.text rest

/-- The levels of records. -/
abbrev Level := Int

/-- Details for tracing. -/
def debug : Level := 10

/-- News about the usual course. -/
def info : Level := 20

/-- Something that may need care. -/
def warning : Level := 30

/-- The name of a level. -/
def levelName (level : Level) : String :=
  if level = 50 then "CRITICAL"
  else if level = 40 then "ERROR"
  else if level = 30 then "WARNING"
  else if level = 20 then "INFO"
  else if level = 10 then "DEBUG"
  else if level = 0 then "NOTSET"
  else "Level " ++ toString level

/-- Something to be logged. -/
structure Record where
  logger : String
  level : Level
  template : List Char
  values : List Value
  /-- The fields of the place where it was logged, once they have been noted. -/
  context : Option Context
  /-- The failure that it tells of. -/
  failure : Option Failure

/-- The values for a template: one object alone gives its fields by key. -/
def templateArgs (values : List Value) : Template.Args :=
  match values with
  | [.object (field :: fields)] => .byKey (field :: fields)
  | values => .inOrder values

/-- The message of a record. Without values the template stands for itself. -/
def Record.message (r : Record) : Except Failure (List Char) :=
  if r.values.isEmpty then .ok r.template else Template.fill r.template (templateArgs r.values)

/-- The last line of the report on a failure: where it comes from, its kind and its text. -/
def failureLine (f : Failure) : List Char :=
  let kind := if f.fault.origin = "" then f.fault.label
    else f.fault.origin ++ "." ++ f.fault.label
  let text := f.text
  (if text = "" then kind else kind ++ ": " ++ text).toList

/-- Where a record shows its parts. -/
inductive LineForm where
  /-- The message alone. -/
  | message
  /-- The logger, the level and the message; the time in front of them is not kept. -/
  | full
  /-- A template for the parts by name. -/
  | template (form : List Char)

/-- Whether a directive for a part of a record begins a text. -/
def beginsWithPart (cs : List Char) : Bool :=
  let isWordChar := fun (c : Char) => c.isAlphanum || c == '_' || 0x80 ≤ c.toNat
  let afterCount := fun (cs : List Char) =>
    match cs with
    | '*' :: rest => rest
    | cs => cs.dropWhile Char.isDigit
  match cs with
  | '%' :: '(' :: rest =>
    match rest.takeWhile isWordChar, rest.dropWhile isWordChar with
    | _ :: _, ')' :: rest =>
      let rest := afterCount (rest.dropWhile fun c => "#0+ -".toList.contains c)
      let rest := match rest with
        | '.' :: c :: more => if c = '*' || c.isDigit then afterCount (c :: more) else rest
        | rest => rest
      match rest with
      | c :: _ => "diouxefgcrsa%".toList.contains c.toLower
      | [] => false
    | _, _ => false
  | _ => false

/-- Whether a text shows a part of a record somewhere. -/
def showsPart : List Char → Bool
  | [] => false
  | c :: rest => beginsWithPart (c :: rest) || showsPart rest

/-- The form that a template gives; one that shows no part of a record is refused, and an empty one
is the message. -/
def LineForm.ofTemplate (form : List Char) : Except Failure LineForm :=
  if form.isEmpty then .ok .message
  else if showsPart form then .ok (.template form)
  else .error (.of .value ("Invalid format '" ++ String.ofList form ++ "' for '%' style"))

/-- A part that a template asks for and no record has. -/
def missingPart (f : Failure) : Failure :=
  if f.isKind (· == .key) then .of .value ("Formatting field not found in record: " ++ f.text)
  else f

/-- A record in a form, with a text in the place of its message. -/
def Record.setOut (r : Record) (form : LineForm) (message : List Char) :
    Except Failure (List Char) :=
  let line : Except Failure (List Char) := match form with
    | .message => .ok message
    | .full => .ok (r.logger.toList ++ " - ".toList ++ (levelName r.level).toList
        ++ " - ".toList ++ message)
    | .template form => (Template.fill form (.byKey [
        ("name", .text r.logger), ("msg", .text (String.ofList r.template)),
        ("levelno", .int r.level), ("levelname", .text (levelName r.level)),
        ("message", .text (String.ofList message))])).mapError missingPart
  match line, r.failure with
  | .ok line, some f =>
    .ok ((if line.getLast? = some '\n' then line else line ++ ['\n']) ++ failureLine f)
  | line, _ => line

/-- A record in a form. -/
def Record.line (r : Record) (form : LineForm) : Except Failure (List Char) :=
  match r.message with
  | .error e => .error e
  | .ok message => r.setOut form message

/-- The fields that a record shows: its own, or if it has none those in force now. -/
def Record.shownContext (r : Record) (now : Context) : Context :=
  match r.context with
  | some (field :: fields) => field :: fields
  | _ => now

/-- A record with its context behind the template. -/
def Record.withContext (r : Record) (now : Context) : Record :=
  match r.shownContext now with
  | [] => r
  | context => { r with template := r.template ++ ' ' :: '[' :: (Context.text context ++ [']']) }

/-- Writes a record with its context, and leaves the record as that has made it. -/
def Record.contextual (r : Record) (now : Context) (form : LineForm) :
    Except Failure (List Char) × Record :=
  let r := r.withContext now
  (r.line form, r)

/-- Writes a record a number of times. -/
def Record.contextualTimes (r : Record) (now : Context) (form : LineForm) :
    (times : Nat) → Except Failure (List (List Char))
  | 0 => .ok []
  | times + 1 =>
    match r.contextual now form with
    | (.error e, _) => .error e
    | (.ok line, r) => (contextualTimes r now form times).map (line :: ·)

/-- Notes the fields in force on a record that has none of its own. -/
def Record.noteContext (r : Record) (now : Context) : Record :=
  { r with context := some (r.context.getD now) }

/-- The record of a failure, for tracing. -/
def failureRecord (logger message : String) (f : Failure) : Record where
  logger := logger
  level := debug
  template := (message ++ ": " ++ f.text).toList
  values := []
  context := none
  failure := some f

end AppReport.Log
