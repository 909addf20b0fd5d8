import AppReport.Log.Registry

/-!
# Blocks with fields

Fields are put in force for a block (`Program.within`) and join those of the blocks around it. A
block notes what has been in force when it is entered (`Journal.enter`) and puts that back when it
is left (`Journal.leave`), however it ends.
-/

namespace AppReport.Log

/-- The course of something that logs: its records and failures, and the blocks around them. -/
inductive Program where
  /-- Does nothing. -/
  | done
  | log (record : Record)
  | fail (f : Failure)
  /-- Goes on if the first part has not failed. -/
  | andThen (first next : Program)
  /-- Goes on if the first part has failed. -/
  | orElse (first : Program) (handler : Failure → Program)
  /-- A block with fields. -/
  | within (fields : Context) (body : Program)

/-- The fields in force, and what has been logged so far, each record with the fields that were in
force then. -/
structure Journal where
  now : Context
  seen : List (Context × Record)

namespace Journal

/-- Nothing is in force, and nothing has been logged. -/
def start : Journal := ⟨[], []⟩

/-- Logs a record. -/
def log (record : Record) (j : Journal) : Journal :=
  { j with seen := j.seen ++ [(j.now, record)] }

/-- Enters a block with fields; what has been in force is noted for the end of the block. -/
def enter (fields : Context) (j : Journal) : Context × Journal :=
  (j.now, { j with now := j.now.merge fields })

/-- Leaves a block. -/
def leave (before : Context) (j : Journal) : Journal := { j with now := before }

end Journal

namespace Program

/-- Runs a program. A block is left when it fails, too. -/
def run : Program → Journal → Except Failure Unit × Journal
  | .done, j => (.ok (), j)
  | .log record, j => (.ok (), j.log record)
  | .fail f, j => (.error f, j)
  | .andThen first next, j =>
    match first.run j with
    | (.ok (), j) => next.run j
    | (.error f, j) => (.error f, j)
  | .orElse first handler, j =>
    match first.run j with
    | (.ok (), j) => (.ok (), j)
    | (.error f, j) => (handler f).run j
  | .within fields body, j =>
    let (before, j) := j.enter fields
    let (outcome, j) := body.run j
    (outcome, j.leave before)

/-- Logs a failure for tracing, with fields of its own. -/
def logFailure (logger message : String) (f : Failure) (fields : Context) : Program :=
  .within fields (.log (failureRecord logger message f))

end Program

/-- What is shown of records that have been logged, one after the other. -/
def Registry.emitAll (r : Registry) (seen : List (Context × Record)) : List (List Char) :=
  seen.flatMap fun (now, record) => r.emit now record

end AppReport.Log
