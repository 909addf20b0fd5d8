import AppReport.Directory.Client
import AppReport.Log.Registry
import AppReport.Selector
import AppReport.Store.ConfigStore
import AppReport.Surroundings

/-!
# The surroundings of a command

`World.around` gives the surroundings that a command works with: the store in the files, the
directory behind its client, someone who enters lines, and the two outputs. All reads are traced
with the log fields in force.
-/

namespace AppReport

/-- Something shown on the output for messages. -/
inductive Shown where
  | text (cs : List Char)
  /-- A log record, without the time in front of it. -/
  | record (cs : List Char)

/-- The state of what is around a command. -/
structure World where
  files : Files
  script : Script
  registry : Log.Registry
  /-- The lines still to be entered. -/
  entered : List (List Char)
  /-- What has been written. -/
  output : String
  messages : List Shown
  /-- How the reads of a description go on that are made at the same time; by default all of them
  complete together. -/
  schedule : Schedule := []

namespace World

/-- Shows a text. -/
def tell (cs : List Char) (w : World) : World :=
  if cs.isEmpty then w else { w with messages := w.messages ++ [.text cs] }

/-- Logs a record. -/
def log (now : Log.Context) (record : Log.Record) (w : World) : World :=
  { w with messages := w.messages ++ (w.registry.emit now record).map .record }

/-- Logs records one after the other. -/
def logAll (now : Log.Context) (records : List Log.Record) (w : World) : World :=
  records.foldl (fun w record => w.log now record) w

/-- Reads the store. -/
def fromStore {α : Type} (read : Files → Except Failure α × Files) (w : World) :
    Except Failure α × World :=
  let (outcome, files) := read w.files
  (outcome, { w with files })

/-- Reads a list from the store, and traces how many things of a kind there are. -/
def listFromStore {α : Type} (read : Files → Except Failure (List α) × Files) (kind : String)
    (name : Value) (now : Log.Context) (w : World) : Except Failure (List α) × World :=
  match w.fromStore read with
  | (.ok found, w) => (.ok found, w.log now (ConfigStore.foundTrace kind found.length name))
  | (.error e, w) => (.error e, w)

/-- Asks the directory, and traces how many pipelines there are. -/
def findPipelines (client : Client) (now : Log.Context) (key : String) (value : Value)
    (w : World) : Except Failure Listing × World :=
  match client.find key value w.script with
  | (.ok found, script) =>
    (.ok (.records found), { w with script }.log now (Client.foundTrace found.length key value))
  | (.error e, script) => (.error e, { w with script })

/-- Lets someone select an application of the store. -/
def select (store : ConfigStore) (now : Log.Context) (promptText help : String) (w : World) :
    Except Failure Value × World :=
  let (listed, w) := w.fromStore store.applications
  let selection := Selector.select listed promptText help w.entered
  (selection.outcome,
    ({ w with entered := selection.left }.tell selection.shown).logAll now selection.notes)

/-- The surroundings of a command with a store and a directory. -/
def around (store : ConfigStore) (client : Client) : Surroundings World where
  getApplication now name w :=
    (w.log now (ConfigStore.searchTrace name)).fromStore (store.application name)
  listEnvironments now name w := w.listFromStore (store.environments name) "environments" name now
  listServices now name w := w.listFromStore (store.workloads name) "services" name now
  findPipelines now key value w := w.findPipelines client now key value
  select now promptText help w := w.select store now promptText help
  write text w := (.ok (), { w with output := w.output ++ text })
  log now record w := w.log now record
  schedule w := w.schedule

end World

end AppReport
