import AppReport.Json.Writer
import AppReport.Store.Connection
import AppReport.Store.FileFormat

/-!
# Snapshots

A snapshot describes what a program finds around it: directories, files, links, databases, the
directory where it is, its user, and what the directory of pipelines answers. It is an object with
a field for each; `Snapshot.ofFields` reads it, and what cannot be made is left out.
-/

namespace AppReport

open Text

/-- What a program finds around it. -/
structure Snapshot where
  files : Files
  user : User
  script : Script

namespace Snapshot

/-- The text of a value that is one. -/
def textOf? : Value → Option String
  | .text s => some s
  | _ => none

/-- The items of a list. -/
def itemsOf : Value → List Value
  | .list items => items
  | _ => []

/-- The fields of an object. -/
def fieldsOf : Value → Fields
  | .object fields => fields
  | _ => []

/-- The files after a change, or as they were if it fails. -/
def orSame {ε : Type} (files : Files) (changed : Except ε Files) : Files :=
  match changed with
  | .ok files => files
  | .error _ => files

/-- Makes the directory that a path lies in. -/
def withParent (files : Files) (p : Path) : Files := orSame files (files.ensureDirectories p.parent)

/-- The kinds of faults that can be described. -/
def faultKinds : List FaultKind :=
  [.runtime, .operatingSystem, .value, .key, .lookup, .timeout, .tableOperation, .database,
    .selection, .directory, .directoryTimeout, .abort, .requestTimeout, .connectTimeout,
    .readTimeout, .connection, .certificate, .request]

/-- The kind of fault with a label. -/
def faultKindOf (label : String) : FaultKind :=
  (faultKinds.find? fun kind => kind.label = label).getD (.foreign label)

/-- The failure that an object with a type and a message describes. -/
def failureOf (v : Value) : Failure :=
  let fields := fieldsOf v
  let message := fields.getD "message"
  match fields.getD "type" with
  | .text "ApplicationNotFoundError" => .unknownApplication message
  | .text "KeyError" => .of .key (match message with
      | .null => ""
      | key => String.ofList key.inner)
  | .text label =>
    .of (faultKindOf label) (match message with
      | .null => ""
      | message => message.shown)
  | _ => .of .runtime message.shown

/-- The bytes that a value stands for: a text as such, and anything else as a document. -/
def bytesOf : Value → List UInt8
  | .text s => encode s.toList
  | .bytes b => b
  | v => encode (Json.write v).toList

/-- Adds rows to tables: first applications, then environments, then workloads. -/
def addRows (t : Tables) (rows : Fields) : Tables :=
  let each := fun key insert (t : Tables) =>
    (itemsOf (rows.getD key)).foldl (fun t row => insert t (fieldsOf row)) t
  each "workloads" Tables.insertWorkload
    (each "environments" Tables.insertEnvironment
      (each "applications" Tables.insertApplication t))

/-- One step of what the directory answers. -/
def stepOf (v : Value) : ScriptStep :=
  let fields := fieldsOf v
  match fields.get? "raise" with
  | some fault => .fail (failureOf fault)
  | none =>
    let status := match fields.get? "status" with
      | some (.int n) => n
      | _ => 200
    let contentType := match fields.get? "content_type" with
      | none => some "application/json"
      | some v => textOf? v
    .reply status contentType (textOf? (fields.getD "location"))
      (match fields.get? "body" with
        | some v => bytesOf v
        | none => [])

/-- What the directory answers. -/
def scriptOf (steps : Value) : Script :=
  ⟨(itemsOf steps).map stepOf, []⟩

/-- The files that a description gives, in a directory. -/
def filesOf (directory : Path) (fields : Fields) : Files :=
  let there := fun name => directory.join (.ofText name)
  let files : Files := orSame .empty (Tree.ensureDirectories .empty directory)
  let files := (itemsOf (fields.getD "dirs")).foldl (fun files v =>
    match textOf? v with
    | some name => orSame files (files.ensureDirectories (there name))
    | none => files) files
  let files := (fieldsOf (fields.getD "files")).foldl (fun files (name, v) =>
    let files := withParent files (there name)
    orSame files (files.writeFile (there name) (.ofBytes (bytesOf v)))) files
  let files := (fieldsOf (fields.getD "links")).foldl (fun files (name, v) =>
    let files := withParent files (there name)
    orSame files (files.makeLink (there name) ((textOf? v).getD ""))) files
  let files := (fieldsOf (fields.getD "databases")).foldl (fun files (name, v) =>
    let files := withParent files (there name)
    orSame files (files.writeFile (there name)
      (.database ⟨false, addRows .empty (fieldsOf v)⟩))) files
  let here := there ((textOf? (fields.getD "cwd")).getD ".")
  let files := orSame files (files.ensureDirectories here)
  orSame files (files.enter here)

/-- Reads a description of what lies in a directory, in which the home directory is `home`. -/
def ofFields (directory : Path) (fields : Fields) : Snapshot where
  files := filesOf directory fields
  user := ⟨(directory.child "home").text, [("root", "/root")], textOf? (fields.getD "env_config")⟩
  script := scriptOf (fields.getD "responses")

end Snapshot

end AppReport
