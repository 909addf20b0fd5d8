import AppReport.Pipeline

/-!
# Descriptions of applications

A description is what a report shows of an application: its name and address, and views of its
environments, its services and its pipelines. A view has a fixed set of fields, so nothing else of
a stored record can get into a report.
-/

namespace AppReport

/-! ### Views -/

/-- What a report shows of an environment. -/
structure EnvironmentView where
  name : String
  accountId : String
  region : String
  prod : Bool
  deriving DecidableEq

namespace EnvironmentView

/-- The name of the view in messages. -/
def model : String := "EnvironmentView"

/-- The account, `accountID` outside. -/
def accountField : FieldName := ⟨"account_id", "accountID"⟩

/-- All fields in order. -/
def knownFields : List FieldName :=
  [.plain "name", accountField, .plain "region", .plain "prod"]

/-- Checks the view of an environment. -/
def check (v : Value) : Checked EnvironmentView :=
  match v with
  | .object fields =>
    let name := (FieldName.plain "name").check fields none Checked.text
    let account := accountField.check fields none Checked.text
    let region := (FieldName.plain "region").check fields none Checked.text
    let prod := (FieldName.plain "prod").check fields (some false) Checked.bool
    let rest := Fields.forbidUnknown fields knownFields
    match name.both (account.both (region.both (prod.both rest))) with
    | .ok (name, accountId, region, prod, ()) => .ok ⟨name, accountId, region, prod⟩
    | .error issues => .error issues
  | _ => .fail (.notRecord model)

/-- The view that a value is. -/
def ofValue (v : Value) : Except Failure EnvironmentView :=
  match check v with
  | .ok view => .ok view
  | .error issues => .error (.invalid model issues)

/-- The view of a stored environment. -/
def ofRecord (e : Environment) : Except Failure EnvironmentView :=
  ofValue (.object [("name", e.name), ("account_id", e.accountId), ("region", e.region),
    ("prod", .bool e.prod)])

/-- The view as a document holds it. -/
def document (view : EnvironmentView) : Value :=
  .object [("name", .text view.name), (accountField.external, .text view.accountId),
    ("region", .text view.region), ("prod", .bool view.prod)]

end EnvironmentView

/-- What a report shows of a workload. -/
structure WorkloadView where
  name : String
  type : String
  deriving DecidableEq

namespace WorkloadView

/-- The name of the view in messages. -/
def model : String := "WorkloadView"

/-- All fields in order. -/
def knownFields : List FieldName := [.plain "name", .plain "type"]

/-- Checks the view of a workload. -/
def check (v : Value) : Checked WorkloadView :=
  match v with
  | .object fields =>
    let name := (FieldName.plain "name").check fields none Checked.text
    let type := (FieldName.plain "type").check fields none Checked.text
    let rest := Fields.forbidUnknown fields knownFields
    match name.both (type.both rest) with
    | .ok (name, type, ()) => .ok ⟨name, type⟩
    | .error issues => .error issues
  | _ => .fail (.notRecord model)

/-- The view that a value is. -/
def ofValue (v : Value) : Except Failure WorkloadView :=
  match check v with
  | .ok view => .ok view
  | .error issues => .error (.invalid model issues)

/-- The view of a stored workload. -/
def ofRecord (w : Workload) : Except Failure WorkloadView :=
  ofValue (.object [("name", w.name), ("type", w.type)])

/-- The view as a document holds it. -/
def document (view : WorkloadView) : Value :=
  .object [("name", .text view.name), ("type", .text view.type)]

end WorkloadView

/-! ### Descriptions -/

/-- What a report shows of an application. -/
structure Description where
  name : String
  /-- The domain of the application; empty when none is set. -/
  uri : String
  environments : List EnvironmentView
  services : List WorkloadView
  pipelines : List Pipeline

/-- A pipeline of a description: a checked record, or a value that is still to be checked. -/
inductive PipelineItem where
  | record (p : Pipeline)
  | raw (v : Value)

/-- Checks a pipeline of a description. -/
def PipelineItem.check : PipelineItem → Checked Pipeline
  | record p => .ok p
  | raw v => Pipeline.check v

namespace Description

/-- The name of the description in messages. -/
def model : String := "ApplicationDescription"

/-- The services; a description also knows them as workloads. -/
def servicesField : FieldName := ⟨"workloads", "services"⟩

/-- All fields in order. -/
def knownFields : List FieldName :=
  [.plain "name", .plain "uri", .plain "environments", servicesField, .plain "pipelines"]

/-- Checks a description. -/
def check (v : Value) : Checked Description :=
  match v with
  | .object fields =>
    let name := (FieldName.plain "name").check fields none Checked.text
    let uri := (FieldName.plain "uri").check fields (some "") Checked.text
    let environments :=
      (FieldName.plain "environments").check fields (some []) (Checked.list EnvironmentView.check)
    let services := servicesField.check fields (some []) (Checked.list WorkloadView.check)
    let pipelines :=
      (FieldName.plain "pipelines").check fields (some []) (Checked.list Pipeline.check)
    let rest := Fields.forbidUnknown fields knownFields
    match name.both (uri.both (environments.both (services.both (pipelines.both rest)))) with
    | .ok (name, uri, environments, services, pipelines, ()) =>
      .ok ⟨name, uri, environments, services, pipelines⟩
    | .error issues => .error issues
  | _ => .fail (.notRecord model)

/-- The description that a value is. -/
def ofValue (v : Value) : Except Failure Description :=
  match check v with
  | .ok d => .ok d
  | .error issues => .error (.invalid model issues)

/-- The description with given views; the name, the address and the pipelines are checked. -/
def assemble (name uri : Value) (environments : List EnvironmentView)
    (services : List WorkloadView) (pipelines : List PipelineItem) : Except Failure Description :=
  let name := (Checked.text name).inside (.key "name")
  let uri := (Checked.text uri).inside (.key "uri")
  let pipelines := (Checked.items PipelineItem.check pipelines).inside (.key "pipelines")
  match name.both (uri.both pipelines) with
  | .ok (name, uri, pipelines) => .ok ⟨name, uri, environments, services, pipelines⟩
  | .error issues => .error (.invalid model issues)

/-- The description as a document. -/
def document (d : Description) : Except Failure Value :=
  match mapUntilFailure Pipeline.document d.pipelines with
  | .error e => .error e
  | .ok pipelines => .ok (.object [
      ("name", .text d.name),
      ("uri", .text d.uri),
      ("environments", .list (d.environments.map EnvironmentView.document)),
      (servicesField.external, .list (d.services.map WorkloadView.document)),
      ("pipelines", .list pipelines)])

end Description

end AppReport
