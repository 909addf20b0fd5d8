import AppReport.Value.Shown

/-!
# Stored records

The records of the configuration store: applications, their environments and their workloads.
A record takes its fields from a row by name; what a row lacks has a default, and the values are
not checked further.
-/

namespace AppReport

/-! ### Applications -/

/-- The name of the kind of a value, as messages about missing attributes give it. -/
def Value.kindName : Value → String
  | .null => "NoneType"
  | .bool _ => "bool"
  | .int _ => "int"
  | .float _ => "float"
  | .text _ => "str"
  | .bytes _ => "bytes"
  | .list _ => "list"
  | .object _ => "dict"

/-- The fields of an object; anything else has no fields to get. -/
def Value.fieldsOrFail (v : Value) : Except Failure Fields :=
  match v with
  | .object fields => .ok fields
  | v => .error (.of .missingAttribute
      ("'" ++ v.kindName ++ "' object has no attribute 'get'"))

/-- The texts of the fields of an object. -/
def Fields.shown : Fields → Except Failure (List (String × String))
  | [] => .ok []
  | (k, v) :: rest =>
    match v.shown? with
    | .error e => .error e
    | .ok s =>
      match Fields.shown rest with
      | .error e => .error e
      | .ok tags => .ok ((k, s) :: tags)

/-- The tags of an application: the fields of an object, given as such or as the text of a JSON
document. Any other value, and a text that breaks the grammar, holds no tags. -/
def Value.tags (v : Value) : Except Failure (List (String × String)) :=
  match v with
  | .object fields => Fields.shown fields
  | .text s =>
    if s = "" then .ok []
    else
      match Json.read s with
      | .ok (.object fields) => Fields.shown fields
      | .ok _ => .ok []
      | .error (.malformed ..) => .ok []
      | .error e => .error (.ofReadError e)
  | _ => .ok []

/-- A named grouping of environments, workloads and pipelines. -/
structure Application where
  name : Value
  accountId : Value
  domain : Value
  version : Value
  tags : List (String × String)

/-- The application of a row. -/
def Application.ofRow (row : Fields) : Except Failure Application :=
  match (row.getD "tags").tags with
  | .error e => .error e
  | .ok tags => .ok {
      name := (row.get? "name").getD (.text "")
      accountId := (row.getD "account_id").orEmpty
      domain := (row.getD "domain").orEmpty
      version := row.getD "version"
      tags }

/-- A deployment target of an application. Besides the account, the region and the production flag
it has the roles and the registry that deployments use. -/
structure Environment where
  app : Value
  name : Value
  accountId : Value
  region : Value
  prod : Bool
  registryUrl : Value
  executionRole : Value
  managerRole : Value

/-- The environment of a row. -/
def Environment.ofRow (row : Fields) : Environment where
  app := (row.get? "app").getD (.text "")
  name := (row.get? "name").getD (.text "")
  accountId := (row.getD "account_id").orEmpty
  region := (row.getD "region").orEmpty
  prod := (row.getD "prod").isSet
  registryUrl := row.getD "registry_url"
  executionRole := row.getD "execution_role_arn"
  managerRole := row.getD "manager_role_arn"

/-- A deployable unit of an application: a service or a job. -/
structure Workload where
  app : Value
  name : Value
  type : Value

/-- The workload of a row. -/
def Workload.ofRow (row : Fields) : Workload where
  app := (row.get? "app").getD (.text "")
  name := (row.get? "name").getD (.text "")
  type := (row.getD "type").orEmpty

/-! ### Records as values -/

/-- All fields of an application. -/
def Application.toFields (a : Application) : Fields :=
  [("name", a.name), ("account_id", a.accountId), ("domain", a.domain), ("version", a.version),
    ("tags", .list (a.tags.map fun (k, s) => .list [.text k, .text s]))]

/-- All fields of an environment. -/
def Environment.toFields (e : Environment) : Fields :=
  [("app", e.app), ("name", e.name), ("account_id", e.accountId), ("region", e.region),
    ("prod", .bool e.prod), ("registry_url", e.registryUrl),
    ("execution_role_arn", e.executionRole), ("manager_role_arn", e.managerRole)]

/-- All fields of a workload. -/
def Workload.toFields (w : Workload) : Fields :=
  [("app", w.app), ("name", w.name), ("type", w.type)]

end AppReport
