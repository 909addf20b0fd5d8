import AppReport.Store.Row

/-!
# The tables of the configuration store

`Tables` holds the rows in the order in which they were put in. No two applications have the same
id or the same name, and a row keeps its id for good: the id of a deleted row is not given out
again. Listings are in the order of names for applications and of ids for what belongs to them.
-/

namespace AppReport

/-- A table: its rows and the greatest id that a row has had. -/
structure Table (α : Type) where
  rows : List α
  lastId : Int

namespace Table

variable {α : Type}

/-- The table without rows. -/
def empty : Table α := ⟨[], 0⟩

/-- Adds a row with an id. -/
def add (t : Table α) (id : Int) (row : α) : Table α := ⟨t.rows ++ [row], max t.lastId id⟩

/-- Keeps the rows of a kind. -/
def keep (t : Table α) (p : α → Bool) : Table α := { t with rows := t.rows.filter p }

end Table

/-- The tables of a store. -/
structure Tables where
  applications : Table ApplicationRow
  environments : Table EnvironmentRow
  workloads : Table WorkloadRow
  ids_nodup : (applications.rows.map ApplicationRow.id).Nodup
  names_nodup : (applications.rows.map ApplicationRow.name).Nodup

namespace Tables

/-- The tables without rows. -/
def empty : Tables := ⟨.empty, .empty, .empty, List.nodup_nil, List.nodup_nil⟩

/-! ### Reading -/

/-- The row of the application with a name. -/
def application? (t : Tables) (name : Stored) : Option ApplicationRow :=
  t.applications.rows.find? fun r => r.name = name

/-- The rows of applications in the order of their names. -/
def applicationRows (t : Tables) : List ApplicationRow :=
  t.applications.rows.mergeSort fun r s => r.name.le s.name

/-- The rows of environments of the application with a name, in the order of their ids. -/
def environmentRows (t : Tables) (name : Stored) : List EnvironmentRow :=
  match t.application? name with
  | none => []
  | some app =>
    (t.environments.rows.filter fun r => r.app = app.id).mergeSort fun r s => r.id ≤ s.id

/-- The rows of workloads of the application with a name, in the order of their ids. -/
def workloadRows (t : Tables) (name : Stored) : List WorkloadRow :=
  match t.application? name with
  | none => []
  | some app => (t.workloads.rows.filter fun r => r.app = app.id).mergeSort fun r s => r.id ≤ s.id

/-! ### Changing -/

/-- Adds the row of an application, unless its id or its name is there. -/
def addApplication (t : Tables) (row : ApplicationRow) : Tables :=
  if h : row.id ∉ t.applications.rows.map ApplicationRow.id ∧
      row.name ∉ t.applications.rows.map ApplicationRow.name then
    { t with
      applications := t.applications.add row.id row
      ids_nodup := by
        simpa [Table.add, List.nodup_append, t.ids_nodup] using
          fun r hr he => h.1 (List.mem_map.2 ⟨r, hr, he⟩)
      names_nodup := by
        simpa [Table.add, List.nodup_append, t.names_nodup] using
          fun r hr he => h.2 (List.mem_map.2 ⟨r, hr, he⟩) }
  else t

/-- Adds the row of an environment. -/
def addEnvironment (t : Tables) (row : EnvironmentRow) : Tables :=
  { t with environments := t.environments.add row.id row }

/-- Adds the row of a workload. -/
def addWorkload (t : Tables) (row : WorkloadRow) : Tables :=
  { t with workloads := t.workloads.add row.id row }

/-- Takes away the application with a name, and all that belongs to it. -/
def deleteApplication (t : Tables) (name : Stored) : Tables :=
  match t.application? name with
  | none => t
  | some app => {
      applications := t.applications.keep fun r => r.id ≠ app.id
      environments := t.environments.keep fun r => r.app ≠ app.id
      workloads := t.workloads.keep fun r => r.app ≠ app.id
      ids_nodup := t.ids_nodup.sublist (List.filter_sublist.map _)
      names_nodup := t.names_nodup.sublist (List.filter_sublist.map _) }

/-- The id that the fields of a row give, or the next one of its table. -/
def idFor {α : Type} (t : Table α) (fields : Fields) : Int :=
  match fields.get? "id" with
  | some (.int n) => n
  | _ => t.lastId + 1

/-- The id of the application that the fields of a row name or give. -/
def ownerFor (t : Tables) (fields : Fields) : Option Int :=
  match (Stored.ofValue? (fields.getD "app")).bind t.application? with
  | some app => some app.id
  | none =>
    match fields.get? "app_id" with
    | some (.int n) => some n
    | _ => none

/-- Adds the application that fields give. -/
def insertApplication (t : Tables) (fields : Fields) : Tables :=
  match ApplicationRow.ofFields? (idFor t.applications fields) fields with
  | some row => t.addApplication row
  | none => t

/-- Adds the environment that fields give. -/
def insertEnvironment (t : Tables) (fields : Fields) : Tables :=
  match (t.ownerFor fields).bind fun app =>
    EnvironmentRow.ofFields? (idFor t.environments fields) app fields with
  | some row => t.addEnvironment row
  | none => t

/-- Adds the workload that fields give. -/
def insertWorkload (t : Tables) (fields : Fields) : Tables :=
  match (t.ownerFor fields).bind fun app =>
    WorkloadRow.ofFields? (idFor t.workloads fields) app fields with
  | some row => t.addWorkload row
  | none => t

end Tables

end AppReport
