import AppReport.Store.Row

/-!
# Rows that can be read

A row can be read unless a column that is asked for holds a text that is not UTF-8
(`ApplicationRow.read_eq_ok_iff` and its like for environments and workloads). Then it gives its
fields, and rows are read together exactly if each of them can be read on its own
(`readAll_eq_ok_iff`). Every failure to read a row is one of the tables
(`kind?_of_firstMalformed?`).
-/

namespace AppReport

/-! ### Columns -/

/-- What a column of texts holds can be read unless it is a text that is not UTF-8. -/
def Stored.IsReadable : Stored → Prop
  | malformed .. => False
  | _ => True

/-- What a column of numbers holds can be read unless it is a text that is not UTF-8. -/
def Cell.IsReadable : Cell → Prop
  | malformed .. => False
  | _ => True

/-- A column that may hold nothing can be read unless it holds a text that is not UTF-8. -/
def IsReadableColumn (c : Option Stored) : Prop := ∀ s ∈ c, s.IsReadable

/-- What has no malformed bytes can be read. -/
theorem Stored.malformed?_eq_none_iff {s : Stored} : s.malformed? = none ↔ s.IsReadable := by
  cases s <;> simp [malformed?, IsReadable]

theorem Cell.malformed?_eq_none_iff {c : Cell} : c.malformed? = none ↔ c.IsReadable := by
  cases c <;> simp [malformed?, IsReadable]

theorem bind_malformed?_eq_none_iff {c : Option Stored} :
    c.bind Stored.malformed? = none ↔ IsReadableColumn c := by
  cases c with
  | none => simp [IsReadableColumn]
  | some s => simp [IsReadableColumn, Stored.malformed?_eq_none_iff]

/-- There is no failure to read a row if there is none to read a column of it. -/
theorem firstMalformed?_eq_none_iff {columns : List (String × Option (List UInt8))} :
    firstMalformed? columns = none ↔ ∀ column ∈ columns, column.2 = none := by
  rw [firstMalformed?, List.findSome?_eq_none_iff]
  exact forall₂_congr fun column _ => Option.map_eq_none_iff

/-- A byte that begins no character. -/
theorem decode?_ff : Text.decode? [0xff] = none := rfl

/-! ### Rows -/

/-- The row of an application each column of which can be read. -/
structure ApplicationRow.IsReadable (r : ApplicationRow) : Prop where
  name : r.name.IsReadable
  accountId : IsReadableColumn r.accountId
  domain : IsReadableColumn r.domain
  version : IsReadableColumn r.version
  tags : IsReadableColumn r.tags

/-- The row of an environment each column of which can be read. -/
structure EnvironmentRow.IsReadable (r : EnvironmentRow) : Prop where
  name : r.name.IsReadable
  accountId : IsReadableColumn r.accountId
  region : IsReadableColumn r.region
  prod : r.prod.IsReadable
  registryUrl : IsReadableColumn r.registryUrl
  executionRole : IsReadableColumn r.executionRole
  managerRole : IsReadableColumn r.managerRole

/-- The row of a workload each column of which can be read. -/
structure WorkloadRow.IsReadable (r : WorkloadRow) : Prop where
  name : r.name.IsReadable
  type : IsReadableColumn r.type

theorem ApplicationRow.malformed?_eq_none_iff {r : ApplicationRow} :
    r.malformed? = none ↔ r.IsReadable := by
  rw [ApplicationRow.malformed?, firstMalformed?_eq_none_iff]
  simp only [List.forall_mem_cons, Stored.malformed?_eq_none_iff, bind_malformed?_eq_none_iff]
  constructor
  · rintro ⟨hname, haccount, hdomain, hversion, htags, -⟩
    exact ⟨hname, haccount, hdomain, hversion, htags⟩
  · intro h
    exact ⟨h.name, h.accountId, h.domain, h.version, h.tags, List.forall_mem_nil _⟩

/-- An environment is read with the name of its application, which must be readable too. -/
theorem EnvironmentRow.malformed?_eq_none_iff {app : Stored} {r : EnvironmentRow} :
    r.malformed? app = none ↔ app.IsReadable ∧ r.IsReadable := by
  rw [EnvironmentRow.malformed?, firstMalformed?_eq_none_iff]
  simp only [List.forall_mem_cons, Stored.malformed?_eq_none_iff, Cell.malformed?_eq_none_iff,
    bind_malformed?_eq_none_iff]
  constructor
  · rintro ⟨happ, hname, haccount, hregion, hprod, hregistry, hexecution, hmanager, -⟩
    exact ⟨happ, hname, haccount, hregion, hprod, hregistry, hexecution, hmanager⟩
  · rintro ⟨happ, h⟩
    exact ⟨happ, h.name, h.accountId, h.region, h.prod, h.registryUrl, h.executionRole,
      h.managerRole, List.forall_mem_nil _⟩

theorem WorkloadRow.malformed?_eq_none_iff {app : Stored} {r : WorkloadRow} :
    r.malformed? app = none ↔ app.IsReadable ∧ r.IsReadable := by
  rw [WorkloadRow.malformed?, firstMalformed?_eq_none_iff]
  simp only [List.forall_mem_cons, Stored.malformed?_eq_none_iff, bind_malformed?_eq_none_iff]
  constructor
  · rintro ⟨happ, hname, htype, -⟩
    exact ⟨happ, hname, htype⟩
  · rintro ⟨happ, h⟩
    exact ⟨happ, h.name, h.type, List.forall_mem_nil _⟩

/-! ### Reading -/

/-- A row gives its fields exactly if none of them is malformed. -/
theorem readRow_eq_ok_iff {malformed? : Option Failure} {fields found : Fields} :
    readRow malformed? fields = .ok found ↔ malformed? = none ∧ found = fields := by
  cases malformed? <;> simp [readRow, eq_comm]

/-- A row is read as its fields, if each of its columns can be read. -/
theorem ApplicationRow.read_eq_ok_iff {r : ApplicationRow} {found : Fields} :
    r.read = .ok found ↔ r.IsReadable ∧ found = r.toFields := by
  rw [ApplicationRow.read, readRow_eq_ok_iff, malformed?_eq_none_iff]

/-- A row is read as its fields, if each of its columns and the name of its application can be
read. -/
theorem EnvironmentRow.read_eq_ok_iff {app : Stored} {r : EnvironmentRow} {found : Fields} :
    r.read app = .ok found ↔ (app.IsReadable ∧ r.IsReadable) ∧ found = r.toFields app := by
  rw [EnvironmentRow.read, readRow_eq_ok_iff, malformed?_eq_none_iff]

/-- A row is read as its fields, if each of its columns and the name of its application can be
read. -/
theorem WorkloadRow.read_eq_ok_iff {app : Stored} {r : WorkloadRow} {found : Fields} :
    r.read app = .ok found ↔ (app.IsReadable ∧ r.IsReadable) ∧ found = r.toFields app := by
  rw [WorkloadRow.read, readRow_eq_ok_iff, malformed?_eq_none_iff]

/-- Rows are read together if each of them can be read. -/
theorem readAll_eq_ok_iff {α : Type} {malformed? : α → Option Failure} {fields : α → Fields}
    {rows : List α} {found : List Fields} :
    mapUntilFailure (fun r => readRow (malformed? r) (fields r)) rows = .ok found ↔
      (∀ r ∈ rows, malformed? r = none) ∧ found = rows.map fields := by
  rw [mapUntilFailure_eq_ok_iff]
  induction rows generalizing found with
  | nil => cases found <;> simp
  | cons r rows ih =>
    cases found with
    | nil => simp
    | cons first found =>
      rw [List.map_cons, List.map_cons, List.cons_eq_cons, ih, readRow_eq_ok_iff,
        List.forall_mem_cons, List.map_cons, List.cons_eq_cons]
      exact and_and_and_comm

/-- Rows are read together exactly if each of them can be. -/
theorem ApplicationRow.readAll_eq_ok_iff {rows : List ApplicationRow} {found : List Fields} :
    mapUntilFailure ApplicationRow.read rows = .ok found ↔
      (∀ r ∈ rows, r.IsReadable) ∧ found = rows.map ApplicationRow.toFields := by
  simp only [← malformed?_eq_none_iff]
  exact AppReport.readAll_eq_ok_iff

theorem EnvironmentRow.readAll_eq_ok_iff {app : Stored} {rows : List EnvironmentRow}
    {found : List Fields} :
    mapUntilFailure (EnvironmentRow.read app) rows = .ok found ↔
      (∀ r ∈ rows, app.IsReadable ∧ r.IsReadable) ∧ found = rows.map (toFields app) := by
  simp only [← malformed?_eq_none_iff]
  exact AppReport.readAll_eq_ok_iff

theorem WorkloadRow.readAll_eq_ok_iff {app : Stored} {rows : List WorkloadRow}
    {found : List Fields} :
    mapUntilFailure (WorkloadRow.read app) rows = .ok found ↔
      (∀ r ∈ rows, app.IsReadable ∧ r.IsReadable) ∧ found = rows.map (toFields app) := by
  simp only [← malformed?_eq_none_iff]
  exact AppReport.readAll_eq_ok_iff

/-- A column that cannot be read is a failure of the tables. -/
theorem kind?_of_firstMalformed? {columns : List (String × Option (List UInt8))} {f : Failure}
    (h : firstMalformed? columns = some f) : f.kind? = some .tableOperation := by
  obtain ⟨⟨column, b?⟩, -, hflaw⟩ := List.exists_of_findSome?_eq_some h
  obtain ⟨b, -, rfl⟩ := Option.map_eq_some_iff.mp hflaw
  rfl

/-- A row fails with the first of its columns that cannot be read. -/
theorem kind?_of_readRow {columns : List (String × Option (List UInt8))} {fields : Fields}
    {f : Failure} (h : readRow (firstMalformed? columns) fields = .error f) :
    f.kind? = some .tableOperation := by
  cases hflaw : firstMalformed? columns with
  | none =>
    rw [hflaw] at h
    cases h
  | some flaw =>
    rw [hflaw] at h
    cases h
    exact kind?_of_firstMalformed? hflaw

end AppReport
