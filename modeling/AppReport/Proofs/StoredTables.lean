import AppReport.Proofs.Growth
import AppReport.Proofs.Readable
import AppReport.Store.ConfigStore

/-!
# The tables behind a store

A read of the store may make directories, create tables that are not there and turn a database to
writing ahead. None of this changes the rows: while the path of a store leads to a database with
certain tables (`Tree.HoldsTables`), every read answers from these tables, and they are still there
afterwards, whether the read succeeds or not (`ConfigStore.tables_spec`). The only other tables that
a store answers from are those of a database in memory, which are empty.
-/

namespace AppReport

namespace Tree

variable {files files' : Files} {p : Path} {place : Place} {t : Tables}

/-- The file at a path holds a database with certain tables. -/
def HoldsTables (files : Files) (p : Path) (t : Tables) : Prop :=
  ∃ content d, files.content p = .ok content ∧ content.database? = some d ∧ d.tables = t

/-- A path leads to a place where a file holds a database with certain tables. -/
def HoldsTablesAt (files : Files) (p : Path) (place : Place) (t : Tables) : Prop :=
  ∃ content d, files.find p = .ok (place, .file content) ∧ content.database? = some d ∧
    d.tables = t

theorem holdsTables_iff : HoldsTables files p t ↔ ∃ place, HoldsTablesAt files p place t := by
  constructor
  · rintro ⟨content, d, hcontent, hd, ht⟩
    rw [Tree.content] at hcontent
    split at hcontent
    · rename_i place _ hfind
      cases hcontent
      exact ⟨place, content, d, hfind, hd, ht⟩
    · cases hcontent
    · cases hcontent
  · rintro ⟨place, content, d, hfind, hd, ht⟩
    exact ⟨content, d, by rw [Tree.content, hfind], hd, ht⟩

theorem HoldsTablesAt.extends (h : HoldsTablesAt files p place t)
    (hextends : Extends files files') : HoldsTablesAt files' p place t := by
  obtain ⟨content, d, hfind, hd, ht⟩ := h
  exact ⟨content, d, hextends.find hfind, hd, ht⟩

end Tree

open AppReport.Tree

/-! ### Connections -/

namespace Connection

variable {files files' : Files} {p : Path} {place : Place} {t : Tables} {c : Connection}

theorem database_of_holds (h : HoldsTablesAt files p place t) (hc : c.medium = .file place) :
    ∃ d, c.database files = .ok d ∧ d.tables = t := by
  obtain ⟨content, d, hfind, hd, ht⟩ := h
  refine ⟨d, ?_, ht⟩
  rw [database, hc]
  simp only [at?_of_find hfind, hd]

theorem holds_putDatabase (h : HoldsTablesAt files p place t) (hc : c.medium = .file place)
    {d : Database} (hd : d.tables = t) : HoldsTablesAt (c.putDatabase files d) p place t := by
  obtain ⟨content, old, hfind, -, -⟩ := h
  refine ⟨.database d, d, ?_, rfl, hd⟩
  rw [putDatabase, hc]
  exact find_put_file hfind

theorem tables_spec (h : HoldsTablesAt files p place t) (hc : c.medium = .file place) :
    (c.tables files).1 = .ok t ∧ HoldsTablesAt (c.tables files).2 p place t := by
  obtain ⟨d, hdatabase, ht⟩ := database_of_holds h hc
  rw [tables, hdatabase]
  exact ⟨congrArg Except.ok ht, holds_putDatabase h hc ht⟩

theorem holds_turnToWriteAhead (h : HoldsTablesAt files p place t) (hc : c.medium = .file place)
    (hturn : c.turnToWriteAhead files = .ok files') : HoldsTablesAt files' p place t := by
  obtain ⟨d, hdatabase, ht⟩ := database_of_holds h hc
  rw [turnToWriteAhead, hdatabase] at hturn
  cases hturn
  exact holds_putDatabase h hc ht

/-- Setting the switches of a connection leaves the connection at its place and keeps the tables. -/
theorem apply_spec (h : HoldsTablesAt files p place t) (hc : c.medium = .file place)
    (writeAhead foreignKeys : Bool) (milliseconds : Option Int) :
    HoldsTablesAt (c.apply files writeAhead foreignKeys milliseconds).2 p place t ∧
      ∀ c', (c.apply files writeAhead foreignKeys milliseconds).1 = .ok c' →
        c'.medium = .file place := by
  rw [apply]
  split
  · exact ⟨h, nofun⟩
  · rename_i files' hturned
    refine ⟨?_, ?_⟩
    · split at hturned
      · exact holds_turnToWriteAhead h hc hturned
      · cases hturned
        exact h
    · rintro c' ⟨⟩
      exact hc

/-- A file that is there is opened where it is. -/
theorem openAt_of_holds (h : HoldsTablesAt files p place t) (hp : p.text ≠ memoryName) :
    openAt files p = (.ok (.file place), files) := by
  obtain ⟨content, d, hfind, -, -⟩ := h
  rw [openAt, if_neg hp, find_eq_ok_iff.mp hfind]

theorem openWith_spec (h : HoldsTablesAt files p place t) (hp : p.text ≠ memoryName)
    (switches : Switches) :
    HoldsTablesAt (openWith files p switches).2 p place t ∧
      ∀ c, (openWith files p switches).1 = .ok c → c.medium = .file place := by
  rw [openWith]
  split
  · exact ⟨h, nofun⟩
  · rw [openAt_of_holds h hp]
    dsimp only
    split
    · exact ⟨h, nofun⟩
    · exact apply_spec h rfl _ _ _

theorem holds_prepare (h : HoldsTablesAt files p place t) {mustExist : Bool}
    (hprepare : prepare files p mustExist = .ok files') : HoldsTablesAt files' p place t := by
  rw [prepare] at hprepare
  split at hprepare
  · -- the file must be there, and nothing is made
    split at hprepare
    · cases hprepare
    · cases hprepare
      exact h
    · cases hprepare
  · exact h.extends (.of_ensureDirectories hprepare)

/-- Opening a database at a path that leads to one opens this one and keeps its tables. -/
theorem connect_spec (h : HoldsTablesAt files p place t) (hp : p.text ≠ memoryName) (user : User)
    (options : OpenOptions) :
    HoldsTablesAt (connect user (some p) options files).2 p place t ∧
      ∀ c, (connect user (some p) options files).1 = .ok c → c.medium = .file place := by
  rw [connect, pathOf]
  dsimp only
  split
  · exact ⟨h, nofun⟩
  · rename_i files' hprepare
    have hprepared := holds_prepare h hprepare
    split
    · exact ⟨hprepared, nofun⟩
    · exact openWith_spec hprepared hp _

/-- The switches of a database in memory leave it in memory. -/
theorem medium_apply (files : Files) (c : Connection) (writeAhead foreignKeys : Bool)
    (milliseconds : Option Int) :
    ∀ c', (c.apply files writeAhead foreignKeys milliseconds).1 = .ok c' →
      c'.medium = c.medium := by
  rw [apply]
  split
  · exact nofun
  · rintro c' ⟨⟩
    rfl

/-- The path that stands for memory opens a database there, whatever the files are. -/
theorem connect_memory (hp : p.text = memoryName) (user : User) (options : OpenOptions)
    (files : Files) :
    ∀ c, (connect user (some p) options files).1 = .ok c → c.medium = .memory := by
  rw [connect, pathOf]
  dsimp only
  split
  · exact nofun
  split
  · exact nofun
  rw [openWith]
  split
  · exact nofun
  rw [openAt, if_pos hp]
  dsimp only
  split
  · exact nofun
  · exact medium_apply _ _ _ _ _

end Connection

/-! ### Reads -/

namespace ConfigStore

variable {store : ConfigStore} {files : Files} {p : Path} {t : Tables}

/-- A read of the store gives the tables that its path leads to, and keeps them. -/
theorem tables_spec (hpath : store.path = some p) (hp : p.text ≠ Connection.memoryName)
    (h : HoldsTables files p t) :
    HoldsTables (store.tables files).2 p t ∧ ∀ t', (store.tables files).1 = .ok t' → t' = t := by
  obtain ⟨place, hat⟩ := holdsTables_iff.mp h
  obtain ⟨hkept, hmedium⟩ := Connection.connect_spec hat hp store.user store.options
  rw [tables, hpath]
  rcases hconnect : Connection.connect store.user (some p) store.options files with ⟨e | c, files'⟩
  · rw [hconnect] at hkept
    exact ⟨holdsTables_iff.mpr ⟨place, hkept⟩, nofun⟩
  · rw [hconnect] at hkept hmedium
    obtain ⟨htables, hkept'⟩ := Connection.tables_spec hkept (hmedium c rfl)
    refine ⟨holdsTables_iff.mpr ⟨place, hkept'⟩, fun t' ht' => ?_⟩
    exact (Except.ok.inj (htables.symm.trans ht')).symm

/-- A store in memory is empty. -/
theorem tables_memory (hpath : store.path = some p) (hp : p.text = Connection.memoryName)
    (files : Files) : ∀ t', (store.tables files).1 = .ok t' → t' = .empty := by
  intro t' ht'
  have hmedium := Connection.connect_memory hp store.user store.options files
  rw [tables, hpath] at ht'
  rcases hconnect : Connection.connect store.user (some p) store.options files with ⟨e | c, files'⟩
  · rw [hconnect] at ht'
    cases ht'
  · rw [hconnect] at ht' hmedium
    dsimp only at ht'
    rw [Connection.tables, Connection.database, hmedium c rfl] at ht'
    cases ht'
    rfl

/-- A search of the store for a text reads the tables that its path leads to, and keeps them. -/
theorem search_spec {α : Type} (hpath : store.path = some p)
    (hp : p.text ≠ Connection.memoryName) (h : HoldsTables files p t) (n : String)
    (read : Tables → Option Stored → α) :
    HoldsTables (store.search (.text n) read files).2 p t ∧
      ∀ a, (store.search (.text n) read files).1 = .ok a → a = read t (some (.text n)) := by
  obtain ⟨hkept, htables⟩ := tables_spec hpath hp h
  rw [search]
  rcases hread : store.tables files with ⟨e | t', files'⟩
  · rw [hread] at hkept
    exact ⟨hkept, nofun⟩
  · rw [hread] at hkept htables
    obtain rfl := htables t' rfl
    refine ⟨hkept, fun a ha => ?_⟩
    cases ha
    rfl

/-- A row gives an application if it can be read, and its fields are those of one. -/
theorem read_bind_ofRow_eq_ok_iff {row : ApplicationRow} {app : Application} :
    row.read.bind Application.ofRow = .ok app ↔
      row.IsReadable ∧ Application.ofRow row.toFields = .ok app := by
  cases hread : row.read with
  | ok fields =>
    obtain ⟨hreadable, rfl⟩ := ApplicationRow.read_eq_ok_iff.mp hread
    simp [Except.bind, hreadable]
  | error f =>
    have hnot : ¬ row.IsReadable := by
      intro hreadable
      rw [ApplicationRow.read_eq_ok_iff.mpr ⟨hreadable, rfl⟩] at hread
      cases hread
    simp [Except.bind, hnot]

/-- The application with a name is made of its row. -/
theorem application_spec (hpath : store.path = some p) (hp : p.text ≠ Connection.memoryName)
    (h : HoldsTables files p t) (n : String) :
    HoldsTables (store.application (.text n) files).2 p t ∧
      ∀ app, (store.application (.text n) files).1 = .ok app →
        ∃ row, t.application? (.text n) = some row ∧ row.IsReadable ∧
          Application.ofRow row.toFields = .ok app := by
  obtain ⟨hkept, hfound⟩ :=
    search_spec hpath hp h n fun t name => name.bind t.application?
  rw [application]
  rcases hsearch : store.search (.text n) (fun t name => name.bind t.application?) files with
    ⟨e | row?, files'⟩
  · rw [hsearch] at hkept
    exact ⟨hkept, nofun⟩
  · rw [hsearch] at hkept hfound
    have hrow := hfound row? rfl
    cases row? with
    | none => exact ⟨hkept, nofun⟩
    | some row =>
      exact ⟨hkept, fun app happ => ⟨row, hrow.symm, read_bind_ofRow_eq_ok_iff.mp happ⟩⟩

/-- A store in memory has no application, whatever is searched for. -/
theorem application_in_memory (hpath : store.path = some p) (hp : p.text = Connection.memoryName)
    (name : Value) (files : Files) : ∀ app, (store.application name files).1 ≠ .ok app := by
  intro app happ
  have hempty := tables_memory hpath hp files
  rw [application, search] at happ
  rcases hread : store.tables files with ⟨e | t', files'⟩
  · rw [hread] at happ
    cases happ
  · rw [hread] at happ hempty
    obtain rfl := hempty t' rfl
    rcases hname : searched name with e | (_ | row) <;> rw [hname] at happ <;> cases happ

/-- A store in memory has no application. -/
theorem application_memory (hpath : store.path = some p) (hp : p.text = Connection.memoryName)
    (n : String) (files : Files) : ∀ app, (store.application (.text n) files).1 ≠ .ok app :=
  application_in_memory hpath hp (.text n) files

/-- A listing that succeeds is made of rows that have been read. -/
theorem listing_spec {α : Type} (hpath : store.path = some p)
    (hp : p.text ≠ Connection.memoryName) (h : HoldsTables files p t) (n : String)
    (rows : Tables → Stored → Except Failure (List Fields)) (ofRow : Fields → α) :
    HoldsTables (store.listing (.text n) rows ofRow files).2 p t ∧
      ∀ found, (store.listing (.text n) rows ofRow files).1 = .ok found →
        ∃ read, rows t (.text n) = .ok read ∧ found = read.map ofRow := by
  -- a listing is a search, of which only the rows are read afterwards
  have hsearch := search_spec hpath hp h n fun t name => name.elim (.ok []) (rows t)
  rw [listing]
  split
  · rename_i hfailed
    rw [hfailed] at hsearch
    exact ⟨hsearch.1, nofun⟩
  · rename_i outcome files' hfound
    rw [hfound] at hsearch
    obtain ⟨hkept, hrows⟩ := hsearch
    obtain rfl : outcome = rows t (.text n) := hrows outcome rfl
    refine ⟨hkept, fun found hmap => ?_⟩
    cases hread : rows t (.text n) with
    | error e =>
      rw [hread] at hmap
      cases hmap
    | ok read =>
      rw [hread] at hmap
      cases hmap
      exact ⟨read, rfl, rfl⟩

/-- The environments of the application with a name are made of its rows, all of which can be
read. -/
theorem environments_spec (hpath : store.path = some p) (hp : p.text ≠ Connection.memoryName)
    (h : HoldsTables files p t) (n : String) :
    HoldsTables (store.environments (.text n) files).2 p t ∧
      ∀ found, (store.environments (.text n) files).1 = .ok found →
        (∀ r ∈ t.environmentRows (.text n), r.IsReadable) ∧
        found = (t.environmentRows (.text n)).map fun r => .ofRow (r.toFields (.text n)) := by
  obtain ⟨hkept, hfound⟩ := listing_spec hpath hp h n
    (fun t app => mapUntilFailure (EnvironmentRow.read app) (t.environmentRows app))
    Environment.ofRow
  refine ⟨hkept, fun found hlisted => ?_⟩
  obtain ⟨read, hread, rfl⟩ := hfound found hlisted
  obtain ⟨hreadable, rfl⟩ := EnvironmentRow.readAll_eq_ok_iff.mp hread
  exact ⟨fun r hr => (hreadable r hr).2, List.map_map⟩

/-- The workloads of the application with a name are made of its rows, all of which can be read. -/
theorem workloads_spec (hpath : store.path = some p) (hp : p.text ≠ Connection.memoryName)
    (h : HoldsTables files p t) (n : String) :
    HoldsTables (store.workloads (.text n) files).2 p t ∧
      ∀ found, (store.workloads (.text n) files).1 = .ok found →
        (∀ r ∈ t.workloadRows (.text n), r.IsReadable) ∧
        found = (t.workloadRows (.text n)).map fun r => .ofRow (r.toFields (.text n)) := by
  obtain ⟨hkept, hfound⟩ := listing_spec hpath hp h n
    (fun t app => mapUntilFailure (WorkloadRow.read app) (t.workloadRows app)) Workload.ofRow
  refine ⟨hkept, fun found hlisted => ?_⟩
  obtain ⟨read, hread, rfl⟩ := hfound found hlisted
  obtain ⟨hreadable, rfl⟩ := WorkloadRow.readAll_eq_ok_iff.mp hread
  exact ⟨fun r hr => (hreadable r hr).2, List.map_map⟩

end ConfigStore

/-! ### Rows of an application -/

namespace Tables

variable {t : Tables} {name : Stored} {app : ApplicationRow}

theorem application?_eq_some (h : t.application? name = some app) :
    app ∈ t.applications.rows ∧ app.name = name := by
  rw [application?] at h
  exact ⟨List.mem_of_find?_eq_some h, by simpa using List.find?_some h⟩

theorem pairwise_sorted {α : Type} (id : α → Int) (rows : List α) :
    (rows.mergeSort fun r s => id r ≤ id s).Pairwise fun r s => id r ≤ id s := by
  have hsorted : (rows.mergeSort fun r s => id r ≤ id s).Pairwise
      fun r s => decide (id r ≤ id s) = true := List.pairwise_mergeSort
    (fun r s u hrs hsu => by simp only [decide_eq_true_eq] at hrs hsu ⊢; omega)
    (fun r s => by simp only [Bool.or_eq_true, decide_eq_true_eq]; omega) rows
  exact hsorted.imp fun h => of_decide_eq_true h

/-- The environments of an application are all rows with its id and no others, each as often as it
is in the table, in ascending order of their ids. -/
theorem environmentRows_spec (h : t.application? name = some app) :
    (t.environmentRows name).Perm (t.environments.rows.filter fun r => r.app = app.id) ∧
      (t.environmentRows name).Pairwise fun r s => r.id ≤ s.id := by
  rw [environmentRows, h]
  exact ⟨List.mergeSort_perm _ _, pairwise_sorted EnvironmentRow.id _⟩

/-- The workloads of an application are all rows with its id and no others, each as often as it is
in the table, in ascending order of their ids. -/
theorem workloadRows_spec (h : t.application? name = some app) :
    (t.workloadRows name).Perm (t.workloads.rows.filter fun r => r.app = app.id) ∧
      (t.workloadRows name).Pairwise fun r s => r.id ≤ s.id := by
  rw [workloadRows, h]
  exact ⟨List.mergeSort_perm _ _, pairwise_sorted WorkloadRow.id _⟩

end Tables

end AppReport
