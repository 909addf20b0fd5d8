import AppReport.Proofs.StoredTables
import Mathlib.Data.List.Nodup
import Mathlib.Data.List.Perm.Basic

/-!
# The listings of a store

The environments and the workloads of an application are listed under its name. Over all names, such
a listing shares the rows of a table out (`Tables.SharesOut`): a row of an application is listed
under one name, and there once; a row without an application is listed under none. Since a listing
depends on nothing but the applications and its own rows (`Tables.ownedRows_congr`), what is done to
the rows of one application is not seen in the listings of the others
(`ConfigStore.listings_partition`).

Environments and workloads differ in the columns that hold the id of a row and that of its
application; everything else about their listings is said once, of `Tables.ownedRows`.
-/

namespace AppReport

namespace Tables

variable {t t' : Tables} {name : Stored} {app other : ApplicationRow}

/-! ### Applications by name and by id -/

/-- No two applications have the same name. -/
theorem eq_of_name_eq (h : app ∈ t.applications.rows) (hother : other ∈ t.applications.rows)
    (hname : app.name = other.name) : app = other :=
  List.inj_on_of_nodup_map t.names_nodup h hother hname

/-- No two applications have the same number. -/
theorem eq_of_id_eq (h : app ∈ t.applications.rows) (hother : other ∈ t.applications.rows)
    (hid : app.id = other.id) : app = other :=
  List.inj_on_of_nodup_map t.ids_nodup h hother hid

/-- An application is found by its name. -/
theorem application?_eq_some_iff :
    t.application? name = some app ↔ app ∈ t.applications.rows ∧ app.name = name := by
  constructor
  · exact application?_eq_some
  · rintro ⟨hmem, hname⟩
    have hfound : (t.application? name).isSome := by
      simp only [application?, List.find?_isSome, decide_eq_true_eq]
      exact ⟨app, hmem, hname⟩
    obtain ⟨other, hother⟩ := Option.isSome_iff_exists.mp hfound
    obtain ⟨hmem', hname'⟩ := application?_eq_some hother
    rw [hother, eq_of_name_eq hmem' hmem (hname'.trans hname.symm)]

theorem application?_eq_none_iff :
    t.application? name = none ↔ ∀ app ∈ t.applications.rows, app.name ≠ name := by
  simp [application?]

/-! ### The rows of an application -/

section

variable {α : Type} {owner id : α → Int} {rows rows' : List α}

/-- The rows of a table that belong to the application with a name, in the order of their ids. The
columns `owner` and `id` hold the id of the application and that of the row. -/
def ownedRows (t : Tables) (owner id : α → Int) (rows : List α) (name : Stored) : List α :=
  match t.application? name with
  | none => []
  | some app => (rows.filter fun r => owner r = app.id).mergeSort fun r s => id r ≤ id s

/-- The rows of an application, in the order of their numbers. -/
theorem ownedRows_of_some (h : t.application? name = some app) :
    t.ownedRows owner id rows name =
      (rows.filter fun r => owner r = app.id).mergeSort fun r s => id r ≤ id s := by
  rw [ownedRows, h]

/-- A name without an application owns nothing. -/
theorem ownedRows_of_none (h : t.application? name = none) :
    t.ownedRows owner id rows name = [] := by
  rw [ownedRows, h]

/-- What is listed under a name are the rows that belong to the application with this name. -/
theorem mem_ownedRows_iff {r : α} : r ∈ t.ownedRows owner id rows name ↔
    r ∈ rows ∧ ∃ app ∈ t.applications.rows, app.name = name ∧ app.id = owner r := by
  cases happ : t.application? name with
  | none =>
    have hnone := application?_eq_none_iff.mp happ
    rw [ownedRows_of_none happ]
    constructor
    · exact nofun
    · rintro ⟨-, app, hmem, hname, -⟩
      exact absurd hname (hnone app hmem)
  | some app =>
    obtain ⟨hmem, hname⟩ := application?_eq_some happ
    rw [ownedRows_of_some happ]
    simp only [List.mem_mergeSort, List.mem_filter, decide_eq_true_eq]
    constructor
    · rintro ⟨hr, howner⟩
      exact ⟨hr, app, hmem, hname, howner.symm⟩
    · rintro ⟨hr, other, hother, hname', howner⟩
      have hsame : other = app := eq_of_name_eq hother hmem (hname'.trans hname.symm)
      exact ⟨hr, hsame ▸ howner.symm⟩

/-- Ids that differ ascend strictly once they are sorted. -/
theorem pairwise_mergeSort_of_nodup (hkeys : (rows.map id).Nodup) :
    (rows.mergeSort fun r s => id r ≤ id s).Pairwise fun r s => id r < id s := by
  have hsorted := pairwise_sorted id rows
  have hnodup := ((List.mergeSort_perm rows fun r s => id r ≤ id s).map id).nodup_iff.mpr hkeys
  exact (hsorted.and (List.pairwise_map.mp hnodup)).imp fun h => by omega

theorem nodup_map_filter (hkeys : (rows.map id).Nodup) (p : α → Bool) :
    ((rows.filter p).map id).Nodup :=
  hkeys.sublist (List.filter_sublist.map id)

/-- A row is listed once at most, and after those with a smaller id. -/
theorem pairwise_ownedRows (hkeys : (rows.map id).Nodup) (name : Stored) :
    (t.ownedRows owner id rows name).Pairwise fun r s => id r < id s := by
  unfold ownedRows
  split
  · exact List.Pairwise.nil
  · exact pairwise_mergeSort_of_nodup (nodup_map_filter hkeys _)

/-- The rows of some applications, one application after the other, are all rows that belong to one
of them. The induction is on the applications, whose ids differ. -/
theorem flatMap_filter_perm {apps : List ApplicationRow}
    (hids : (apps.map ApplicationRow.id).Nodup) :
    (apps.flatMap fun app => rows.filter fun r => owner r = app.id).Perm
      (rows.filter fun r => apps.any fun app => app.id = owner r) := by
  induction apps with
  | nil => simp
  | cons app apps ih =>
    rw [List.map_cons, List.nodup_cons] at hids
    obtain ⟨hnew, hids⟩ := hids
    -- the rows of the applications are those of `app` and those of the others, and no row is both
    have hfirst : (rows.filter fun r => (app :: apps).any fun a => a.id = owner r).filter
        (fun r => owner r = app.id) = rows.filter fun r => owner r = app.id := by
      rw [List.filter_filter]
      refine List.filter_congr fun r _ => ?_
      by_cases howner : owner r = app.id <;> simp [howner]
    have hothers : (rows.filter fun r => (app :: apps).any fun a => a.id = owner r).filter
        (fun r => !decide (owner r = app.id)) =
          rows.filter fun r => apps.any fun a => a.id = owner r := by
      rw [List.filter_filter]
      refine List.filter_congr fun r _ => ?_
      by_cases howner : owner r = app.id
      · have hnone : ∀ a ∈ apps, ¬ a.id = app.id := fun a ha hid =>
          hnew (List.mem_map.mpr ⟨a, ha, hid⟩)
        simpa [howner] using hnone
      · simp [howner, Ne.symm howner]
    rw [List.flatMap_cons]
    refine ((ih hids).append_left _).trans ?_
    rw [← hfirst, ← hothers]
    exact List.filter_append_perm _ _

/-- Two tables with the same rows for an application list the same under its name, in whatever order
they hold them: the ids alone decide on the order. -/
theorem ownedRows_congr (happs : t'.applications.rows = t.applications.rows)
    (hkeys : (rows.map id).Nodup)
    (hsame : ∀ app ∈ t.applications.rows, app.name = name →
      (rows'.filter fun r => owner r = app.id).Perm (rows.filter fun r => owner r = app.id)) :
    t'.ownedRows owner id rows' name = t.ownedRows owner id rows name := by
  have hfind : t'.application? name = t.application? name := by
    rw [application?, application?, happs]
  cases happ : t.application? name with
  | none => rw [ownedRows_of_none happ, ownedRows_of_none (hfind.trans happ)]
  | some app =>
    rw [ownedRows_of_some happ, ownedRows_of_some (hfind.trans happ)]
    obtain ⟨hmem, hname⟩ := application?_eq_some happ
    have hperm := hsame app hmem hname
    have hkept := nodup_map_filter hkeys fun r => owner r = app.id
    have hkept' := (hperm.map id).nodup_iff.mpr hkept
    refine List.Perm.eq_of_pairwise ?_ (pairwise_mergeSort_of_nodup hkept')
      (pairwise_mergeSort_of_nodup hkept) ?_
    · intro r s _ _ hrs hsr
      omega
    · exact (List.mergeSort_perm _ _).trans (hperm.trans (List.mergeSort_perm _ _).symm)

end

theorem environmentRows_eq (t : Tables) : t.environmentRows =
    t.ownedRows EnvironmentRow.app EnvironmentRow.id t.environments.rows := rfl

theorem workloadRows_eq (t : Tables) : t.workloadRows =
    t.ownedRows WorkloadRow.app WorkloadRow.id t.workloads.rows := rfl

/-! ### Sharing out -/

/-- The primary keys: no two environments have the same id, and no two workloads. -/
structure IsKeyed (t : Tables) : Prop where
  environments : (t.environments.rows.map EnvironmentRow.id).Nodup
  workloads : (t.workloads.rows.map WorkloadRow.id).Nodup

/-- A listing by names shares the rows of a table out among the applications. -/
structure SharesOut {α : Type} (t : Tables) (owner id : α → Int) (rows : List α)
    (listing : Stored → List α) : Prop where
  /-- The listings under the names of all applications are the rows that belong to one, each as
  often as it is in the table. -/
  all : (t.applications.rows.flatMap fun app => listing app.name).Perm
    (rows.filter fun r => t.applications.rows.any fun app => app.id = owner r)
  /-- A row that belongs to an application is listed under one name and no other. -/
  one : ∀ r ∈ rows, (∃ app ∈ t.applications.rows, app.id = owner r) → ∃! name, r ∈ listing name
  /-- Whatever is listed under a name belongs to the application with this name. -/
  owned : ∀ name, ∀ r ∈ listing name,
    r ∈ rows ∧ ∃ app ∈ t.applications.rows, app.name = name ∧ app.id = owner r
  /-- A listing goes from id to greater id, so that it has no row twice. -/
  ascends : ∀ name, (listing name).Pairwise fun r s => id r < id s

theorem sharesOut_ownedRows {α : Type} {owner id : α → Int} {rows : List α}
    (hkeys : (rows.map id).Nodup) :
    SharesOut t owner id rows (t.ownedRows owner id rows) where
  all := by
    have hlisted : ∀ app ∈ t.applications.rows,
        (t.ownedRows owner id rows app.name).Perm (rows.filter fun r => owner r = app.id) := by
      intro app hmem
      rw [ownedRows_of_some (application?_eq_some_iff.mpr ⟨hmem, rfl⟩)]
      exact List.mergeSort_perm _ _
    exact (List.Perm.flatMap_left _ hlisted).trans (flatMap_filter_perm t.ids_nodup)
  one := by
    rintro r hr ⟨app, hmem, howner⟩
    refine ⟨app.name, mem_ownedRows_iff.mpr ⟨hr, app, hmem, rfl, howner⟩, ?_⟩
    intro name hname
    obtain ⟨-, other, hother, rfl, howner'⟩ := mem_ownedRows_iff.mp hname
    rw [eq_of_id_eq hother hmem (howner'.trans howner.symm)]
  owned := fun _ _ hr => mem_ownedRows_iff.mp hr
  ascends := pairwise_ownedRows hkeys

/-- Tables that differ in the environments and workloads of one application only. Those of the
others may have changed places, but nothing else. -/
structure SameBeyond (id : Int) (t t' : Tables) : Prop where
  applications : t'.applications.rows = t.applications.rows
  environments : (t'.environments.rows.filter fun r => r.app ≠ id).Perm
    (t.environments.rows.filter fun r => r.app ≠ id)
  workloads : (t'.workloads.rows.filter fun r => r.app ≠ id).Perm
    (t.workloads.rows.filter fun r => r.app ≠ id)

/-- What is the same beyond one application is the same for every other one. -/
theorem filter_owner_perm {α : Type} {owner : α → Int} {rows rows' : List α} {id other : Int}
    (h : (rows'.filter fun r => owner r ≠ id).Perm (rows.filter fun r => owner r ≠ id))
    (hother : other ≠ id) :
    (rows'.filter fun r => owner r = other).Perm (rows.filter fun r => owner r = other) := by
  have hkept : ∀ rows : List α, (rows.filter fun r => owner r ≠ id).filter
      (fun r => owner r = other) = rows.filter fun r => owner r = other := by
    intro rows
    rw [List.filter_filter]
    refine List.filter_congr fun r _ => ?_
    by_cases howner : owner r = other <;> simp [howner, hother]
  rw [← hkept rows', ← hkept rows]
  exact h.filter _

end Tables

/-! ### Records and the rows that they stand for -/

/-- The environment that a row stands for in the listing of the application with a name: each field
is the column of this name. The account and the region are the empty text where their columns hold
nothing, and the environment is for production if its column is set. -/
structure EnvironmentRow.StandsFor (app : Stored) (r : EnvironmentRow) (e : Environment) :
    Prop where
  app : e.app = app.value
  name : e.name = r.name.value
  accountId : e.accountId = (storedValue r.accountId).orEmpty
  region : e.region = (storedValue r.region).orEmpty
  prod : e.prod = r.prod.value.isSet
  registryUrl : e.registryUrl = storedValue r.registryUrl
  executionRole : e.executionRole = storedValue r.executionRole
  managerRole : e.managerRole = storedValue r.managerRole

/-- The workload that a row stands for in the listing of the application with a name. Its type is
the empty text where the column holds nothing. -/
structure WorkloadRow.StandsFor (app : Stored) (r : WorkloadRow) (w : Workload) : Prop where
  app : w.app = app.value
  name : w.name = r.name.value
  type : w.type = (storedValue r.type).orEmpty

/-- The record of a row is what the row stands for. -/
theorem EnvironmentRow.standsFor_ofRow (app : Stored) (r : EnvironmentRow) :
    r.StandsFor app (.ofRow (r.toFields app)) := ⟨rfl, rfl, rfl, rfl, rfl, rfl, rfl, rfl⟩

theorem WorkloadRow.standsFor_ofRow (app : Stored) (r : WorkloadRow) :
    r.StandsFor app (.ofRow (r.toFields app)) := ⟨rfl, rfl, rfl⟩

/-- How a listing of rows ends: if all of them can be read, with the records that they stand for,
one for each and in their order, and otherwise with a failure of the tables. -/
structure Lists {α β : Type} (rows : List α) (readable : α → Prop) (standsFor : α → β → Prop)
    (outcome : Except Failure (List β)) : Prop where
  records : (∀ r ∈ rows, readable r) →
    ∃ found, outcome = .ok found ∧ List.Forall₂ standsFor rows found
  failure : (∃ r ∈ rows, ¬ readable r) →
    ∃ f, outcome = .error f ∧ f.kind? = some .tableOperation

/-- Rows that are read one after the other end a listing in this way, if a row is read as what
stands for it. -/
theorem lists_mapUntilFailure {α β : Type} {rows : List α} {readable : α → Prop}
    {standsFor : α → β → Prop} {read : α → Except Failure Fields} {fields : α → Fields}
    {ofRow : Fields → β}
    (hread : ∀ found, mapUntilFailure read rows = .ok found ↔
      (∀ r ∈ rows, readable r) ∧ found = rows.map fields)
    (hkind : ∀ r f, read r = .error f → f.kind? = some .tableOperation)
    (hstands : ∀ r, standsFor r (ofRow (fields r))) :
    Lists rows readable standsFor ((mapUntilFailure read rows).map (List.map ofRow)) where
  records hreadable := by
    rw [(hread _).mpr ⟨hreadable, rfl⟩]
    refine ⟨_, rfl, ?_⟩
    rw [List.map_map, List.forall₂_map_right_iff]
    exact List.forall₂_same.mpr fun r _ => hstands r
  failure := by
    rintro ⟨r, hr, hnot⟩
    cases houtcome : mapUntilFailure read rows with
    | ok found => exact absurd (((hread found).mp houtcome).1 r hr) hnot
    | error f =>
      obtain ⟨row, -, hrow⟩ := mapUntilFailure_eq_error houtcome
      exact ⟨f, rfl, hkind row f hrow⟩

/-! ### The listings of a store -/

namespace ConfigStore

variable {store : ConfigStore} {files : Files} {t : Tables} {name : Stored}

/-- A name that can be read is searched for as it is. -/
theorem searched_value (hname : name.IsReadable) : searched name.value = .ok (some name) := by
  cases name with
  | text s => rfl
  | bytes b => rfl
  | malformed b h => exact absurd hname id

/-- A search for a name reads the tables of the store. -/
theorem search_of_tables {α : Type} (ht : (store.tables files).1 = .ok t)
    (hname : name.IsReadable) (read : Tables → Option Stored → α) :
    (store.search name.value read files).1 = .ok (read t (some name)) := by
  rw [search]
  rcases hread : store.tables files with ⟨e | found, files'⟩
  · rw [hread] at ht
    cases ht
  · rw [hread] at ht
    obtain rfl : found = t := Except.ok.inj ht
    rw [searched_value hname]
    rfl

/-- A listing reads the rows that belong to a name. -/
theorem listing_of_tables {α : Type} (ht : (store.tables files).1 = .ok t)
    (hname : name.IsReadable) (rows : Tables → Stored → Except Failure (List Fields))
    (ofRow : Fields → α) :
    (store.listing name.value rows ofRow files).1 = (rows t name).map (List.map ofRow) := by
  have hsearch := search_of_tables ht hname fun t name => name.elim (.ok []) (rows t)
  rw [listing]
  split
  · rename_i hfailed
    rw [hfailed] at hsearch
    cases hsearch
  · rename_i hfound
    rw [hfound] at hsearch
    obtain rfl := Except.ok.inj hsearch
    rfl

theorem environments_of_tables (ht : (store.tables files).1 = .ok t) (hname : name.IsReadable) :
    (store.environments name.value files).1 =
      (mapUntilFailure (EnvironmentRow.read name) (t.environmentRows name)).map
        (List.map .ofRow) :=
  listing_of_tables ht hname _ _

theorem workloads_of_tables (ht : (store.tables files).1 = .ok t) (hname : name.IsReadable) :
    (store.workloads name.value files).1 =
      (mapUntilFailure (WorkloadRow.read name) (t.workloadRows name)).map (List.map .ofRow) :=
  listing_of_tables ht hname _ _

/-- The listings of a store whose tables can be read. They share the environments and the workloads
out among the applications, each row to the one that it belongs to. A listing under a name gives the
records of its rows field by field, and fails if it has a row that cannot be read; a name that no
application has gets nothing, and is no failure. And they are the listings of every store that has
other tables in what belongs to one application only, but for the listing of this application. -/
theorem listings_partition (ht : (store.tables files).1 = .ok t) (hkeys : t.IsKeyed) :
    t.SharesOut EnvironmentRow.app EnvironmentRow.id t.environments.rows t.environmentRows ∧
    t.SharesOut WorkloadRow.app WorkloadRow.id t.workloads.rows t.workloadRows ∧
    (∀ name : Stored, name.IsReadable →
      Lists (t.environmentRows name) EnvironmentRow.IsReadable (EnvironmentRow.StandsFor name)
        (store.environments name.value files).1 ∧
      Lists (t.workloadRows name) WorkloadRow.IsReadable (WorkloadRow.StandsFor name)
        (store.workloads name.value files).1) ∧
    (∀ name : Stored, name.IsReadable → (∀ app ∈ t.applications.rows, app.name ≠ name) →
      (store.environments name.value files).1 = .ok [] ∧
      (store.workloads name.value files).1 = .ok []) ∧
    ∀ (store' : ConfigStore) (files' : Files) (t' : Tables) (id : Int),
      (store'.tables files').1 = .ok t' → t.SameBeyond id t' →
      ∀ name : Stored, name.IsReadable →
        (∀ app ∈ t.applications.rows, app.name = name → app.id ≠ id) →
        (store'.environments name.value files').1 = (store.environments name.value files).1 ∧
        (store'.workloads name.value files').1 = (store.workloads name.value files).1 := by
  refine ⟨?_, ?_, ?_, ?_, ?_⟩
  · rw [Tables.environmentRows_eq]
    exact Tables.sharesOut_ownedRows hkeys.environments
  · rw [Tables.workloadRows_eq]
    exact Tables.sharesOut_ownedRows hkeys.workloads
  · intro name hname
    rw [environments_of_tables ht hname, workloads_of_tables ht hname]
    constructor
    · -- the name of the application can be read, so that it is the rows that count
      refine lists_mapUntilFailure (fun found => ?_) (fun _ _ => kind?_of_readRow)
        (EnvironmentRow.standsFor_ofRow name)
      rw [EnvironmentRow.readAll_eq_ok_iff]
      simp only [hname, true_and]
    · refine lists_mapUntilFailure (fun found => ?_) (fun _ _ => kind?_of_readRow)
        (WorkloadRow.standsFor_ofRow name)
      rw [WorkloadRow.readAll_eq_ok_iff]
      simp only [hname, true_and]
  · intro name hname hnobody
    have hnone := Tables.application?_eq_none_iff.mpr hnobody
    rw [environments_of_tables ht hname, workloads_of_tables ht hname, Tables.environmentRows_eq,
      Tables.workloadRows_eq, Tables.ownedRows_of_none hnone, Tables.ownedRows_of_none hnone]
    exact ⟨rfl, rfl⟩
  · intro store' files' t' id ht' hsame name hname hother
    have henvironments : t'.environmentRows name = t.environmentRows name :=
      Tables.ownedRows_congr hsame.applications hkeys.environments fun app hmem hname =>
        Tables.filter_owner_perm hsame.environments (hother app hmem hname)
    have hworkloads : t'.workloadRows name = t.workloadRows name :=
      Tables.ownedRows_congr hsame.applications hkeys.workloads fun app hmem hname =>
        Tables.filter_owner_perm hsame.workloads (hother app hmem hname)
    rw [environments_of_tables ht hname, environments_of_tables ht' hname,
      workloads_of_tables ht hname, workloads_of_tables ht' hname, henvironments, hworkloads]
    exact ⟨rfl, rfl⟩

/-- Files with nothing but a database with certain tables. -/
def filesWith (t : Tables) : Files := ⟨[(["store.db"], .file (.database ⟨false, t⟩))], []⟩

/-- A store in this database. -/
def rootStore : ConfigStore where
  user := ⟨"/root", [], none⟩
  path := some ⟨.top, ["store.db"]⟩
  options := ⟨some (.whole 1), some false, some true, true, none⟩

theorem tables_rootStore (t : Tables) : (rootStore.tables (filesWith t)).1 = .ok t := rfl

/-- Tables with two applications, of which the one has for a name the bytes of the name of the
other, with an environment each, and an environment without an application. -/
def sharedTables : Tables where
  applications := ⟨[⟨1, .text "a", none, none, none, none⟩,
    ⟨2, .bytes [0x61], none, none, none, none⟩], 2⟩
  environments := ⟨[⟨3, 2, .text "test", none, none, .integer 0, none, none, none⟩,
    ⟨1, 1, .text "test", none, none, .integer 1, none, none, none⟩,
    ⟨2, 9, .text "lost", none, none, .integer 0, none, none, none⟩], 3⟩
  workloads := ⟨[⟨1, 2, .text "api", some (.text "Backend")⟩], 1⟩
  ids_nodup := by decide
  names_nodup := by decide

/-- These tables with another environment of the first application. -/
def extendedTables : Tables :=
  sharedTables.addEnvironment ⟨4, 1, .text "prod", none, none, .integer 1, none, none, none⟩

theorem listings_partition_sharedTables :
    (rootStore.tables (filesWith sharedTables)).1 = .ok sharedTables ∧ sharedTables.IsKeyed ∧
    sharedTables.SharesOut EnvironmentRow.app EnvironmentRow.id sharedTables.environments.rows
      sharedTables.environmentRows ∧
    (rootStore.environments (.text "b") (filesWith sharedTables)).1 = .ok [] ∧
    sharedTables.SameBeyond 1 extendedTables ∧
    (rootStore.environments (.bytes [0x61]) (filesWith extendedTables)).1 =
      (rootStore.environments (.bytes [0x61]) (filesWith sharedTables)).1 := by
  have hkeys : sharedTables.IsKeyed := ⟨by decide, by decide⟩
  have hsame : sharedTables.SameBeyond 1 extendedTables := ⟨rfl, .refl _, .refl _⟩
  obtain ⟨hshares, -, -, hnothing, hothers⟩ :=
    listings_partition (tables_rootStore sharedTables) hkeys
  refine ⟨tables_rootStore sharedTables, hkeys, hshares, ?_, hsame, ?_⟩
  · exact (hnothing (.text "b") trivial (by decide)).1
  · exact (hothers rootStore (filesWith extendedTables) extendedTables 1
      (tables_rootStore extendedTables) hsame (.bytes [0x61]) trivial (by decide)).1

/-- Tables with an application and its only environment, the region of which is not UTF-8. -/
def malformedTables : Tables where
  applications := ⟨[⟨1, .text "a", none, none, none, none⟩], 1⟩
  environments := ⟨[⟨1, 1, .text "test", none, some (.malformed [0xff] decode?_ff), .integer 0,
    none, none, none⟩], 1⟩
  workloads := .empty
  ids_nodup := List.pairwise_singleton _ _
  names_nodup := List.pairwise_singleton _ _

/-- The environment of this application is in no listing, since the one that it belongs to fails. -/
theorem environments_malformedTables :
    (rootStore.tables (filesWith malformedTables)).1 = .ok malformedTables ∧
    malformedTables.IsKeyed ∧
    (malformedTables.environments.rows.map EnvironmentRow.app =
      malformedTables.applications.rows.map ApplicationRow.id) ∧
    (rootStore.environments (.text "a") (filesWith malformedTables)).1 =
      .error (.of .tableOperation
        "Could not decode to UTF-8 column 'region' with text '\uFFFD'") := by
  have hkeys : malformedTables.IsKeyed :=
    ⟨List.pairwise_singleton _ _, List.Pairwise.nil⟩
  refine ⟨tables_rootStore malformedTables, hkeys, rfl, ?_⟩
  have hrows : malformedTables.environmentRows (.text "a") =
      malformedTables.environments.rows := List.mergeSort_singleton _
  have hread := @environments_of_tables _ _ _ (.text "a") (tables_rootStore malformedTables)
    trivial
  rw [hrows] at hread
  exact hread

end ConfigStore

end AppReport
