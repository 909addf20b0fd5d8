import AppReport.Proofs.Decoding
import AppReport.Proofs.Effects
import AppReport.Proofs.Listings

/-!
# Which stored applications can be described

A description of an application shows some columns of its rows (`Tables.Shows`) as texts. The store
lets everything into a column that is no number, no text and nothing as bytes, and a text is shown
for bytes only where they are those of one. That is the only way in which a description can fail
once its reads have succeeded (`Gather.describe_fails_iff`): what the reads give are the columns,
with the empty text in place of what is empty (`Gather.bytes_mem_shown_iff`), and nothing else that
they give is looked at as a text.
-/

namespace AppReport

open AppReport.Tree Text

/-! ### Columns of bytes -/

/-- Bytes are in a column of texts only where bytes were put. -/
theorem Stored.ofValue?_eq_bytes_iff {v : Value} {b : List UInt8} :
    Stored.ofValue? v = some (.bytes b) ↔ v = .bytes b := by
  cases v with
  | float x =>
    show (storedText? x).map Stored.text = some (.bytes b) ↔ _
    cases storedText? x <;> simp
  | _ => simp [Stored.ofValue?]

theorem Stored.value_eq_bytes_iff {s : Stored} {b : List UInt8} :
    s.value = .bytes b ↔ s = .bytes b := by
  cases s <;> simp [Stored.value]

/-- A column gives bytes where it holds bytes that are not empty. -/
theorem orEmpty_eq_bytes_iff {c : Option Stored} {b : List UInt8} (hb : b ≠ []) :
    (storedValue c).orEmpty = .bytes b ↔ c = some (.bytes b) := by
  unfold Value.orEmpty
  split
  · cases c with
    | none => simp [storedValue]
    | some s => simp [storedValue, Stored.value_eq_bytes_iff]
  · rename_i hset
    constructor
    · intro h
      cases h
    · -- bytes that are not empty would have been given
      rintro rfl
      apply absurd _ hset
      simpa [storedValue, Stored.value, Value.isSet] using hb

/-- The bytes among the values of a name and of other columns are those that these hold. -/
theorem bytes_mem_columns {b : List UInt8} (hb : b ≠ []) (name : Stored)
    (others : List (Option Stored)) :
    Value.bytes b ∈ name.value :: others.map (fun c => (storedValue c).orEmpty) ↔
      some (.bytes b) ∈ some name :: others := by
  rw [List.mem_cons, List.mem_cons, List.mem_map]
  refine or_congr ?_ ?_
  · rw [eq_comm, Stored.value_eq_bytes_iff, Option.some_inj, eq_comm]
  · constructor
    · rintro ⟨c, hc, hvalue⟩
      rw [(orEmpty_eq_bytes_iff hb).mp hvalue] at hc
      exact hc
    · intro h
      exact ⟨_, h, (orEmpty_eq_bytes_iff hb).mpr rfl⟩

namespace Tables

/-- The columns that a report shows as texts of the application with a name: its domain; the name,
the account and the region of each of its environments; and the name and the type of each of its
workloads. -/
inductive Shows (t : Tables) (name : Stored) : Option Stored → Prop
  | application {app : ApplicationRow} : app ∈ t.applications.rows → app.name = name →
      t.Shows name app.domain
  | environment {app : ApplicationRow} {r : EnvironmentRow} {c : Option Stored} :
      app ∈ t.applications.rows → app.name = name → r ∈ t.environments.rows → app.id = r.app →
      c ∈ [some r.name, r.accountId, r.region] → t.Shows name c
  | workload {app : ApplicationRow} {r : WorkloadRow} {c : Option Stored} :
      app ∈ t.applications.rows → app.name = name → r ∈ t.workloads.rows → app.id = r.app →
      c ∈ [some r.name, r.type] → t.Shows name c

end Tables

namespace Gather

/-! ### What the reads show -/

section

variable {t : Tables} {client : Client} {script : Script} {n : String} {b : List UInt8}

theorem bytes_mem_shown_app {app : Application} (hb : b ≠ [])
    (h : Expected t client script n .app app) :
    Value.bytes b ∈ Slot.app.shown app ↔
      ∃ row ∈ t.applications.rows, row.name = .text n ∧ row.domain = some (.bytes b) := by
  obtain ⟨row, hrow, -, happ⟩ := h
  obtain ⟨hmem, hname⟩ := Tables.application?_eq_some hrow
  obtain ⟨hgiven, hdomain⟩ := Application.ofRow_eq_ok happ
  have hshown : Value.bytes b ∈ Slot.app.shown app ↔ row.domain = some (.bytes b) := by
    -- the name is the text that was searched for
    rw [hname] at hgiven
    rw [Slot.shown, hgiven, hdomain, ← orEmpty_eq_bytes_iff hb]
    simp [Stored.value, eq_comm]
  rw [hshown]
  constructor
  · intro h
    exact ⟨row, hmem, hname, h⟩
  · rintro ⟨other, hother, hname', h⟩
    rw [Tables.eq_of_name_eq hmem hother (hname.trans hname'.symm)]
    exact h

theorem bytes_mem_shown_environments {found : List Environment} (hb : b ≠ [])
    (h : Expected t client script n .environments found) :
    Value.bytes b ∈ Slot.environments.shown found ↔
      ∃ r ∈ t.environmentRows (.text n),
        some (.bytes b) ∈ [some r.name, r.accountId, r.region] := by
  obtain ⟨-, rfl⟩ := h
  rw [Slot.shown, List.flatMap_map, List.mem_flatMap]
  refine exists_congr fun r => and_congr_right fun _ => ?_
  rw [Environment.ofRow_toFields]
  exact bytes_mem_columns hb r.name [r.accountId, r.region]

theorem bytes_mem_shown_services {found : List Workload} (hb : b ≠ [])
    (h : Expected t client script n .services found) :
    Value.bytes b ∈ Slot.services.shown found ↔
      ∃ r ∈ t.workloadRows (.text n), some (.bytes b) ∈ [some r.name, r.type] := by
  obtain ⟨-, rfl⟩ := h
  rw [Slot.shown, List.flatMap_map, List.mem_flatMap]
  refine exists_congr fun r => and_congr_right fun _ => ?_
  rw [Workload.ofRow_toFields]
  exact bytes_mem_columns hb r.name [r.type]

/-- The bytes among the values that a report shows as texts are those in the columns. -/
theorem bytes_mem_shown_iff {found : Findings} (hb : b ≠ [])
    (h : ∀ slot, Expected t client script n slot (found slot)) :
    (∃ slot : Slot, Value.bytes b ∈ slot.shown (found slot)) ↔
      t.Shows (.text n) (some (.bytes b)) := by
  have happ := bytes_mem_shown_app hb (h .app)
  have henvironments := bytes_mem_shown_environments hb (h .environments)
  have hservices := bytes_mem_shown_services hb (h .services)
  rw [Tables.environmentRows_eq] at henvironments
  rw [Tables.workloadRows_eq] at hservices
  -- each way to be shown belongs to one read, and the records of pipelines hold no column
  constructor
  · rintro ⟨slot, hmem⟩
    cases slot with
    | app =>
      obtain ⟨row, hrow, hname, hdomain⟩ := happ.mp hmem
      rw [← hdomain]
      exact .application hrow hname
    | environments =>
      obtain ⟨r, hr, hcolumn⟩ := henvironments.mp hmem
      obtain ⟨hrow, app, happ, hname, howner⟩ := Tables.mem_ownedRows_iff.mp hr
      exact .environment happ hname hrow howner hcolumn
    | services =>
      obtain ⟨r, hr, hcolumn⟩ := hservices.mp hmem
      obtain ⟨hrow, app, happ, hname, howner⟩ := Tables.mem_ownedRows_iff.mp hr
      exact .workload happ hname hrow howner hcolumn
    | pipelines => cases hmem
  · intro hshows
    generalize hc : some (Stored.bytes b) = c at hshows
    cases hshows with
    | application hrow hname => exact ⟨.app, happ.mpr ⟨_, hrow, hname, hc.symm⟩⟩
    | environment happ hname hrow howner hcolumn =>
      subst hc
      refine ⟨.environments, henvironments.mpr ⟨_, ?_, hcolumn⟩⟩
      exact Tables.mem_ownedRows_iff.mpr ⟨hrow, _, happ, hname, howner⟩
    | workload happ hname hrow howner hcolumn =>
      subst hc
      refine ⟨.services, hservices.mpr ⟨_, ?_, hcolumn⟩⟩
      exact Tables.mem_ownedRows_iff.mpr ⟨hrow, _, happ, hname, howner⟩

theorem hasUndecodable_iff {found : Findings}
    (h : ∀ slot, Expected t client script n slot (found slot)) :
    found.HasUndecodable ↔
      ∃ b, t.Shows (.text n) (some (.bytes b)) ∧ ∀ cs, encode cs ≠ b := by
  have hnone : ∀ b, decode? b = none ↔ ∀ cs, encode cs ≠ b := by
    intro b
    rw [← Option.not_isSome_iff_eq_none, isSome_decode?_iff, not_exists]
  constructor
  · rintro ⟨slot, b, hmem, hb⟩
    have hnotNil : b ≠ [] := by
      rintro rfl
      cases hb
    exact ⟨b, (bytes_mem_shown_iff hnotNil h).mp ⟨slot, hmem⟩, (hnone b).mp hb⟩
  · rintro ⟨b, hshows, hb⟩
    obtain ⟨slot, hmem⟩ := (bytes_mem_shown_iff (hb []).symm h).mpr hshows
    exact ⟨slot, b, hmem, (hnone b).mpr hb⟩

end

/-! ### The reads of a command, in any order -/

variable (user : User) (p : Path) (options : OpenOptions) (client : Client)
  (schedule : World → Schedule)

theorem gives_scheduled (store : ConfigStore) :
    Gives ((World.around store client).scheduled schedule) Slot.IsStored := by
  intro now name slot s result h
  apply World.gives_stored store client now name slot s result
  rw [← h]
  cases slot <;> rfl

/-- What the reads of a description give when they all succeed, over the tables of a store. -/
theorem expected_of_reads {t : Tables} {n : String} {s : Session World}
    (htables : s.world.files.HoldsTables p t)
    {found : Findings}
    (hreads : (readsOf ((World.around ⟨user, some p, options⟩ client).scheduled schedule) (.text n)
      s).join (.text n) = .ok found) :
    ∀ slot, Expected t client s.world.script n slot (found slot) := by
  have hp : p.text ≠ Connection.memoryName := by
    intro hp
    -- in memory the application is not found, so that not all reads succeed
    have hnever : Gives ((World.around ⟨user, some p, options⟩ client).scheduled schedule)
        fun slot _ => slot ≠ .app := by
      rintro now name slot s result h rfl
      exact ConfigStore.application_in_memory rfl hp name s.world.files result h
    exact hnever.of_join hreads .app rfl
  let around := (World.around ⟨user, some p, options⟩ client).scheduled schedule
  let now : Log.Context := [("app", .text n)]
  let noted := around.note now (trace "Describing application" []) s
  have hgather : gather around now (.text n) (around.schedule noted.world) noted =
    (.ok found, (gather around now (.text n) (around.schedule noted.world) noted).2) :=
    Prod.ext hreads rfl
  have htables' : noted.world.files.HoldsTables p t := htables
  exact (expected_of_gather client schedule n rfl hp now _ htables' hgather).2

/-- Over a store whose path leads to a database, whatever its tables hold, and whatever text is
searched for: once the reads of a description have all succeeded, in whatever order they went on,
the description fails exactly if a column that it shows holds bytes that are those of no text. Such
a column is one in which these bytes were put, since whatever else may be put there becomes a text
or nothing. -/
theorem describe_fails_iff (t : Tables) (n : String) (s : Session World)
    (htables : s.world.files.HoldsTables p t) (found : Findings)
    (hreads : (readsOf ((World.around ⟨user, some p, options⟩ client).scheduled schedule) (.text n)
      s).join (.text n) = .ok found) :
    ((∃ f, (describe ((World.around ⟨user, some p, options⟩ client).scheduled schedule) (.text n)
        s).1 = .error f) ↔
      ∃ b, t.Shows (.text n) (some (.bytes b)) ∧ ∀ cs, encode cs ≠ b) ∧
    ((∃ d, (describe ((World.around ⟨user, some p, options⟩ client).scheduled schedule) (.text n)
        s).1 = .ok d) ↔
      ∀ b, t.Shows (.text n) (some (.bytes b)) → ∃ cs, encode cs = b) ∧
    ∀ v b, Stored.ofValue? v = some (.bytes b) ↔ v = .bytes b := by
  have hexpected := expected_of_reads user p options client schedule htables hreads
  have hstored : ∀ slot : Slot, slot.IsStored (found slot) :=
    (gives_scheduled client schedule _).of_join hreads
  -- both statements are this one, about success and about failure
  have hok : (∃ d, found.describe = .ok d) ↔
      ¬ ∃ b, t.Shows (.text n) (some (.bytes b)) ∧ ∀ cs, encode cs ≠ b := by
    rw [Findings.exists_describe_eq_ok_iff, Findings.presentable_iff hstored,
      hasUndecodable_iff hexpected]
  rw [describe_eq_join, hreads, Except.bind]
  refine ⟨?_, ?_, fun v b => Stored.ofValue?_eq_bytes_iff⟩
  · rw [← not_iff_not, ← hok]
    cases found.describe <;> simp
  · rw [hok]
    simp only [not_exists, not_and, not_forall, ne_eq, not_not]

/-- An environment whose region is the bytes of no text. -/
def brokenEnvironment : EnvironmentRow :=
  ⟨3, 2, .text "prod", none, some (.bytes [0xff]), .text "no", none, none, none⟩

/-- The tables `twoApplications` with this environment in place of the others. -/
def brokenRegion : Tables :=
  { Showing.twoApplications with environments := ⟨[brokenEnvironment], 3⟩ }

/-- The session `twoPages` with these tables. -/
def brokenPages : Session World :=
  { Showing.twoPages with
    world := { Showing.twoPages.world with
      files := ⟨[(["store.db"], .file (.database ⟨false, brokenRegion⟩))], []⟩ } }

/-- What is around these runs: the store and the directory, and reads that go on in an order of
their own. -/
def brokenAround : Surroundings World :=
  (World.around ⟨⟨"/root", [], none⟩, some Showing.storePath, Showing.openOptions⟩
    Showing.testClient).scheduled Showing.environmentsFirst

theorem describe_fails_iff_brokenRegion :
    brokenPages.world.files.HoldsTables Showing.storePath brokenRegion ∧
    (∃ found, (readsOf brokenAround (.text "my-app") brokenPages).join (.text "my-app") =
      .ok found) ∧
    brokenRegion.Shows (.text "my-app") (some (.bytes [0xff])) ∧ (∀ cs, encode cs ≠ [0xff]) ∧
    ∃ f, (describe brokenAround (.text "my-app") brokenPages).1 = .error f := by
  have htables : brokenPages.world.files.HoldsTables Showing.storePath brokenRegion :=
    ⟨.database ⟨false, brokenRegion⟩, ⟨false, brokenRegion⟩, Showing.content_storePath _, rfl, rfl⟩
  have happ : (⟨2, .text "my-app", none, some (.text "my.test"), none, none⟩ : ApplicationRow) ∈
      brokenRegion.applications.rows := .tail _ (.head _)
  have hrow : brokenEnvironment ∈ brokenRegion.environments.rows := .head _
  have hshows : brokenRegion.Shows (.text "my-app") (some (.bytes [0xff])) :=
    .environment happ rfl hrow rfl (.tail _ (.tail _ (.head _)))
  have hnone : ∀ cs, encode cs ≠ [0xff] := by
    intro cs hcs
    cases decode?_eq_some_iff.mpr hcs
  -- that the reads succeed is computed, and what they give is only named
  have hsucceed : ((readsOf brokenAround (.text "my-app") brokenPages).join
      (.text "my-app")).isOk = true := by decide +kernel
  obtain ⟨found, hreads⟩ : ∃ found,
      (readsOf brokenAround (.text "my-app") brokenPages).join (.text "my-app") = .ok found := by
    cases hjoin : (readsOf brokenAround (.text "my-app") brokenPages).join (.text "my-app") with
    | ok found => exact ⟨found, rfl⟩
    | error f =>
      rw [hjoin] at hsucceed
      cases hsucceed
  have hfails := (describe_fails_iff ⟨"/root", [], none⟩ Showing.storePath Showing.openOptions
    Showing.testClient Showing.environmentsFirst brokenRegion "my-app" brokenPages htables found
    hreads).1
  exact ⟨htables, ⟨found, hreads⟩, hshows, hnone, hfails.mpr ⟨[0xff], hshows, hnone⟩⟩

end Gather

end AppReport
