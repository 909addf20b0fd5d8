import AppReport.Proofs.Course
import AppReport.Proofs.Pages
import AppReport.Proofs.StoredTables
import AppReport.Proofs.Views
import AppReport.World

/-!
# The report of a stored application

Over the tables of a store and over what a directory answers, a run that succeeds for programs
writes the report of the application with the name (`IsReport`): all that belongs to it and nothing
else, in the order of the ids, and the records of all pages in their order (`Showing.run_isReport`).

The reads of the description may begin and complete in any order. Whatever they change around the
program, the tables stay and the directory is asked by one of them only, so each read answers what
it answers on its own (`Gather.Undisturbed`).
-/

namespace AppReport

open AppReport.Tree

/-- The same surroundings, in which concurrent reads go on as a schedule says. -/
def Surroundings.scheduled {σ : Type} (around : Surroundings σ) (schedule : σ → Schedule) :
    Surroundings σ :=
  { around with schedule }

/-! ### What a report is -/

/-- The value that the report of an application shows: its name and address; its environments and
its services, each from one row of the tables, all rows of this application and no others in
ascending order of their ids; and the records of all pages that the directory gives for its tag,
one page after the other, as they are after the check. -/
def IsReport (t : Tables) (client : Client) (script : Script) (n : String) (report : Value) :
    Prop :=
  ∃ app ∈ t.applications.rows, app.name = .text n ∧
  ∃ (uri : String) (environments services pipelines : List Value),
    report = .object [("name", .text n), ("uri", .text uri), ("environments", .list environments),
      ("services", .list services), ("pipelines", .list pipelines)] ∧
    shownColumn? app.domain = some uri ∧
    (∃ rows : List EnvironmentRow,
      rows.Perm (t.environments.rows.filter fun r => r.app = app.id) ∧
      rows.Pairwise (fun r s => r.id ≤ s.id) ∧
      rows.map EnvironmentRow.document? = environments.map some) ∧
    (∃ rows : List WorkloadRow,
      rows.Perm (t.workloads.rows.filter fun r => r.app = app.id) ∧
      rows.Pairwise (fun r s => r.id ≤ s.id) ∧
      rows.map WorkloadRow.document? = services.map some) ∧
    ∃ (pages : List Fields) (records : List (List Value)) (script' : Script),
      Client.Pages client Script.ask "application" (.text n) .null script pages script' ∧
      pages.map Client.recordsOf? = records.map some ∧
      (records.flatten.map fun v => (Pipeline.ofValue v).bind Pipeline.document) =
        pipelines.map .ok

/-! ### What each read gives -/

namespace World

/-- A list that is read from the files is as the read gives it, and the read changes nothing but the
files and the messages. -/
theorem listFromStore_spec {α : Type} {read : Files → Except Failure (List α) × Files} {w : World}
    {p : Path} {t : Tables} {expected : List α → Prop}
    (hread : HoldsTables (read w.files).2 p t ∧
      ∀ found, (read w.files).1 = .ok found → expected found)
    (kind : String) (name : Value) (now : Log.Context) :
    (w.listFromStore read kind name now).2.files.HoldsTables p t ∧
      (w.listFromStore read kind name now).2.output = w.output ∧
      (w.listFromStore read kind name now).2.script = w.script ∧
      ∀ found, (w.listFromStore read kind name now).1 = .ok found → expected found := by
  rw [listFromStore, fromStore]
  rcases hfiles : read w.files with ⟨e | found, files⟩
  · rw [hfiles] at hread
    exact ⟨hread.1, rfl, rfl, nofun⟩
  · rw [hfiles] at hread
    exact ⟨hread.1, rfl, rfl, hread.2⟩

/-- Pipelines that are looked for change nothing but the directory and the messages. -/
theorem findPipelines_spec (client : Client) (now : Log.Context) (key : String) (value : Value)
    (w : World) :
    (w.findPipelines client now key value).1 = (client.find key value w.script).1.map .records ∧
      (w.findPipelines client now key value).2.files = w.files ∧
      (w.findPipelines client now key value).2.output = w.output := by
  rw [findPipelines]
  rcases client.find key value w.script with ⟨e | found, script⟩
  · exact ⟨rfl, rfl, rfl⟩
  · exact ⟨rfl, rfl, rfl⟩

end World

namespace Gather

/-- What a read gives on its own when it succeeds, over the tables of a store and over what a
directory answers. -/
def Expected (t : Tables) (client : Client) (script : Script) (n : String) :
    (slot : Slot) → slot.Result → Prop
  | .app, app => ∃ row, t.application? (.text n) = some row ∧ row.IsReadable ∧
    Application.ofRow row.toFields = .ok app
  | .environments, found => (∀ r ∈ t.environmentRows (.text n), r.IsReadable) ∧
    found = (t.environmentRows (.text n)).map fun r => .ofRow (r.toFields (.text n))
  | .services, found => (∀ r ∈ t.workloadRows (.text n), r.IsReadable) ∧
    found = (t.workloadRows (.text n)).map fun r => .ofRow (r.toFields (.text n))
  | .pipelines, listing => ∃ found script',
    listing = .records found ∧ client.find tagKey (.text n) script = (.ok found, script')

/-- Reads under way that have not disturbed each other: the tables are there, nothing is written,
each read that has succeeded gives what it gives on its own, and as long as the pipelines are not
read nothing has been asked of the directory. -/
structure Undisturbed (p : Path) (t : Tables) (client : Client) (start : World) (n : String)
    (g : State World) : Prop where
  tables : g.session.world.files.HoldsTables p t
  output : g.session.world.output = start.output
  script : g.progress.outcome? .pipelines = none → g.session.world.script = start.script
  expected : ∀ slot result, g.progress.outcome? slot = some (.ok result) →
    Expected t client start.script n slot result

variable {store : ConfigStore} {p : Path} {t : Tables} (client : Client)
  (schedule : World → Schedule) (n : String)

/-- Each read on its own, while the path of the store leads to certain tables: it keeps them, it
writes nothing, and what it gives when it succeeds is expected. Only the read of the pipelines asks
the directory. -/
theorem fetch_spec (hpath : store.path = some p) (hp : p.text ≠ Connection.memoryName)
    (now : Log.Context) (slot : Slot) {s : Session World}
    (h : s.world.files.HoldsTables p t) :
    let after := fetch ((World.around store client).scheduled schedule) now (.text n) slot s
    after.2.world.files.HoldsTables p t ∧ after.2.world.output = s.world.output ∧
      (slot ≠ .pipelines → after.2.world.script = s.world.script) ∧
      ∀ result, after.1 = .ok result → Expected t client s.world.script n slot result := by
  intro after
  cases slot with
  | app =>
    obtain ⟨hkept, hfound⟩ := ConfigStore.application_spec hpath hp h n
    exact ⟨hkept, rfl, fun _ => rfl, hfound⟩
  | environments =>
    obtain ⟨hkept, houtput, hscript, hfound⟩ := World.listFromStore_spec
      (ConfigStore.environments_spec hpath hp h n) "environments" (.text n) now
    exact ⟨hkept, houtput, fun _ => hscript, hfound⟩
  | services =>
    obtain ⟨hkept, houtput, hscript, hfound⟩ := World.listFromStore_spec
      (ConfigStore.workloads_spec hpath hp h n) "services" (.text n) now
    exact ⟨hkept, houtput, fun _ => hscript, hfound⟩
  | pipelines =>
    -- only this read leaves the store alone and asks the directory
    obtain ⟨houtcome, hfiles, houtput⟩ :=
      World.findPipelines_spec client now tagKey (.text n) s.world
    refine ⟨?_, houtput, fun hne => absurd rfl hne, fun result hresult => ?_⟩
    · show HoldsTables (s.world.findPipelines client now tagKey (.text n)).2.files p t
      rw [hfiles]
      exact h
    · have hlisting := houtcome.symm.trans hresult
      rcases hfind : client.find tagKey (.text n) s.world.script with ⟨e | found, script'⟩
      · rw [hfind] at hlisting
        cases hlisting
      · rw [hfind] at hlisting
        cases hlisting
        exact ⟨found, script', rfl, hfind⟩

/-! ### Reads under way -/

namespace Undisturbed

variable {client n} {start : World} {g : State World}

theorem beginRead (hpath : store.path = some p) (hp : p.text ≠ Connection.memoryName)
    (now : Log.Context) (h : Undisturbed p t client start n g) (slot : Slot) :
    Undisturbed p t client start n
      (beginRead ((World.around store client).scheduled schedule) now (.text n) slot g) := by
  rw [Gather.beginRead]
  split
  · exact h
  rename_i hnone
  obtain ⟨htables, houtput, hscript, hexpected⟩ :=
    fetch_spec client schedule n hpath hp now slot h.tables
  refine ⟨htables, houtput.trans h.output, fun hnotRead => ?_, fun other result hresult => ?_⟩
  · -- the pipelines are read by their own read only
    have hne : slot ≠ .pipelines := by
      rintro rfl
      simp at hnotRead
    rw [Progress.outcome?_put_of_ne _ hne] at hnotRead
    exact (hscript hne).trans (h.script hnotRead)
  · by_cases heq : slot = other
    · subst heq
      rw [Progress.outcome?_put_self, Option.some.injEq] at hresult
      have hanswer := hexpected result hresult
      -- the answer of the directory is expected from the start only while nothing was asked of it
      cases slot with
      | app => exact hanswer
      | environments => exact hanswer
      | services => exact hanswer
      | pipelines =>
        rw [h.script hnone] at hanswer
        exact hanswer
    · rw [Progress.outcome?_put_of_ne _ heq] at hresult
      exact h.expected other result hresult

end Undisturbed

theorem undisturbed_invariant (hpath : store.path = some p)
    (hp : p.text ≠ Connection.memoryName) (now : Log.Context) (start : World) :
    Invariant ((World.around store client).scheduled schedule) now (.text n)
      (Undisturbed p t client start n) where
  begins slot h := h.beginRead schedule hpath hp now slot
  completes slot _ h := by
    -- to complete is to log a failure at most
    rw [noteFailure]
    split
    · split <;> exact ⟨h.tables, h.output, h.script, h.expected⟩
    · exact ⟨h.tables, h.output, h.script, h.expected⟩

/-- The join of reads that succeed gives what each of them gives on its own, and nothing is written
meanwhile. -/
theorem expected_of_gather (hpath : store.path = some p) (hp : p.text ≠ Connection.memoryName)
    (now : Log.Context) (order : Schedule) {s : Session World}
    (h : s.world.files.HoldsTables p t) {found : Findings} {s' : Session World}
    (hgather : gather ((World.around store client).scheduled schedule) now (.text n) order s =
      (.ok found, s')) :
    s'.world.output = s.world.output ∧
      ∀ slot, Expected t client s.world.script n slot (found slot) := by
  have hstart : Undisturbed p t client s.world n ⟨.start, s⟩ :=
    ⟨h, rfl, fun _ => rfl, fun slot result hresult => by cases hresult⟩
  have hend := (undisturbed_invariant client schedule n hpath hp now s.world).watch order hstart
  rw [gather, Prod.mk.injEq] at hgather
  obtain ⟨hjoin, rfl⟩ := hgather
  exact ⟨hend.output, fun slot =>
    hend.expected slot (found slot) (Progress.outcome?_of_join hjoin slot)⟩

end Gather

/-- A description that succeeds is made of what each read gives on its own, and nothing is written
meanwhile. -/
theorem expected_of_describe {store : ConfigStore} {client : Client}
    {schedule : World → Schedule} {p : Path} {t : Tables} {n : String}
    (hpath : store.path = some p) (hp : p.text ≠ Connection.memoryName) {s s' : Session World}
    (h : s.world.files.HoldsTables p t) {d : Description}
    (hdescribe : describe ((World.around store client).scheduled schedule) (.text n) s =
      (.ok d, s')) :
    s'.world.output = s.world.output ∧ ∃ found : Findings, found.describe = .ok d ∧
      ∀ slot, Gather.Expected t client s.world.script n slot (found slot) := by
  obtain ⟨now, record, order, heq⟩ := Gather.describe_eq_gather
    ((World.around store client).scheduled schedule) (.text n) s
  rw [heq] at hdescribe
  let s₁ := ((World.around store client).scheduled schedule).note now record s
  rcases hgather : Gather.gather ((World.around store client).scheduled schedule) now (.text n)
    order s₁ with ⟨f | found, s₂⟩
  · rw [hgather] at hdescribe
    cases hdescribe
  · rw [hgather, Prod.mk.injEq] at hdescribe
    obtain ⟨hd, rfl⟩ := hdescribe
    have htables : s₁.world.files.HoldsTables p t := h
    obtain ⟨houtput, hexpected⟩ :=
      Gather.expected_of_gather client schedule n hpath hp now order htables hgather
    exact ⟨houtput, found, hd, hexpected⟩

/-! ### The report -/

/-- What a description shows that is made of what each read gives on its own. -/
theorem isReport_of_expected {t : Tables} {client : Client} {script : Script} {n : String}
    {found : Findings} (hexpected : ∀ slot, Gather.Expected t client script n slot (found slot))
    {d : Description} (hd : found.describe = .ok d) {text : String}
    (htext : Report.document d = .ok text) :
    ∃ report, IsReport t client script n report ∧ text = Json.write report ++ "\n" := by
  -- the four reads on their own, then what the description and its document make of them
  obtain ⟨row, hrow, hreadable, happ⟩ := hexpected .app
  obtain ⟨hreadableEnvironments, henvironments⟩ := hexpected .environments
  obtain ⟨hreadableServices, hservices⟩ := hexpected .services
  obtain ⟨listed, script', hlisting, hfind⟩ := hexpected .pipelines
  obtain ⟨pages, records, hpages, hrecords, hchecked⟩ := Client.find_spec hfind
  obtain ⟨hname, huri, hviews, hworkloads, rfl⟩ := Findings.describe_eq_ok hlisting hd
  obtain ⟨pipelines, hpipelines, htext⟩ := Report.document_eq_ok htext
  obtain ⟨hrowName, hdomain⟩ := Application.ofRow_eq_ok happ
  obtain ⟨hmem, hrowIs⟩ := Tables.application?_eq_some hrow
  have hshownName : d.name = n := by
    rw [hrowName, hrowIs] at hname
    cases hname
    rfl
  rw [hdomain, text_orEmpty_eq_ok_iff hreadable.domain] at huri
  rw [henvironments, List.map_map] at hviews
  rw [hservices, List.map_map] at hworkloads
  obtain ⟨hperm, hsorted⟩ := Tables.environmentRows_spec hrow
  obtain ⟨hperm', hsorted'⟩ := Tables.workloadRows_spec hrow
  refine ⟨_, ⟨row, hmem, hrowIs, d.uri, d.environments.map EnvironmentView.document,
    d.services.map WorkloadView.document, pipelines, rfl, huri,
    ⟨t.environmentRows (.text n), hperm, hsorted, ?_⟩,
    ⟨t.workloadRows (.text n), hperm', hsorted', ?_⟩,
    ⟨pages, records, script', hpages, hrecords, ?_⟩⟩, hshownName ▸ htext⟩
  · rw [List.map_map]
    exact map_eq_map_of_mem_imp
      (fun r hr view hview => EnvironmentRow.document?_of_view (hreadableEnvironments r hr) hview)
      hviews
  · rw [List.map_map]
    exact map_eq_map_of_mem_imp
      (fun r hr view hview => WorkloadRow.document?_of_view (hreadableServices r hr) hview)
      hworkloads
  · let document := fun r : Except Failure Pipeline => r.bind Pipeline.document
    calc records.flatten.map (fun v => document (Pipeline.ofValue v))
        = (records.flatten.map Pipeline.ofValue).map document := by
          rw [List.map_map]
          rfl
      _ = (d.pipelines.map Except.ok).map document := by rw [hchecked]
      _ = d.pipelines.map Pipeline.document := by
          rw [List.map_map]
          rfl
      _ = pipelines.map Except.ok := hpipelines

namespace Showing

/-- Whenever a run for programs succeeds over a store whose path leads to a database, whatever the
tables in it, the name, the answers of the directory and the order of the reads, it writes the
report of the application with this name, and nothing else. -/
theorem run_isReport (user : User) (p : Path) (options : OpenOptions) (client : Client)
    (schedule : World → Schedule) (t : Tables) (n : String) (s : Session World)
    (htables : s.world.files.HoldsTables p t)
    (hrun : (run ((World.around ⟨user, some p, options⟩ client).scheduled schedule)
      ⟨.supplied (.text n), true, s⟩).1 = .ok ()) :
    ∃ report, IsReport t client s.world.script n report ∧
      (run ((World.around ⟨user, some p, options⟩ client).scheduled schedule)
        ⟨.supplied (.text n), true, s⟩).2.session.world.output =
          s.world.output ++ (Json.write report ++ "\n") := by
  let store : ConfigStore := ⟨user, some p, options⟩
  let around := (World.around store client).scheduled schedule
  have hpath : store.path = some p := rfl
  obtain ⟨app, s₁, d, s₂, text, hread, hdescribe, hrender, hsession⟩ := run_eq_ok around hrun
  have hp : p.text ≠ Connection.memoryName := by
    intro hp
    -- in memory there is no application that the check could find
    have hnone := ConfigStore.application_memory hpath hp n s.world.files
    exact hnone app (congrArg Prod.fst hread)
  -- the check of the name is the first read of the application
  have hfetch := Gather.fetch_spec client schedule n hpath hp [] .app htables
  have hsame : (Gather.fetch around [] (.text n) .app s) = (.ok app, s₁) := hread
  rw [hsame] at hfetch
  obtain ⟨htables₁, houtput₁, hscript₁, -⟩ := hfetch
  obtain ⟨houtput₂, found, hd, hexpected⟩ := expected_of_describe hpath hp htables₁ hdescribe
  rw [hscript₁ (by decide)] at hexpected
  obtain ⟨report, hreport, rfl⟩ := isReport_of_expected hexpected hd hrender
  refine ⟨report, hreport, ?_⟩
  rw [hsession]
  show s₂.world.output ++ _ = _
  rw [houtput₂, houtput₁]

theorem eq_ok_of_isOk {outcome : Except Failure Unit} (h : outcome.isOk = true) :
    outcome = .ok () := by
  cases outcome with
  | error f => cases h
  | ok => rfl

/-- Tables with two applications, each with an environment. -/
def twoApplications : Tables where
  applications := ⟨[⟨1, .text "other", none, none, none, none⟩,
    ⟨2, .text "my-app", none, some (.text "my.test"), none, none⟩], 2⟩
  environments := ⟨[⟨1, 2, .text "test", none, some (.bytes [0x65, 0x75]), .text "no", none, none,
    none⟩, ⟨2, 1, .text "test", none, none, .integer 0, none, none, none⟩], 2⟩
  workloads := ⟨[⟨1, 2, .text "api", some (.text "Backend")⟩], 1⟩
  ids_nodup := by decide
  names_nodup := by decide

/-- A session with these tables in a file, where the directory answers with two pages. -/
def twoPages : Session World where
  world := {
    files := ⟨[(["store.db"], .file (.database ⟨false, twoApplications⟩))], []⟩
    script := ⟨[
      .reply 200 none none (Text.encode
        ("\x7b\"pipelines\": [\x7b\"pipelineName\": \"first\"\x7d], "
          ++ "\"nextToken\": \"2\"\x7d").toList),
      .reply 200 none none (Text.encode
        "\x7b\"pipelines\": [\x7b\"pipelineName\": \"second\"\x7d]\x7d".toList)], []⟩
    registry := .empty
    entered := []
    output := ""
    messages := [] }
  calls := []

/-- A file in the root directory. -/
def storePath : Path := ⟨.top, ["store.db"]⟩

theorem content_storePath (content : Content) :
    Tree.content ⟨[(["store.db"], .file content)], []⟩ storePath = .ok content := by
  have hwhole : storePath.text.toList.contains '\x00' = false := by decide +kernel
  have hshort : ¬ Tree.maxPath < storePath.text.utf8ByteSize := by decide +kernel
  rw [Tree.content, Tree.find, Tree.walk, hwhole, if_neg Bool.false_ne_true, if_neg hshort]
  rfl

/-- A database is opened with all switches, and made if it is not there. -/
def openOptions : OpenOptions := ⟨some (.whole 1), some true, some true, false, none⟩

/-- A client of the directory. -/
def testClient : Client := ⟨"http://p.test", .int 1, .int 50⟩

/-- The reads go on in an order of their own: that of the environments completes before that of the
pipelines begins, and the others follow. -/
def environmentsFirst (_ : World) : Schedule :=
  [[.begins .environments, .completes .environments], [.begins .pipelines]]

theorem run_isReport_twoPages :
    twoPages.world.files.HoldsTables storePath twoApplications ∧
    (run ((World.around ⟨⟨"/root", [], none⟩, some storePath, openOptions⟩ testClient).scheduled
      environmentsFirst) ⟨.supplied (.text "my-app"), true, twoPages⟩).1 = .ok () ∧
    ∃ report, IsReport twoApplications testClient twoPages.world.script "my-app" report ∧
      (run ((World.around ⟨⟨"/root", [], none⟩, some storePath, openOptions⟩ testClient).scheduled
        environmentsFirst) ⟨.supplied (.text "my-app"), true, twoPages⟩).2.session.world.output =
          twoPages.world.output ++ (Json.write report ++ "\n") := by
  have htables : twoPages.world.files.HoldsTables storePath twoApplications :=
    ⟨.database ⟨false, twoApplications⟩, ⟨false, twoApplications⟩, content_storePath _, rfl, rfl⟩
  have hok : (run ((World.around ⟨⟨"/root", [], none⟩, some storePath, openOptions⟩
      testClient).scheduled environmentsFirst)
      ⟨.supplied (.text "my-app"), true, twoPages⟩).1.isOk = true := by decide +kernel
  have hrun := eq_ok_of_isOk hok
  have hreport := run_isReport ⟨"/root", [], none⟩ storePath openOptions testClient
    environmentsFirst twoApplications "my-app" twoPages htables hrun
  exact ⟨htables, hrun, hreport⟩

end Showing

end AppReport
