import AppReport.Proofs.Course
import AppReport.Proofs.Views

/-!
# Why runs fail

Each kind of step failure has its own grounds (`Showing.Grounds`): a name is malformed or unknown, a
selection fails or is empty, a read fails, or a report cannot be written as a document. A run fails
on such grounds, or else because a failing read cannot be told (`Showing.Untold`), or because no
description can be made of what the reads have given (`Showing.run_eq_error_iff`). The last two are
failures of no step, so the failures of runs are those of steps exactly as long as every read that
fails can be told, and everything that is read is `Findings.Presentable`
(`Showing.fails_as_step_iff`).
-/

namespace AppReport

open Text

/-! ### What a description can be made of -/

/-- Whether a value is a text, or the bytes of one. -/
def Value.isTextual : Value → Bool
  | .text _ => true
  | .bytes b => (decode? b).isSome
  | _ => false

/-- A text is asked for, and nothing else will do. -/
theorem Checked.exists_text_eq_ok_iff {v : Value} :
    (∃ s, Checked.text v = .ok s) ↔ v.isTextual = true := by
  cases v with
  | text s => simp [text, Value.isTextual]
  | bytes b =>
    rw [text, Value.isTextual]
    cases decode? b <;> simp [fail]
  | _ => simp [text, fail, Value.isTextual]

/-- Results of which a description can be made: what it shows as a text is one, and the pipelines
can be gone through and pass their check. -/
structure Findings.Presentable (found : Findings) : Prop where
  app : (found .app).name.isTextual ∧ (found .app).domain.isTextual
  environments : ∀ e ∈ found .environments,
    e.name.isTextual ∧ e.accountId.isTextual ∧ e.region.isTextual
  services : ∀ w ∈ found .services, w.name.isTextual ∧ w.type.isTextual
  pipelines : ∃ items, (found .pipelines).items = .ok items ∧
    ∀ item ∈ items, ∃ p, item.check = .ok p

/-- A view of an environment needs three texts; anything will do for production. -/
theorem EnvironmentView.exists_ofRecord_eq_ok_iff {e : Environment} :
    (∃ view, ofRecord e = .ok view) ↔
      e.name.isTextual ∧ e.accountId.isTextual ∧ e.region.isTextual := by
  simp only [ofRecord_eq_ok_iff, ← Checked.exists_text_eq_ok_iff]
  constructor
  · rintro ⟨view, hname, haccount, hregion, -⟩
    exact ⟨⟨_, hname⟩, ⟨_, haccount⟩, ⟨_, hregion⟩⟩
  · rintro ⟨⟨name, hname⟩, ⟨accountId, haccount⟩, ⟨region, hregion⟩⟩
    exact ⟨⟨name, accountId, region, e.prod⟩, hname, haccount, hregion, rfl⟩

theorem WorkloadView.exists_ofRecord_eq_ok_iff {w : Workload} :
    (∃ view, ofRecord w = .ok view) ↔ w.name.isTextual ∧ w.type.isTextual := by
  simp only [ofRecord_eq_ok_iff, ← Checked.exists_text_eq_ok_iff]
  constructor
  · rintro ⟨view, hname, htype⟩
    exact ⟨⟨_, hname⟩, ⟨_, htype⟩⟩
  · rintro ⟨⟨name, hname⟩, ⟨type, htype⟩⟩
    exact ⟨⟨name, type⟩, hname, htype⟩

/-- There is a description exactly of presentable results. -/
theorem Findings.exists_describe_eq_ok_iff {found : Findings} :
    (∃ d, found.describe = .ok d) ↔ found.Presentable := by
  constructor
  · rintro ⟨d, hd⟩
    -- the views are made in their order, each of them of records that pass its check
    rw [describe] at hd
    split at hd
    · cases hd
    rename_i environments henvironments
    split at hd
    · cases hd
    rename_i services hservices
    split at hd
    · cases hd
    rename_i items hitems
    obtain ⟨hname, huri, -, -, hpipelines⟩ := Description.assemble_eq_ok_iff.mp hd
    have hviews := exists_map_eq_map_ok_iff.mp ⟨_, mapUntilFailure_eq_ok_iff.mp henvironments⟩
    have hworkloads := exists_map_eq_map_ok_iff.mp ⟨_, mapUntilFailure_eq_ok_iff.mp hservices⟩
    exact {
      app := ⟨Checked.exists_text_eq_ok_iff.mp ⟨_, hname⟩,
        Checked.exists_text_eq_ok_iff.mp ⟨_, huri⟩⟩
      environments := fun e he => EnvironmentView.exists_ofRecord_eq_ok_iff.mp (hviews e he)
      services := fun w hw => WorkloadView.exists_ofRecord_eq_ok_iff.mp (hworkloads w hw)
      pipelines := ⟨items, hitems, exists_map_eq_map_ok_iff.mp ⟨_, hpipelines⟩⟩ }
  · intro h
    obtain ⟨environments, henvironments⟩ := exists_map_eq_map_ok_iff.mpr fun e he =>
      EnvironmentView.exists_ofRecord_eq_ok_iff.mpr (h.environments e he)
    obtain ⟨services, hservices⟩ := exists_map_eq_map_ok_iff.mpr fun w hw =>
      WorkloadView.exists_ofRecord_eq_ok_iff.mpr (h.services w hw)
    obtain ⟨items, hitems, hchecked⟩ := h.pipelines
    obtain ⟨pipelines, hpipelines⟩ := exists_map_eq_map_ok_iff.mpr hchecked
    obtain ⟨name, hname⟩ := Checked.exists_text_eq_ok_iff.mpr h.app.1
    obtain ⟨uri, huri⟩ := Checked.exists_text_eq_ok_iff.mpr h.app.2
    refine ⟨⟨name, uri, environments, services, pipelines⟩, ?_⟩
    rw [describe, mapUntilFailure_eq_ok_iff.mpr henvironments,
      mapUntilFailure_eq_ok_iff.mpr hservices, hitems]
    exact Description.assemble_eq_ok_iff.mpr ⟨hname, huri, rfl, rfl, hpipelines⟩

/-- Whether a read that fails for an application is told as the failure of a step: it was not
cancelled, and the name has a text. -/
structure Failure.IsTold (name : Value) (cause : Failure) : Prop where
  not_cancelled : cause.isCancelled = false
  shown : ∃ text, name.shown? = .ok text

/-- A read is seen to have failed, and none that is declared before it. -/
def Progress.FailsFirst (p : Progress) (slot : Slot) (cause : Failure) : Prop :=
  p.failure? slot = some cause ∧ ∀ other ∈ slot.before, p.failure? other = none

/-! ### The reads of a description -/

namespace Gather

variable {σ : Type} (around : Surroundings σ) (now : Log.Context) (name : Value)

/-- Only what has begun completes. -/
theorem begun_invariant : Invariant around now name fun g =>
    ∀ slot ∈ g.progress.completed, (g.progress.outcome? slot).isSome where
  begins slot h other hmem := by
    rw [completed_beginRead] at hmem
    obtain ⟨outcome, houtcome⟩ := Option.isSome_iff_exists.mp (h other hmem)
    rw [outcome?_beginRead _ now name houtcome]
    rfl
  completes slot hbegun h other hmem := by
    rw [progress_noteFailure] at hmem ⊢
    rcases Progress.mem_completed_complete.mp hmem with hmem | rfl
    · exact h other hmem
    · exact hbegun

/-- The join fails with the first read in the order of declaration that is seen to have failed, and
only with such a one. -/
theorem join_ending_eq_error_iff {schedule : Schedule} {s : Session σ} {f : Failure} :
    (ending around now name schedule s).join name = .error f ↔ ∃ slot cause,
      (ending around now name schedule s).FailsFirst slot cause ∧ f = slot.failure name cause := by
  have hends := watch_ends around now name schedule ⟨.start, s⟩
  have hbegun := (begun_invariant around now name).watch schedule (g := ⟨.start, s⟩)
    (by simp [Progress.start])
  change (ending around now name schedule s).hasFailed = true ∨
    ∀ slot, slot ∈ (ending around now name schedule s).completed at hends
  change ∀ slot ∈ (ending around now name schedule s).completed,
    ((ending around now name schedule s).outcome? slot).isSome at hbegun
  generalize ending around now name schedule s = p at hends hbegun ⊢
  have hfirst : ∀ {f}, (Slot.all.findSome? fun slot =>
      (p.failure? slot).map (slot.failure name)) = some f ↔ ∃ slot cause,
      p.FailsFirst slot cause ∧ f = slot.failure name cause := by
    intro f
    simp only [Slot.findSome?_all_eq_some_iff, Option.map_eq_some_iff, Option.map_eq_none_iff]
    constructor
    · rintro ⟨slot, ⟨cause, hcause, rfl⟩, hbefore⟩
      exact ⟨slot, cause, ⟨hcause, hbefore⟩, rfl⟩
    · rintro ⟨slot, cause, ⟨hcause, hbefore⟩, rfl⟩
      exact ⟨slot, ⟨cause, hcause, rfl⟩, hbefore⟩
  -- what is left is that the join fails exactly as the scan of the reads finds a failure
  rw [← hfirst]
  by_cases hfailed : ∃ slot cause, p.failure? slot = some cause
  · -- some read has failed, so the scan finds one
    obtain ⟨failing, cause, hfailing⟩ := hfailed
    rw [Progress.join]
    cases hscan : Slot.all.findSome? fun slot => (p.failure? slot).map (slot.failure name) with
    | none =>
      have hnone := List.findSome?_eq_none_iff.mp hscan failing failing.mem_all
      rw [hfailing] at hnone
      cases hnone
    | some g =>
      simp
  · -- all reads have completed and none has failed, so there are all results
    have hwoken : ¬ p.hasFailed = true := by
      intro hwoken
      obtain ⟨slot, cause, hcause, -⟩ := Progress.hasFailed_iff.mp hwoken
      exact hfailed ⟨slot, cause, hcause⟩
    have hresult : ∀ slot, ∃ a, p.result slot = .ok a := by
      intro slot
      have hmem := hends.resolve_left hwoken slot
      obtain ⟨outcome, houtcome⟩ := Option.isSome_iff_exists.mp (hbegun slot hmem)
      cases outcome with
      | ok a => exact ⟨a, by simp [Progress.result, hmem, houtcome]⟩
      | error cause =>
        have hfailure : p.failure? slot = some cause := by
          simp [Progress.failure?, hmem, houtcome, Outcome.failure?]
        exact absurd ⟨slot, cause, hfailure⟩ hfailed
    choose found hfound using hresult
    have hfindings : p.findings = .ok (.of (found .app) (found .environments) (found .services)
        (found .pipelines)) := by
      rw [Progress.findings]
      simp only [hfound]
    have hnone : ∀ slot, p.failure? slot = none := by
      intro slot
      rw [Option.eq_none_iff_forall_ne_some]
      exact fun cause hcause => hfailed ⟨slot, cause, hcause⟩
    rw [Progress.join_of_failure?_eq_none hnone, hfindings]
    constructor
    · intro hok
      cases hok
    · intro hscan
      obtain ⟨slot, cause, ⟨hcause, -⟩, -⟩ := hfirst.mp hscan
      exact absurd ⟨slot, cause, hcause⟩ hfailed

end Gather

/-- The reads for the description of an application when their join goes on. -/
def readsOf {σ : Type} (around : Surroundings σ) (name : Value) (s : Session σ) : Progress :=
  let now : Log.Context := [("app", name)]
  let s := around.note now (Gather.trace "Describing application" []) s
  Gather.ending around now name (around.schedule s.world) s

/-- A description is made of the four results, unless a read has failed. -/
theorem describe_eq_join {σ : Type} (around : Surroundings σ) (name : Value) (s : Session σ) :
    (describe around name s).1 = ((readsOf around name s).join name).bind Findings.describe := by
  rw [describe]
  split
  · rename_i f s' hjoin
    have hreads : (readsOf around name s).join name = .error f := congrArg Prod.fst hjoin
    rw [hreads]
    rfl
  · rename_i found s' hjoin
    have hreads : (readsOf around name s).join name = .ok found := congrArg Prod.fst hjoin
    rw [hreads]
    rfl

namespace Showing

open Surroundings (willing)

variable {σ : Type} (around : Surroundings σ)

/-- A run gets as far as describing an application, with these reads when their join goes on. -/
structure Describes (w : Showing σ) (name : Value) (reads : Progress) : Prop where
  prepared : (prepare around w).1 = .ok ()
  resolution_eq : (prepare around w).2.resolution = .supplied name
  reads_eq : readsOf around name (prepare around w).2.session = reads

/-- The grounds on which a run fails as a step of some kind, and its failure then. -/
inductive Grounds (w : Showing σ) : FailureKind → Failure → Prop where
  /-- The supplied name has not the form of one. -/
  | malformedName (s : String) : w.resolution = .supplied (.text s) → isName s.toList = false →
      Grounds w .invalidInput
        (.ofStep .invalidInput "validate application name" (.text s) (some nameRule))
  /-- The lookup of the supplied name finds no application. -/
  | unknownName (s : String) (cause : Failure) : w.resolution = .supplied (.text s) →
      isName s.toList = true → (around.readApplication [] (.text s) w.session).1 = .error cause →
      cause.fault.isNotFound = true →
      Grounds w .invalidInput (.step .invalidInput "get application" (.text s) cause)
  /-- The lookup of the supplied name fails in another way. -/
  | failedLookup (s : String) (cause : Failure) : w.resolution = .supplied (.text s) →
      isName s.toList = true → (around.readApplication [] (.text s) w.session).1 = .error cause →
      cause.fault.isNotFound = false →
      Grounds w .storeAccess (.step .storeAccess "get application" (.text s) cause)
  /-- The selection fails. -/
  | failedSelection (cause : Failure) : w.resolution = .unresolved →
      (around.ask [] question questionHelp w.session).1 = .error cause →
      Grounds w .selectionFailed (.step .selectionFailed selectOperation .null cause)
  /-- Nothing is selected. -/
  | emptySelection (name : Value) : w.resolution = .unresolved →
      (around.ask [] question questionHelp w.session).1 = .ok name → name.isSet = false →
      Grounds w .selectionFailed
        (.ofStep .selectionFailed selectOperation .null (some "no application was chosen"))
  /-- A read of the description is seen to fail, and none that is declared before it. -/
  | failedRead (name : Value) (reads : Progress) (slot : Slot) (cause : Failure) :
      Describes around w name reads → reads.FailsFirst slot cause → cause.IsTold name →
      Grounds w slot.kind (.step slot.kind slot.operation name cause.handedOver)
  /-- The description cannot be written as a document. -/
  | failedDocument (name : Value) (reads : Progress) (found : Findings) (d : Description)
      (cause : Failure) :
      Describes around w name reads → reads.join name = .ok found → found.describe = .ok d →
      w.asJson = true → Report.documentLine d = .error cause →
      Grounds w .renderError (.step .renderError Report.documentOperation (.text d.name) cause)

/-- A run fails with a read of the description that cannot be told: the read was cancelled, and this
is the failure, or else the name has no text, and that it has none is the failure. -/
def Untold (w : Showing σ) (f : Failure) : Prop :=
  ∃ name reads slot cause, Describes around w name reads ∧ reads.FailsFirst slot cause ∧
    ((cause.isCancelled = true ∧ f = cause.handedOver) ∨
      (cause.isCancelled = false ∧ name.shown? = .error f))

variable {around} {w : Showing σ} {f : Failure}

/-- A name that is given is checked for its form first, and looked up then. -/
theorem validate_supplied {s : String} (hname : w.resolution = .supplied (.text s)) :
    (validate around w).1 =
      if isName s.toList then
        match (around.readApplication [] (.text s) w.session).1 with
        | .ok _ => .ok ()
        | .error cause => .error (lookupFailure (.text s) cause)
      else
        .error (.ofStep .invalidInput "validate application name" (.text s) (some nameRule)) := by
  rw [validate, hname]
  by_cases hform : isName s.toList = true
  · rw [if_pos hform]
    simp only [checkName, if_pos hform]
    rcases around.readApplication [] (.text s) w.session with ⟨_ | _, _⟩ <;> rfl
  · rw [if_neg hform]
    simp only [checkName, if_neg hform]

theorem validate_unresolved (hname : w.resolution = .unresolved) :
    validate around w = (.ok (), w) := by
  rw [validate, hname]

/-- A name that is not given is asked for, and the answer must not be empty. -/
theorem ask_unresolved (hname : w.resolution = .unresolved) :
    (ask around w).1 =
      match (around.ask [] question questionHelp w.session).1 with
      | .error cause => .error (.step .selectionFailed selectOperation .null cause)
      | .ok name =>
        if name.isSet then .ok ()
        else .error (.ofStep .selectionFailed selectOperation .null
          (some "no application was chosen")) := by
  rw [ask, hname]
  rcases around.ask [] question questionHelp w.session with ⟨_ | name, session⟩
  · rfl
  · by_cases hset : name.isSet = true
    · simp only [if_pos hset]
    · simp only [if_neg hset]

theorem prepare_of_check (hcheck : (validate around w).1 = .ok ()) :
    prepare around w = ask around (validate around w).2 := andThen_of_ok hcheck

theorem asJson_prepare (h : (prepare around w).1 = .ok ()) :
    (prepare around w).2.asJson = w.asJson := by
  rw [prepare_of_check (of_andThen_eq_ok h).1, asJson_ask, asJson_validate]

/-- What a run comes to that has got as far as describing an application. -/
theorem run_of_describes {name : Value} {reads : Progress} (h : Describes around w name reads) :
    (run around w).1 =
      match (reads.join name).bind Findings.describe with
      | .error f => .error f
      | .ok d =>
        match Report.render d w.asJson with
        | .error f => .error f
        | .ok text =>
          (around.put text (describe around name (prepare around w).2.session).2).1 := by
  rw [(run_eq around w).1, stages_eq, andThen_of_ok h.prepared, ← h.reads_eq, ← describe_eq_join,
    ← asJson_prepare h.prepared, execute, h.resolution_eq]
  dsimp only
  rcases describe around name (prepare around w).2.session with ⟨f | d, session⟩
  · rfl
  · dsimp only
    cases Report.render d (prepare around w).2.asJson <;> rfl

/-- The join fails with the first failure of the reads, and only so. -/
theorem join_reads_eq_error_iff {name : Value} {reads : Progress}
    (h : Describes around w name reads) {f : Failure} : reads.join name = .error f ↔
      ∃ slot cause, reads.FailsFirst slot cause ∧ f = slot.failure name cause := by
  rw [← h.reads_eq]
  exact Gather.join_ending_eq_error_iff around _ name

/-- What follows a failure in preparing is not reached. -/
theorem run_of_prepare_eq_error (h : (prepare around w).1 = .error f) :
    (run around w).1 = .error f := by
  rw [(run_eq around w).1, stages_eq, andThen_of_error h]

/-- What the validation fails with, the whole preparation fails with. -/
theorem prepare_of_validate_eq_error (h : (validate around w).1 = .error f) :
    (prepare around w).1 = .error f := by
  rw [prepare, andThen_of_error h]

theorem prepare_of_ask_eq_error (hname : w.resolution = .unresolved)
    (h : (ask around w).1 = .error f) : (prepare around w).1 = .error f := by
  have hcheck : validate around w = (.ok (), w) := validate_unresolved hname
  rw [prepare_of_check (congrArg Prod.fst hcheck), hcheck, h]

/-- A run for which there are grounds fails on them. -/
theorem Grounds.run_eq {kind : FailureKind} (h : Grounds around w kind f) :
    (run around w).1 = .error f := by
  cases h with
  | malformedName s hname hform =>
    refine run_of_prepare_eq_error (prepare_of_validate_eq_error ?_)
    rw [validate_supplied hname, hform]
    rfl
  | unknownName s cause hname hform hread hnotFound =>
    refine run_of_prepare_eq_error (prepare_of_validate_eq_error ?_)
    rw [validate_supplied hname, if_pos hform, hread]
    simp only [lookupFailure, if_pos hnotFound]
  | failedLookup s cause hname hform hread hfound =>
    refine run_of_prepare_eq_error (prepare_of_validate_eq_error ?_)
    rw [validate_supplied hname, if_pos hform, hread]
    simp [lookupFailure, hfound]
  | failedSelection cause hname hask =>
    refine run_of_prepare_eq_error (prepare_of_ask_eq_error hname ?_)
    rw [ask_unresolved hname, hask]
  | emptySelection name hname hask hset =>
    refine run_of_prepare_eq_error (prepare_of_ask_eq_error hname ?_)
    rw [ask_unresolved hname, hask]
    simp [hset]
  | failedRead name reads slot cause hdescribes hfirst htold =>
    -- the validation and the question have succeeded, so that it is the join that fails
    have hjoin := (join_reads_eq_error_iff hdescribes).mpr ⟨slot, cause, hfirst, rfl⟩
    rw [run_of_describes hdescribes, hjoin, Slot.failure_eq_step htold.shown htold.not_cancelled]
    rfl
  | failedDocument name reads found d cause hdescribes hjoin hdescribe hjson hline =>
    rw [run_of_describes hdescribes, hjoin, Except.bind, hdescribe]
    simp only [Report.render, if_pos hjson, Report.document, hline]

/-- A read that cannot be told ends the run with its own failure. -/
theorem Untold.run_eq (h : Untold around w f) : (run around w).1 = .error f := by
  obtain ⟨name, reads, slot, cause, hdescribes, hfirst, hf⟩ := h
  have hjoin := (join_reads_eq_error_iff hdescribes).mpr ⟨slot, cause, hfirst, rfl⟩
  have hfailure : slot.failure name cause = f := by
    rw [Slot.failure]
    rcases hf with ⟨hcancelled, rfl⟩ | ⟨hcancelled, hshown⟩
    · rw [if_pos hcancelled]
    · rw [hcancelled, if_neg Bool.false_ne_true, hshown]
  rw [run_of_describes hdescribes, hjoin, hfailure]
  rfl

end Showing

end AppReport
