import AppReport.Describe
import Mathlib.Tactic.Choose

/-!
# Gathering under every schedule

Whatever the order in which the reads of a description begin and complete, the join ends either with
the results of all four reads, or with the failure of a read that has failed
(`Gather.gather_answering`). This is told as the failure of a step as long as the name has a text
and no read is cancelled (`Outcomes.AreTold`); without that something else goes through
(`Gather.gather_untold`). Which failure it is depends on the order: it is that of the first failing
read in the order of declaration if and only if this read has completed when the join goes on, and
so for all orders only if no other read fails (`Gather.gather_first_failure_iff`).

Both follow from an invariant of the reads under way (`Gather.sound_invariant`) and from the two
ways in which watching ends (`Gather.watch_ends`).
-/

namespace AppReport

/-- The surroundings in which the four reads give certain outcomes, whatever else they do. -/
def Surroundings.answering {σ : Type} (around : Surroundings σ) (o : Outcomes) : Surroundings σ :=
  { around with
    getApplication := fun now name s => (o .app, (around.getApplication now name s).2)
    listEnvironments := fun now name s => (o .environments, (around.listEnvironments now name s).2)
    listServices := fun now name s => (o .services, (around.listServices now name s).2)
    findPipelines := fun now key value s =>
      (o .pipelines, (around.findPipelines now key value s).2) }

/-- Surroundings that always answer: there is one application, without resources. -/
def Surroundings.willing : Surroundings Unit where
  getApplication _ name s := (.ok ⟨name, .text "", .text "", .null, []⟩, s)
  listEnvironments _ _ s := (.ok [], s)
  listServices _ _ s := (.ok [], s)
  findPipelines _ _ _ s := (.ok (.records []), s)
  select _ _ _ s := (.ok (.text "my-app"), s)
  write _ s := (.ok (), s)
  log _ _ s := s
  schedule _ := []

/-- Whether a read fails. -/
def Outcomes.Fails (o : Outcomes) (slot : Slot) : Prop := ∃ cause, o slot = .error cause

/-- What the reads for an application give, as far as a failure among it can be told as that of a
step: the name has a text, no read is cancelled, and none fails with the end of an iteration, which
no task can pass on, so that it would be waited for without end. -/
structure Outcomes.AreTold (o : Outcomes) (name : Value) : Prop where
  shown : ∃ text, name.shown? = .ok text
  not_cancelled : ∀ slot cause, o slot = .error cause → cause.isCancelled = false
  not_stopped : ∀ slot cause, o slot = .error cause → cause.kind? ≠ some .stopIteration

namespace Slot

theorem mem_all (slot : Slot) : slot ∈ all := by
  cases slot <;> simp [all]

/-- The reads that are declared before a read. -/
def before (slot : Slot) : List Slot := all.takeWhile (· ≠ slot)

/-- Of two reads one is declared before the other. -/
theorem eq_or_mem_before (slot other : Slot) :
    slot = other ∨ slot ∈ other.before ∨ other ∈ slot.before := by
  cases slot <;> cases other <;> decide

/-- The first of all reads to give a value is the one before which none does. -/
theorem findSome?_all_eq_some_iff {β : Type} {f : Slot → Option β} {b : β} :
    all.findSome? f = some b ↔ ∃ slot, f slot = some b ∧ ∀ other ∈ slot.before, f other = none := by
  rw [List.findSome?_eq_some_iff]
  constructor
  · rintro ⟨front, slot, after, hall, hslot, hfront⟩
    -- a slot occurs once, so that what stands in front of it is what is declared before it
    have hnodup : (front ++ slot :: after).Nodup := hall ▸ by decide
    have hne : ∀ other ∈ front, decide (other ≠ slot) = true := fun other hother =>
      decide_eq_true ((List.nodup_append.mp hnodup).2.2 other hother slot List.mem_cons_self)
    refine ⟨slot, hslot, ?_⟩
    rwa [before, hall, List.takeWhile_append_of_pos hne, List.takeWhile_cons_of_neg (by simp),
      List.append_nil]
  · rintro ⟨slot, hslot, hbefore⟩
    obtain ⟨after, hall⟩ : ∃ after, all = slot.before ++ slot :: after := by
      cases slot <;> exact ⟨_, rfl⟩
    exact ⟨slot.before, slot, after, hall, hslot, hbefore⟩

/-- A read that is not cancelled fails as a step if the name has a text. -/
theorem failure_eq_step {slot : Slot} {name : Value} {cause : Failure}
    (hshown : ∃ text, name.shown? = .ok text) (hcause : cause.isCancelled = false) :
    slot.failure name cause = .step slot.kind slot.operation name cause.handedOver := by
  obtain ⟨text, htext⟩ := hshown
  rw [failure, hcause, if_neg Bool.false_ne_true, htext]

/-- Failures of the steps of different reads differ. -/
theorem step_injective {slot other : Slot} {name : Value} {cause cause' : Failure}
    (h : Failure.step slot.kind slot.operation name cause =
      .step other.kind other.operation name cause') : slot = other := by
  simp only [Failure.step, Failure.causedBy, Failure.mk.injEq, Fault.step.injEq,
    StepFailure.mk.injEq] at h
  -- the name of the operation tells the reads apart
  have hoperation := h.1.2.1
  cases slot <;> cases other <;> first | rfl | exact absurd hoperation (by decide)

end Slot

/-- A read fails, and none that is declared before it does. -/
def Outcomes.FailsFirst (o : Outcomes) (slot : Slot) (cause : Failure) : Prop :=
  o slot = .error cause ∧ ∀ other ∈ slot.before, ¬ o.Fails other

namespace Outcomes.AreTold

variable {o : Outcomes} {name : Value} {slot other : Slot} {cause cause' : Failure}

theorem failure_eq (h : o.AreTold name) (hcause : o slot = .error cause) :
    slot.failure name cause = .step slot.kind slot.operation name cause.handedOver :=
  Slot.failure_eq_step h.shown (h.not_cancelled slot cause hcause)

/-- The failures of different reads are told apart: each names its own operation. -/
theorem failure_injective (h : o.AreTold name) (hcause : o slot = .error cause)
    (hcause' : o other = .error cause')
    (hsame : slot.failure name cause = other.failure name cause') : slot = other := by
  rw [h.failure_eq hcause, h.failure_eq hcause'] at hsame
  exact Slot.step_injective hsame

end Outcomes.AreTold

/-! ### Progress -/

namespace Progress

variable {p : Progress} {slot other : Slot}

@[simp] theorem outcome?_put_self (p : Progress) (slot : Slot)
    (outcome : Except Failure slot.Result) :
    (p.put slot outcome).outcome? slot = some outcome := by
  simp [put]

theorem outcome?_put_of_ne (p : Progress) (h : slot ≠ other)
    (outcome : Except Failure slot.Result) :
    (p.put slot outcome).outcome? other = p.outcome? other := by
  simp [put, h]

@[simp] theorem outcome?_complete (p : Progress) (slot other : Slot) :
    (p.complete slot).outcome? other = p.outcome? other := rfl

/-- One more read has completed. -/
@[simp] theorem mem_completed_complete :
    other ∈ (p.complete slot).completed ↔ other ∈ p.completed ∨ other = slot := by
  simp [complete]

/-- A cancelled read is no failure that ends the watching. -/
theorem hasFailed_iff : p.hasFailed = true ↔
    ∃ slot cause, p.failure? slot = some cause ∧ cause.isCancelled = false := by
  simp only [hasFailed, List.any_eq_true, Option.any_eq_true, Bool.not_eq_true']
  exact ⟨fun ⟨slot, _, h⟩ => ⟨slot, h⟩, fun ⟨slot, h⟩ => ⟨slot, slot.mem_all, h⟩⟩

/-- Where no read has failed that has completed, the join gives the results. -/
theorem join_of_failure?_eq_none (h : ∀ slot, p.failure? slot = none) (name : Value) :
    p.join name = p.findings := by
  have hall : (Slot.all.findSome? fun slot => (p.failure? slot).map (slot.failure name)) = none :=
    List.findSome?_eq_none_iff.mpr fun slot _ => by rw [h slot, Option.map_none]
  unfold join
  rw [hall]

/-- The results of all reads are those of each. -/
theorem result_of_findings {found : Findings} (h : p.findings = .ok found) (slot : Slot) :
    p.result slot = .ok (found slot) := by
  unfold findings at h
  split at h
  · cases h
  rename_i happ
  split at h
  · cases h
  rename_i henvironments
  split at h
  · cases h
  rename_i hservices
  split at h
  · cases h
  rename_i hpipelines
  cases h
  cases slot with
  | app => exact happ
  | environments => exact henvironments
  | services => exact hservices
  | pipelines => exact hpipelines

/-- A join that succeeds gives what the reads have given. -/
theorem outcome?_of_join {name : Value} {found : Findings} (h : p.join name = .ok found)
    (slot : Slot) : p.outcome? slot = some (.ok (found slot)) := by
  unfold join at h
  split at h
  · cases h
  have hresult := result_of_findings h slot
  unfold result at hresult
  split at hresult
  · cases houtcome : p.outcome? slot with
    | none =>
      -- the result would be that of a read that was given up
      rw [houtcome] at hresult
      cases hresult
    | some outcome =>
      rw [houtcome, Option.getD_some] at hresult
      rw [hresult]
  · cases hresult

end Progress

namespace Gather

variable {σ : Type} (around : Surroundings σ) (now : Log.Context) (name : Value)

/-! ### What every event keeps -/

@[simp] theorem progress_noteFailure (slot : Slot) (g : State σ) :
    (noteFailure around now name slot g).progress = g.progress := by
  unfold noteFailure
  split
  · split <;> rfl
  · rfl

/-- A read that has begun stays begun, with its outcome. -/
theorem outcome?_beginRead {slot other : Slot} {g : State σ}
    {outcome : Except Failure other.Result} (h : g.progress.outcome? other = some outcome) :
    (beginRead around now name slot g).progress.outcome? other = some outcome := by
  unfold beginRead
  split
  · exact h
  · rename_i hnone
    by_cases heq : slot = other
    · -- a read begins only once
      subst heq
      rw [h] at hnone
      cases hnone
    · exact (Progress.outcome?_put_of_ne _ heq _).trans h

/-- A read that has begun has an outcome. -/
theorem isSome_outcome?_beginRead (slot : Slot) (g : State σ) :
    ((beginRead around now name slot g).progress.outcome? slot).isSome := by
  unfold beginRead
  split
  · rename_i hsome
    rw [hsome]
    rfl
  · simp

/-- A property of the reads under way that stays when a read begins, and when one completes that has
begun. -/
structure Invariant (P : State σ → Prop) : Prop where
  begins : ∀ {g : State σ} (slot : Slot), P g → P (beginRead around now name slot g)
  completes : ∀ {g : State σ} (slot : Slot), (g.progress.outcome? slot).isSome → P g →
    P (noteFailure around now name slot { g with progress := g.progress.complete slot })

namespace Invariant

variable {around now name} {P : State σ → Prop} {g : State σ}

theorem happen (h : Invariant around now name P) (event : ReadEvent) (hg : P g) :
    P (happen around now name g event) := by
  cases event with
  | begins slot => exact h.begins slot hg
  | completes slot =>
    unfold Gather.happen completeRead
    dsimp only
    split
    · exact hg
    · exact h.completes slot (isSome_outcome?_beginRead around now name slot g) (h.begins slot hg)

/-- What each event keeps, all of them keep. -/
theorem foldl (h : Invariant around now name P) (events : List ReadEvent) (hg : P g) :
    P (events.foldl (Gather.happen around now name) g) := by
  induction events generalizing g with
  | nil => exact hg
  | cons event events ih => exact ih (h.happen event hg)

/-- An invariant holds when the watching ends. -/
theorem watch (h : Invariant around now name P) (schedule : Schedule) (hg : P g) :
    P (watch around now name g schedule) := by
  induction schedule generalizing g with
  | nil =>
    -- where the schedule says nothing more, all reads begin and complete
    exact h.foldl remaining hg
  | cons events later ih =>
    have hnext := h.foldl events hg
    unfold Gather.watch
    dsimp only
    split
    · exact hnext
    · exact ih hnext

end Invariant

@[simp] theorem completed_beginRead (slot : Slot) (g : State σ) :
    (beginRead around now name slot g).progress.completed = g.progress.completed := by
  unfold beginRead
  split <;> rfl

theorem mem_completed_completeRead {slot other : Slot} {g : State σ} :
    other ∈ (completeRead around now name slot g).progress.completed ↔
      other ∈ g.progress.completed ∨ other = slot := by
  unfold completeRead
  split
  · rename_i hmem
    have hslot : slot ∈ g.progress.completed := by simpa using hmem
    constructor
    · exact Or.inl
    · rintro (h | rfl)
      · exact h
      · exact hslot
  · simp

/-- A read that has completed stays so. -/
theorem mem_completed_happen {slot : Slot} {g : State σ} (event : ReadEvent)
    (h : slot ∈ g.progress.completed) :
    slot ∈ (happen around now name g event).progress.completed := by
  cases event with
  | begins other => simpa [happen] using h
  | completes other => exact (mem_completed_completeRead around now name).mpr (Or.inl h)

/-- A read has completed after its completion. -/
theorem mem_completed_foldl (events : List ReadEvent) (g : State σ) (slot : Slot)
    (h : slot ∈ g.progress.completed ∨ .completes slot ∈ events) :
    slot ∈ (events.foldl (happen around now name) g).progress.completed := by
  induction events generalizing g with
  | nil => simpa using h
  | cons event events ih =>
    rw [List.foldl_cons]
    refine ih _ ?_
    rcases h with h | h
    · exact Or.inl (mem_completed_happen around now name event h)
    · rcases List.mem_cons.mp h with rfl | h
      · exact Or.inl ((mem_completed_completeRead around now name).mpr (Or.inr rfl))
      · exact Or.inr h

/-- Watching ends when a read has failed, or else when all have completed. -/
theorem watch_ends (schedule : Schedule) (g : State σ) :
    (watch around now name g schedule).progress.hasFailed = true ∨
      ∀ slot, slot ∈ (watch around now name g schedule).progress.completed := by
  induction schedule generalizing g with
  | nil =>
    refine Or.inr fun slot => mem_completed_foldl around now name remaining g slot (Or.inr ?_)
    exact List.mem_append_right _ (List.mem_map_of_mem slot.mem_all)
  | cons events later ih =>
    unfold watch
    dsimp only
    split
    · rename_i hfailed
      exact Or.inl hfailed
    · exact ih _

/-! ### Reads with given outcomes -/

/-- The reads are as far as `p` says, and give the outcomes `o`. -/
structure Sound (o : Outcomes) (p : Progress) : Prop where
  /-- A read that has begun gives its own outcome. -/
  outcome?_eq : ∀ slot outcome, p.outcome? slot = some outcome → outcome = o slot
  /-- Only what has begun completes. -/
  begun : ∀ slot ∈ p.completed, (p.outcome? slot).isSome

namespace Sound

variable {o : Outcomes} {p : Progress}

theorem start (o : Outcomes) : Sound o .start where
  outcome?_eq := by simp [Progress.start]
  begun := by simp [Progress.start]

/-- A read that has completed has the outcome that it should have. -/
theorem outcome?_of_mem (h : Sound o p) {slot : Slot} (hmem : slot ∈ p.completed) :
    p.outcome? slot = some (o slot) := by
  obtain ⟨outcome, houtcome⟩ := Option.isSome_iff_exists.mp (h.begun slot hmem)
  rw [houtcome, h.outcome?_eq slot outcome houtcome]

/-- The reads that have failed are those that have completed and should fail. -/
theorem failure?_eq_some_iff (h : Sound o p) {slot : Slot} {cause : Failure} :
    p.failure? slot = some cause ↔ slot ∈ p.completed ∧ o slot = .error cause := by
  unfold Progress.failure?
  by_cases hmem : slot ∈ p.completed
  · simp only [List.contains_eq_mem, hmem, decide_true, if_true, h.outcome?_of_mem hmem,
      Option.bind_some, true_and]
    cases o slot with
    | ok a => simp [Outcome.failure?]
    | error f => simp [Outcome.failure?]
  · simp [hmem]

/-- No failure is known of a read that succeeds or has not completed. -/
theorem failure?_eq_none_iff (h : Sound o p) {slot : Slot} :
    p.failure? slot = none ↔ (slot ∈ p.completed → ¬ o.Fails slot) := by
  constructor
  · rintro hnone hmem ⟨cause, hcause⟩
    rw [h.failure?_eq_some_iff.mpr ⟨hmem, hcause⟩] at hnone
    cases hnone
  · intro hok
    cases hcase : p.failure? slot with
    | none => rfl
    | some cause =>
      obtain ⟨hmem, hcause⟩ := h.failure?_eq_some_iff.mp hcase
      exact absurd ⟨cause, hcause⟩ (hok hmem)

theorem result_of_mem (h : Sound o p) {slot : Slot} (hmem : slot ∈ p.completed) :
    p.result slot = o slot := by
  simp [Progress.result, hmem, h.outcome?_of_mem hmem]

/-- With all reads completed, the results are those of all reads. -/
theorem findings_eq_ok (h : Sound o p) (hall : ∀ slot, slot ∈ p.completed) {found : Findings}
    (hfound : ∀ slot, o slot = .ok (found slot)) : p.findings = .ok found := by
  have hresult : ∀ slot, p.result slot = .ok (found slot) := fun slot => by
    rw [h.result_of_mem (hall slot), hfound slot]
  unfold Progress.findings
  simp only [hresult]
  congr 1
  funext slot
  cases slot <;> rfl

/-- The join fails with the first completed failing read in the order of declaration. -/
theorem join_of_failure? (h : Sound o p) {failing : Slot} {cause : Failure}
    (hfailing : p.failure? failing = some cause) (name : Value) :
    ∃ slot cause, slot ∈ p.completed ∧ o slot = .error cause ∧
      (∀ other ∈ slot.before, other ∈ p.completed → ¬ o.Fails other) ∧
      p.join name = .error (slot.failure name cause) := by
  unfold Progress.join
  cases hfirst : Slot.all.findSome? fun slot => (p.failure? slot).map (slot.failure name) with
  | none =>
    have := List.findSome?_eq_none_iff.mp hfirst failing failing.mem_all
    simp [hfailing] at this
  | some f =>
    obtain ⟨slot, hslot, hbefore⟩ := Slot.findSome?_all_eq_some_iff.mp hfirst
    obtain ⟨cause, hcause, rfl⟩ := Option.map_eq_some_iff.mp hslot
    obtain ⟨hmem, herror⟩ := h.failure?_eq_some_iff.mp hcause
    refine ⟨slot, cause, hmem, herror, fun other hother => ?_, rfl⟩
    exact h.failure?_eq_none_iff.mp (by simpa using hbefore other hother)

/-- Once a read has completed that fails before all others, the join fails with it. -/
theorem join_of_failsFirst (h : Sound o p) {slot : Slot} {cause : Failure}
    (hfirst : o.FailsFirst slot cause) (hmem : slot ∈ p.completed) (name : Value) :
    p.join name = .error (slot.failure name cause) := by
  have hfailed : p.failure? slot = some cause := h.failure?_eq_some_iff.mpr ⟨hmem, hfirst.1⟩
  obtain ⟨other, cause', -, herror, hbefore, hjoin⟩ := h.join_of_failure? hfailed name
  -- the scan ends neither after this read, which has completed, nor before it, where none fails
  rcases slot.eq_or_mem_before other with rfl | hlt | hlt
  · rw [hfirst.1] at herror
    cases herror
    exact hjoin
  · exact absurd ⟨cause, hfirst.1⟩ (hbefore slot hlt hmem)
  · exact absurd ⟨cause', herror⟩ (hfirst.2 other hlt)

end Sound

theorem fetch_answering (o : Outcomes) (slot : Slot) (s : Session σ) :
    (fetch (around.answering o) now name slot s).1 = o slot := by
  cases slot <;> rfl

theorem Sound.beginRead {o : Outcomes} {g : State σ} (h : Sound o g.progress) (slot : Slot) :
    Sound o (beginRead (around.answering o) now name slot g).progress where
  outcome?_eq other outcome houtcome := by
    unfold Gather.beginRead at houtcome
    split at houtcome
    · exact h.outcome?_eq other outcome houtcome
    · by_cases heq : slot = other
      · subst heq
        simp only [Progress.outcome?_put_self, Option.some.injEq] at houtcome
        rw [← houtcome, fetch_answering]
      · -- the other reads stay as they were
        rw [Progress.outcome?_put_of_ne _ heq] at houtcome
        exact h.outcome?_eq other outcome houtcome
  begun other hmem := by
    rw [completed_beginRead] at hmem
    obtain ⟨outcome, houtcome⟩ := Option.isSome_iff_exists.mp (h.begun other hmem)
    rw [outcome?_beginRead _ now name houtcome]
    rfl

/-- Every event keeps the outcomes sound. -/
theorem sound_invariant (o : Outcomes) :
    Invariant (around.answering o) now name fun g => Sound o g.progress where
  begins slot h := h.beginRead around now name slot
  completes slot hbegun h := by
    rw [progress_noteFailure]
    refine ⟨h.outcome?_eq, fun other hmem => ?_⟩
    rcases Progress.mem_completed_complete.mp hmem with hmem | rfl
    · exact h.begun other hmem
    · exact hbegun

/-- The reads when the join goes on. -/
def ending (schedule : Schedule) (s : Session σ) : Progress :=
  (watch around now name ⟨.start, s⟩ schedule).progress

theorem sound_ending (o : Outcomes) (schedule : Schedule) (s : Session σ) :
    Sound o (ending (around.answering o) now name schedule s) :=
  (sound_invariant around now name o).watch schedule (Sound.start o)

/-! ### What the join comes to -/

/-- When the join goes on, either all reads have completed and none has failed, or the join fails
with a read that has completed and failed. -/
theorem gather_cases (o : Outcomes) (schedule : Schedule) (s : Session σ) :
    (∃ found : Findings, (∀ slot, o slot = .ok (found slot)) ∧
      (gather (around.answering o) now name schedule s).1 = .ok found) ∨
    ∃ slot cause, o slot = .error cause ∧
      slot ∈ (ending (around.answering o) now name schedule s).completed ∧
      (gather (around.answering o) now name schedule s).1 = .error (slot.failure name cause) := by
  have hsound := sound_ending around now name o schedule s
  by_cases hfailed : ∃ slot cause,
      (ending (around.answering o) now name schedule s).failure? slot = some cause
  · obtain ⟨failing, cause, hfailing⟩ := hfailed
    obtain ⟨slot, cause, hmem, herror, -, hjoin⟩ := hsound.join_of_failure? hfailing name
    exact Or.inr ⟨slot, cause, herror, hmem, hjoin⟩
  · have hnone : ∀ slot,
        (ending (around.answering o) now name schedule s).failure? slot = none := by
      intro slot
      rw [Option.eq_none_iff_forall_ne_some]
      exact fun cause hcause => hfailed ⟨slot, cause, hcause⟩
    -- nobody was woken by a failure, so that all reads have completed
    have hall : ∀ slot, slot ∈ (ending (around.answering o) now name schedule s).completed := by
      refine (watch_ends (around.answering o) now name schedule ⟨.start, s⟩).resolve_left ?_
      intro hwoken
      obtain ⟨slot, cause, hcause, -⟩ := Progress.hasFailed_iff.mp hwoken
      exact hfailed ⟨slot, cause, hcause⟩
    have hok : ∀ slot, ∃ a, o slot = .ok a := by
      intro slot
      have hsucceeds := hsound.failure?_eq_none_iff.mp (hnone slot) (hall slot)
      cases hslot : o slot with
      | ok a => exact ⟨a, rfl⟩
      | error cause => exact absurd ⟨cause, hslot⟩ hsucceeds
    choose found hfound using hok
    refine Or.inl ⟨found, hfound, ?_⟩
    exact (Progress.join_of_failure?_eq_none hnone name).trans (hsound.findings_eq_ok hall hfound)

/-- Four reads that succeed are joined to their results, whatever the schedule. -/
theorem gather_of_ok {o : Outcomes} {found : Findings} (hfound : ∀ slot, o slot = .ok (found slot))
    (schedule : Schedule) (s : Session σ) :
    (gather (around.answering o) now name schedule s).1 = .ok found := by
  rcases gather_cases around now name o schedule s with ⟨other, hother, hjoin⟩ | ⟨slot, cause, h, -⟩
  · have heq : other = found := by
      funext slot
      exact Except.ok.inj ((hother slot).symm.trans (hfound slot))
    rw [hjoin, heq]
  · rw [hfound slot] at h
    cases h

/-- If a read fails, the join fails with a read that has completed and failed. -/
theorem gather_of_fails {o : Outcomes} (hfails : ∃ slot, o.Fails slot) (schedule : Schedule)
    (s : Session σ) :
    ∃ slot cause, o slot = .error cause ∧
      slot ∈ (ending (around.answering o) now name schedule s).completed ∧
      (gather (around.answering o) now name schedule s).1 = .error (slot.failure name cause) := by
  rcases gather_cases around now name o schedule s with ⟨found, hfound, -⟩ | h
  · obtain ⟨slot, cause, hcause⟩ := hfails
    rw [hfound slot] at hcause
    cases hcause
  · exact h

/-- A description is what the join comes to, with its views, after a log record. -/
theorem describe_eq_gather (around : Surroundings σ) (name : Value) (s : Session σ) :
    ∃ now record schedule, describe around name s =
      ((gather around now name schedule (around.note now record s)).1.bind Findings.describe,
        (gather around now name schedule (around.note now record s)).2) := by
  let now : Log.Context := [("app", name)]
  let record := trace "Describing application" []
  refine ⟨now, record, around.schedule (around.note now record s).world, ?_⟩
  unfold describe
  dsimp only [now, record]
  split <;> (rename_i hjoin; rw [hjoin]; rfl)

/-- Two reads that fail: the application is not found, and its environments cannot be read. -/
def twoFailures : Outcomes
  | .app => .error (.of .unknownApplication "application my-app not found")
  | .environments => .error (.of .runtime "database is locked")
  | .services => .ok []
  | .pipelines => .ok (.records [])

theorem areTold_twoFailures : twoFailures.AreTold (.text "my-app") where
  shown := ⟨"my-app", rfl⟩
  not_cancelled slot cause h := by
    cases slot <;> cases h <;> rfl
  not_stopped slot cause h := by
    cases slot <;> cases h <;> decide

/-- A failing read that completes before any other is the failure of the join. -/
theorem gather_of_completes {o : Outcomes} {slot : Slot} {cause : Failure}
    (hcause : o slot = .error cause) (htold : cause.isCancelled = false) (s : Session σ) :
    (gather (around.answering o) now name [[.completes slot]] s).1 =
      .error (slot.failure name cause) := by
  let g := completeRead (around.answering o) now name slot ⟨.start, s⟩
  have hsound : Sound o g.progress :=
    (sound_invariant around now name o).happen (g := ⟨.start, s⟩) (.completes slot) (Sound.start o)
  have hmem : ∀ other, other ∈ g.progress.completed ↔ other = slot := fun other => by
    simp [g, mem_completed_completeRead, Progress.start]
  have hfailing : g.progress.failure? slot = some cause :=
    hsound.failure?_eq_some_iff.mpr ⟨(hmem slot).mpr rfl, hcause⟩
  have hfailed : g.progress.hasFailed = true :=
    Progress.hasFailed_iff.mpr ⟨slot, cause, hfailing, htold⟩
  -- watching ends with the first event, and nothing else has completed then
  have hwatch : watch (around.answering o) now name ⟨.start, s⟩ [[.completes slot]] = g := by
    unfold watch
    exact if_pos hfailed
  obtain ⟨other, cause', hcompleted, herror, -, hjoin⟩ := hsound.join_of_failure? hfailing name
  obtain rfl := (hmem other).mp hcompleted
  rw [hcause, Except.error.injEq] at herror
  unfold gather
  rw [hwatch, herror]
  exact hjoin

/-- As far as failures can be told, the failure of the join is that of the first failing read in the
order of declaration if and only if this read has completed when the join goes on. Hence it is so
for every schedule only if no other read fails, and only then two schedules never differ in what the
join comes to. -/
theorem gather_first_failure_iff (around : Surroundings σ) (o : Outcomes) (now : Log.Context)
    (name : Value) (s : Session σ) (htold : o.AreTold name) :
    (∀ slot cause, o.FailsFirst slot cause → ∀ schedule,
      ((gather (around.answering o) now name schedule s).1 = .error (slot.failure name cause) ↔
        slot ∈ (ending (around.answering o) now name schedule s).completed)) ∧
    (∀ slot cause, o.FailsFirst slot cause →
      ((∀ schedule, (gather (around.answering o) now name schedule s).1 =
        .error (slot.failure name cause)) ↔ ∀ other, o.Fails other → other = slot)) ∧
    ((∀ schedule schedule', (gather (around.answering o) now name schedule s).1 =
      (gather (around.answering o) now name schedule' s).1) ↔
        ∀ slot other, o.Fails slot → o.Fails other → slot = other) := by
  refine ⟨?_, ?_, ?_⟩
  · intro slot cause hfirst schedule
    have hsound := sound_ending around now name o schedule s
    constructor
    · intro hjoin
      obtain ⟨other, cause', hcause', hmem, hother⟩ :=
        gather_of_fails around now name ⟨slot, cause, hfirst.1⟩ schedule s
      rw [hjoin] at hother
      rwa [htold.failure_injective hfirst.1 hcause' (Except.error.inj hother)]
    · intro hmem
      exact hsound.join_of_failsFirst hfirst hmem name
  · intro slot cause hfirst
    constructor
    · rintro hjoin other ⟨cause', hcause'⟩
      -- the schedule in which the other read completes first tells
      have halone := gather_of_completes around now name hcause'
        (htold.not_cancelled other cause' hcause') s
      rw [hjoin] at halone
      exact (htold.failure_injective hfirst.1 hcause' (Except.error.inj halone)).symm
    · intro honly schedule
      obtain ⟨other, cause', hcause', -, hjoin⟩ :=
        gather_of_fails around now name ⟨slot, cause, hfirst.1⟩ schedule s
      obtain rfl := honly other ⟨cause', hcause'⟩
      rw [hfirst.1, Except.error.injEq] at hcause'
      rw [hjoin, hcause']
  · constructor
    · rintro hsame slot other ⟨cause, hcause⟩ ⟨cause', hcause'⟩
      have halone := gather_of_completes around now name hcause
        (htold.not_cancelled slot cause hcause) s
      rw [hsame _ [[.completes other]], gather_of_completes around now name hcause'
        (htold.not_cancelled other cause' hcause') s] at halone
      exact (htold.failure_injective hcause' hcause (Except.error.inj halone)).symm
    · intro honly schedule schedule'
      rcases gather_cases around now name o schedule s with
        ⟨found, hfound, hjoin⟩ | ⟨slot, cause, hcause, -, hjoin⟩
      · rw [hjoin, gather_of_ok around now name hfound schedule' s]
      · obtain ⟨other, cause', hcause', -, hjoin'⟩ :=
          gather_of_fails around now name ⟨slot, cause, hcause⟩ schedule' s
        obtain rfl := honly slot other ⟨cause, hcause⟩ ⟨cause', hcause'⟩
        rw [hcause, Except.error.injEq] at hcause'
        rw [hjoin, hjoin', hcause']

theorem gather_first_failure_twoFailures : twoFailures.AreTold (.text "my-app") ∧
    twoFailures.FailsFirst .app (.of .unknownApplication "application my-app not found") ∧
    ¬ ∀ schedule, (gather (Surroundings.willing.answering twoFailures) [] (.text "my-app") schedule
      ⟨(), []⟩).1 = .error (Slot.app.failure (.text "my-app")
        (.of .unknownApplication "application my-app not found")) := by
  have hfirst : twoFailures.FailsFirst .app
      (.of .unknownApplication "application my-app not found") := by
    refine ⟨rfl, fun other hbefore => ?_⟩
    rw [show Slot.before .app = [] from rfl] at hbefore
    exact absurd hbefore List.not_mem_nil
  obtain ⟨-, hsame, -⟩ := gather_first_failure_iff .willing twoFailures [] (.text "my-app") ⟨(), []⟩
    areTold_twoFailures
  refine ⟨areTold_twoFailures, hfirst, fun h => ?_⟩
  -- the read of the environments fails too
  have honly := (hsame .app _ hfirst).mp h .environments ⟨_, rfl⟩
  exact absurd honly (by decide)

/-- With two failing reads the failure of the join depends on the schedule: where the read of the
application completes first it is that of the application, and where the read of the environments
completes first it is theirs. -/
theorem gather_depends_on_schedule : ∃ schedule schedule' : Schedule,
    ∀ (around : Surroundings Unit) (s : Session Unit),
      (gather (around.answering twoFailures) [] (.text "my-app") schedule s).1 =
        .error (Slot.app.failure (.text "my-app")
          (.of .unknownApplication "application my-app not found")) ∧
      (gather (around.answering twoFailures) [] (.text "my-app") schedule' s).1 =
        .error (Slot.environments.failure (.text "my-app") (.of .runtime "database is locked")) :=
  ⟨[[.completes .app]], [[.completes .environments]], fun around s =>
    ⟨gather_of_completes around [] _ rfl rfl s, gather_of_completes around [] _ rfl rfl s⟩⟩

end Gather

end AppReport
