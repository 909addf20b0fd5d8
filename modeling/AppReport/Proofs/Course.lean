import AppReport.Proofs.Gather
import AppReport.Show

/-!
# The course of a run

The calls of a run come in stages: the read that checks a supplied name, the question for a name
that was not supplied, the four reads of the description, and the writing of the report. A run that
fails has written nothing, one that succeeds has written the whole report once, and nothing is
called after the stage that has failed (`exists_course`).

The calls of the four reads are counted by an invariant of the reads under way
(`Gather.called_invariant`).
-/

namespace AppReport

/-- The call of a read for an application. -/
def Slot.call (name : Value) : Slot → Call
  | app => .getApplication name
  | environments => .listEnvironments name
  | services => .listServices name
  | pipelines => .findPipelines Gather.tagKey name

/-! ### The calls of the four reads -/

namespace Gather

variable {σ : Type} (around : Surroundings σ) (now : Log.Context) (name : Value)

/-- The calls since a time are those of the reads that have begun, each of them once. -/
def Called (calls : List Call) (g : State σ) : Prop :=
  ∃ order : List Slot, order.Nodup ∧ g.session.calls = calls ++ order.map (Slot.call name) ∧
    ∀ slot, slot ∈ order ↔ (g.progress.outcome? slot).isSome

/-- Each read is one call. -/
theorem calls_fetch (slot : Slot) (s : Session σ) :
    (fetch around now name slot s).2.calls = s.calls ++ [slot.call name] := by
  cases slot <;> rfl

@[simp] theorem calls_noteFailure (slot : Slot) (g : State σ) :
    (noteFailure around now name slot g).session.calls = g.session.calls := by
  unfold noteFailure
  split
  · split <;> rfl
  · rfl

variable {name}

/-- A read is begun once only. -/
theorem Called.beginRead {calls : List Call} {g : State σ} (h : Called name calls g)
    (slot : Slot) : Called name calls (beginRead around now name slot g) := by
  obtain ⟨order, hnodup, hcalls, hmem⟩ := h
  unfold Gather.beginRead
  split
  · -- a read that has begun is not called again
    exact ⟨order, hnodup, hcalls, hmem⟩
  · rename_i hnone
    have hnew : slot ∉ order := by
      rw [hmem, hnone]
      simp
    refine ⟨order ++ [slot], ?_, ?_, fun other => ?_⟩
    · simpa [List.nodup_append] using ⟨hnodup, fun other hother heq => hnew (heq ▸ hother)⟩
    · simp [calls_fetch, hcalls]
    · by_cases heq : slot = other
      · subst heq
        simp
      · simp only [Progress.outcome?_put_of_ne _ heq, List.mem_append, List.mem_singleton,
          Ne.symm heq, or_false]
        exact hmem other

/-- Every event keeps the calls of the reads distinct. -/
theorem called_invariant (calls : List Call) :
    Invariant around now name (Called name calls) where
  begins slot h := h.beginRead around now slot
  completes slot _ h := by
    -- completing calls nothing
    obtain ⟨order, hnodup, hcalls, hmem⟩ := h
    exact ⟨order, hnodup, by simpa using hcalls, by simpa using hmem⟩

/-- The calls of a join are those of the reads that have begun, each of them once; a join that
succeeds has made all four. -/
theorem calls_gather (name : Value) (schedule : Schedule) (s : Session σ) :
    ∃ order : List Slot, order.Nodup ∧
      (gather around now name schedule s).2.calls = s.calls ++ order.map (Slot.call name) ∧
      ∀ found, (gather around now name schedule s).1 = .ok found → ∀ slot, slot ∈ order := by
  have hstart : Called name s.calls ⟨.start, s⟩ := ⟨[], by simp, by simp, by simp [Progress.start]⟩
  obtain ⟨order, hnodup, hcalls, hmem⟩ :=
    (called_invariant around now s.calls).watch schedule hstart
  refine ⟨order, hnodup, hcalls, fun found hjoin slot => ?_⟩
  rw [hmem, Progress.outcome?_of_join hjoin slot]
  rfl

end Gather

/-- The calls of a description. -/
theorem calls_describe {σ : Type} (around : Surroundings σ) (name : Value) (s : Session σ) :
    ∃ order : List Slot, order.Nodup ∧
      (describe around name s).2.calls = s.calls ++ order.map (Slot.call name) ∧
      ∀ d, (describe around name s).1 = .ok d → ∀ slot, slot ∈ order := by
  obtain ⟨now, record, schedule, hdescribe⟩ := Gather.describe_eq_gather around name s
  obtain ⟨order, hnodup, hcalls, hmem⟩ :=
    Gather.calls_gather around now name schedule (around.note now record s)
  rw [hdescribe]
  refine ⟨order, hnodup, hcalls, fun d hd => ?_⟩
  cases hjoin : (Gather.gather around now name schedule (around.note now record s)).1 with
  | error f =>
    rw [hjoin] at hd
    cases hd
  | ok found => exact hmem found hjoin

namespace Showing

open Surroundings (willing)

variable {σ : Type} (around : Surroundings σ)

/-! ### Each stage -/

/-- The calls that check what was supplied: a name that has the form of one is looked up. -/
def checkCalls : Resolution → List Call
  | .unresolved => []
  | .supplied name =>
    match checkName name with
    | .error _ => []
    | .ok () => [.getApplication name]

/-- The calls that ask for a name: there is a question if none was supplied. -/
def selectionCalls : Resolution → List Call
  | .unresolved => [.select question questionHelp]
  | .supplied _ => []

theorem resolution_validate (w : Showing σ) : (validate around w).2.resolution = w.resolution := by
  unfold validate
  repeat' split
  all_goals rfl

theorem asJson_validate (w : Showing σ) : (validate around w).2.asJson = w.asJson := by
  unfold validate
  repeat' split
  all_goals rfl

theorem asJson_ask (w : Showing σ) : (ask around w).2.asJson = w.asJson := by
  unfold ask
  repeat' split
  all_goals rfl

/-- The validation makes one call at most. -/
theorem calls_validate (w : Showing σ) :
    (validate around w).2.session.calls = w.session.calls ++ checkCalls w.resolution := by
  unfold validate checkCalls
  cases w.resolution with
  | unresolved => exact (List.append_nil _).symm
  | supplied name =>
    dsimp only
    cases checkName name with
    | error f => exact (List.append_nil _).symm
    | ok =>
      have hcalls : (around.readApplication [] name w.session).2.calls =
          w.session.calls ++ [.getApplication name] := rfl
      dsimp only
      split <;> (rename_i hread; rw [hread] at hcalls; exact hcalls)

/-- A name is asked for in one call, if it is not given. -/
theorem calls_ask (w : Showing σ) :
    (ask around w).2.session.calls = w.session.calls ++ selectionCalls w.resolution := by
  unfold ask selectionCalls
  cases w.resolution with
  | supplied name => exact (List.append_nil _).symm
  | unresolved =>
    have hcalls : (around.ask [] question questionHelp w.session).2.calls =
        w.session.calls ++ [.select question questionHelp] := rfl
    dsimp only
    split
    · rename_i hask
      rw [hask] at hcalls
      exact hcalls
    · rename_i hask
      rw [hask] at hcalls
      split <;> exact hcalls

/-- Once someone has been asked, it is known which application to show. -/
theorem exists_supplied_of_ask {w : Showing σ} (h : (ask around w).1 = .ok ()) :
    ∃ name, (ask around w).2.resolution = .supplied name := by
  unfold ask at h ⊢
  cases hresolution : w.resolution with
  | supplied name => exact ⟨name, hresolution⟩
  | unresolved =>
    simp only [hresolution] at h ⊢
    split at h
    · cases h
    · rename_i name _ _
      split at h
      · rename_i hset
        exact ⟨name, by rw [if_pos hset]⟩
      · cases h

/-- The last stage makes the reads of a description and writes its report, once the reads have
succeeded and the report is complete. -/
theorem execute_supplied (hwrite : ∀ text s, (around.write text s).1 = .ok ()) {w : Showing σ}
    {name : Value} (hname : w.resolution = .supplied name) :
    ∃ (order : List Slot) (writing : List Call), order.Nodup ∧
      (execute around w).2.session.calls =
        w.session.calls ++ order.map (Slot.call name) ++ writing ∧
      (∀ f, (describe around name w.session).1 = .error f → (execute around w).1 = .error f) ∧
      ((∃ f, (execute around w).1 = .error f) ∧ writing = [] ∨
        (execute around w).1 = .ok () ∧ ∃ d text,
          (describe around name w.session).1 = .ok d ∧ Report.render d w.asJson = .ok text ∧
          (∀ slot, slot ∈ order) ∧ writing = [.write text]) := by
  obtain ⟨order, hnodup, hcalls, hall⟩ := calls_describe around name w.session
  unfold execute
  rw [hname]
  dsimp only
  rcases hdescribe : describe around name w.session with ⟨f | d, session⟩
  · -- the description fails
    rw [hdescribe] at hcalls
    refine ⟨order, [], hnodup, ?_, ?_, Or.inl ⟨⟨f, rfl⟩, rfl⟩⟩
    · rw [List.append_nil]
      exact hcalls
    · rintro f' ⟨⟩
      rfl
  · rw [hdescribe] at hcalls hall
    dsimp only
    cases hrender : Report.render d w.asJson with
    | error f =>
      -- the report cannot be made, although all reads have succeeded
      refine ⟨order, [], hnodup, ?_, nofun, Or.inl ⟨⟨f, rfl⟩, rfl⟩⟩
      rw [List.append_nil]
      exact hcalls
    | ok text =>
      refine ⟨order, [.write text], hnodup, ?_, nofun,
        Or.inr ⟨hwrite text session.world, d, text, rfl, hrender, hall d rfl, rfl⟩⟩
      rw [← hcalls]
      rfl

/-! ### The whole run -/

/-- The stages before the description: the check and the question. -/
def prepare : Showing σ → Except Failure Unit × Showing σ := andThen (validate around) (ask around)

theorem andThen_of_ok {first second : Showing σ → Except Failure Unit × Showing σ} {w : Showing σ}
    (h : (first w).1 = .ok ()) : andThen first second w = second (first w).2 := by
  rcases hfirst : first w with ⟨f | ⟨⟩, w'⟩
  · rw [hfirst] at h
    cases h
  · unfold andThen
    rw [hfirst]

/-- A stage that fails is the last one. -/
theorem andThen_of_error {first second : Showing σ → Except Failure Unit × Showing σ}
    {w : Showing σ} {f : Failure} (h : (first w).1 = .error f) :
    andThen first second w = (.error f, (first w).2) := by
  rcases hfirst : first w with ⟨f' | ⟨⟩, w'⟩
  · rw [hfirst] at h
    cases h
    unfold andThen
    rw [hfirst]
  · rw [hfirst] at h
    cases h

/-- It makes no difference which stages are taken together. -/
theorem andThen_assoc (first second third : Showing σ → Except Failure Unit × Showing σ) :
    andThen first (andThen second third) = andThen (andThen first second) third := by
  funext w
  unfold andThen
  rcases first w with ⟨f | ⟨⟩, w'⟩ <;> rfl

/-- A run is a preparation and an execution. -/
theorem stages_eq : stages around = andThen (prepare around) (execute around) :=
  andThen_assoc _ _ _

/-- The log record of a failure changes neither the outcome of a run nor its calls. -/
theorem run_eq (w : Showing σ) : (run around w).1 = (stages around w).1 ∧
    (run around w).2.session.calls = (stages around w).2.session.calls := by
  unfold run
  rcases stages around w with ⟨f | ⟨⟩, w'⟩
  · dsimp only
    split <;> exact ⟨rfl, rfl⟩
  · exact ⟨rfl, rfl⟩

/-! ### Runs that succeed -/

/-- Two stages succeed together if the second one does after the first. -/
theorem of_andThen_eq_ok {first second : Showing σ → Except Failure Unit × Showing σ}
    {w : Showing σ} (h : (andThen first second w).1 = .ok ()) :
    (first w).1 = .ok () ∧ andThen first second w = second (first w).2 := by
  cases hfirst : (first w).1 with
  | error f =>
    rw [andThen_of_error hfirst] at h
    cases h
  | ok => exact ⟨rfl, andThen_of_ok hfirst⟩

theorem run_of_stages_eq_ok {w : Showing σ} (h : (stages around w).1 = .ok ()) :
    run around w = stages around w := by
  rw [run]
  split
  · rename_i hstages
    rw [hstages]
  · rename_i hstages
    rw [hstages] at h
    cases h

/-- A validation that succeeds has found the application. -/
theorem validate_eq_ok {w : Showing σ} {name : Value} (hname : w.resolution = .supplied name)
    (h : (validate around w).1 = .ok ()) :
    ∃ app session, around.readApplication [] name w.session = (.ok app, session) ∧
      (validate around w).2 = { w with session } := by
  rw [validate, hname] at h ⊢
  dsimp only at h ⊢
  split at h
  · cases h
  split at h
  · rename_i app session hread
    exact ⟨app, session, hread, rfl⟩
  · cases h

/-- An execution that succeeds has described the application and written its report. -/
theorem execute_eq_ok {w : Showing σ} {name : Value} (hname : w.resolution = .supplied name)
    (h : (execute around w).1 = .ok ()) :
    ∃ d session text, describe around name w.session = (.ok d, session) ∧
      Report.render d w.asJson = .ok text ∧
      (execute around w).2.session = (around.put text session).2 := by
  rw [execute, hname] at h ⊢
  dsimp only at h ⊢
  split at h
  · cases h
  rename_i d session hdescribe
  split at h
  · cases h
  rename_i text hrender
  exact ⟨d, session, text, hdescribe, hrender, rfl⟩

/-- A run for a supplied name that succeeds has looked it up, described the application, and written
the report. -/
theorem run_eq_ok {name : Value} {asJson : Bool} {s : Session σ}
    (h : (run around ⟨.supplied name, asJson, s⟩).1 = .ok ()) :
    ∃ app s₁ d s₂ text, around.readApplication [] name s = (.ok app, s₁) ∧
      describe around name s₁ = (.ok d, s₂) ∧ Report.render d asJson = .ok text ∧
      (run around ⟨.supplied name, asJson, s⟩).2.session = (around.put text s₂).2 := by
  have hstages := (run_eq around ⟨.supplied name, asJson, s⟩).1.symm.trans h
  rw [run_of_stages_eq_ok around hstages]
  obtain ⟨hvalidate, hask⟩ := of_andThen_eq_ok hstages
  obtain ⟨app, s₁, hread, hchecked⟩ := validate_eq_ok around rfl hvalidate
  rw [hchecked] at hask
  rw [stages, hask] at hstages ⊢
  obtain ⟨-, hexecute⟩ := of_andThen_eq_ok hstages
  rw [hexecute] at hstages ⊢
  obtain ⟨d, s₂, text, hdescribe, hrender, hsession⟩ := execute_eq_ok around rfl hstages
  exact ⟨app, s₁, d, s₂, text, hread, hdescribe, hrender, hsession⟩

/-! ### The course -/

/-- How a run goes that makes certain calls in its stages: to check the name, to ask for one, to
read what the description needs, and to write the report. -/
structure Course (w : Showing σ) (check selection reads writing : List Call) : Prop where
  /-- The calls of the run are those of its stages, one stage after the other. -/
  calls : (run around w).2.session.calls =
    w.session.calls ++ check ++ selection ++ reads ++ writing
  /-- The check is the lookup of a supplied name that has the form of one. -/
  check_eq : check = checkCalls w.resolution
  /-- If the check succeeds, the question follows unless a name was supplied. -/
  selection_eq : (validate around w).1 = .ok () → selection = selectionCalls w.resolution
  /-- The reads are made for the name that is known then, after the check and the question. -/
  reads_eq : (prepare around w).1 = .ok () → ∃ name, ∃ order : List Slot,
    (prepare around w).2.resolution = .supplied name ∧
    (prepare around w).2.session.calls = w.session.calls ++ check ++ selection ∧
    order.Nodup ∧ reads = order.map (Slot.call name)
  /-- If the check fails, this is the failure of the run, and nothing else is called. -/
  of_check_error : ∀ f, (validate around w).1 = .error f →
    (run around w).1 = .error f ∧ selection = [] ∧ reads = [] ∧ writing = []
  /-- If the check or the question fails, this is the failure of the run, and nothing is read or
  written. -/
  of_prepare_error : ∀ f, (prepare around w).1 = .error f →
    (run around w).1 = .error f ∧ reads = [] ∧ writing = []
  /-- If the description fails, this is the failure of the run, and nothing is written. -/
  of_reads_error : ∀ name f, (prepare around w).1 = .ok () →
    (prepare around w).2.resolution = .supplied name →
    (describe around name (prepare around w).2.session).1 = .error f →
    (run around w).1 = .error f ∧ writing = []
  /-- Either the run fails and writes nothing, or it succeeds and writes, after all four reads, the
  whole report of the description of the name that is known then, and this once. -/
  all_or_nothing : (∃ f, (run around w).1 = .error f) ∧ writing = [] ∨
    (run around w).1 = .ok () ∧ ∃ name d text,
      (prepare around w).1 = .ok () ∧ (prepare around w).2.resolution = .supplied name ∧
      (describe around name (prepare around w).2.session).1 = .ok d ∧
      Report.render d w.asJson = .ok text ∧ reads.Perm (Slot.all.map (Slot.call name)) ∧
      writing = [.write text]

/-- Every run has a course, whatever its surroundings do, as long as writing succeeds. -/
theorem exists_course (hwrite : ∀ text s, (around.write text s).1 = .ok ()) (w : Showing σ) :
    ∃ check selection reads writing, Course around w check selection reads writing := by
  obtain ⟨houtcome, hcalls⟩ := run_eq around w
  rw [stages_eq] at houtcome hcalls
  have hcheckCalls := calls_validate around w
  cases hcheck : (validate around w).1 with
  | error f =>
    -- the check fails
    have hprepare : prepare around w = (.error f, (validate around w).2) := andThen_of_error hcheck
    have hfailed : (prepare around w).1 = .error f := congrArg Prod.fst hprepare
    rw [andThen_of_error hfailed] at houtcome hcalls
    rw [hprepare] at hcalls
    refine ⟨checkCalls w.resolution, [], [], [], ?_⟩
    exact {
      calls := by simpa using hcalls.trans hcheckCalls
      check_eq := rfl
      selection_eq := fun hok => by rw [hcheck] at hok; cases hok
      reads_eq := fun hok => by rw [hfailed] at hok; cases hok
      of_check_error := fun f' hf' => ⟨houtcome.trans (hcheck.symm.trans hf'), rfl, rfl, rfl⟩
      of_prepare_error := fun f' hf' => ⟨houtcome.trans (hfailed.symm.trans hf'), rfl, rfl⟩
      of_reads_error := fun _ _ hok => by rw [hfailed] at hok; cases hok
      all_or_nothing := Or.inl ⟨⟨f, houtcome⟩, rfl⟩ }
  | ok =>
    have hprepare : prepare around w = ask around (validate around w).2 := andThen_of_ok hcheck
    have hselectionCalls := calls_ask around (validate around w).2
    rw [resolution_validate, hcheckCalls, ← hprepare] at hselectionCalls
    cases hselection : (prepare around w).1 with
    | error f =>
      -- the question fails
      rw [andThen_of_error hselection] at houtcome hcalls
      refine ⟨checkCalls w.resolution, selectionCalls w.resolution, [], [], ?_⟩
      exact {
        calls := by simpa using hcalls.trans hselectionCalls
        check_eq := rfl
        selection_eq := fun _ => rfl
        reads_eq := fun hok => by rw [hselection] at hok; cases hok
        of_check_error := fun _ hf' => by rw [hcheck] at hf'; cases hf'
        of_prepare_error := fun f' hf' => ⟨houtcome.trans (hselection.symm.trans hf'), rfl, rfl⟩
        of_reads_error := fun _ _ hok => by rw [hselection] at hok; cases hok
        all_or_nothing := Or.inl ⟨⟨f, houtcome⟩, rfl⟩ }
    | ok =>
      -- the name is known, so that the last stage follows
      obtain ⟨name, hname⟩ := exists_supplied_of_ask around (hprepare ▸ hselection)
      rw [← hprepare] at hname
      obtain ⟨order, writing, hnodup, hexecuteCalls, herror, hwritten⟩ :=
        execute_supplied around hwrite hname
      rw [andThen_of_ok hselection] at houtcome hcalls
      have hasJson : (prepare around w).2.asJson = w.asJson := by
        rw [hprepare, asJson_ask, asJson_validate]
      refine ⟨checkCalls w.resolution, selectionCalls w.resolution, order.map (Slot.call name),
        writing, ?_⟩
      exact {
        calls := by rw [hcalls, hexecuteCalls, hselectionCalls]
        check_eq := rfl
        selection_eq := fun _ => rfl
        reads_eq := fun _ => ⟨name, order, hname, hselectionCalls, hnodup, rfl⟩
        of_check_error := fun _ hf' => by rw [hcheck] at hf'; cases hf'
        of_prepare_error := fun _ hf' => by rw [hselection] at hf'; cases hf'
        of_reads_error := fun name' f' _ hname' hf' => by
          rw [hname, Resolution.supplied.injEq] at hname'
          have hfailed := herror f' (hname' ▸ hf')
          refine ⟨houtcome.trans hfailed, ?_⟩
          rcases hwritten with ⟨-, hnothing⟩ | ⟨hok, -⟩
          · exact hnothing
          · rw [hfailed] at hok
            cases hok
        all_or_nothing := by
          rcases hwritten with ⟨⟨f, hf⟩, hnothing⟩ | ⟨hok, d, text, hd, htext, hall, hwriting⟩
          · exact Or.inl ⟨⟨f, houtcome.trans hf⟩, hnothing⟩
          · rw [hasJson] at htext
            have hperm : order.Perm Slot.all :=
              (List.perm_ext_iff_of_nodup hnodup (by decide)).mpr fun slot =>
                ⟨fun _ => slot.mem_all, fun _ => hall slot⟩
            exact Or.inr ⟨houtcome.trans hok, name, d, text, hselection, hname, hd, htext,
              hperm.map _, hwriting⟩ }

theorem exists_course_willing : (∀ text s, (willing.write text s).1 = .ok ()) ∧
    ∃ check selection reads writing,
      Course willing ⟨.unresolved, true, ⟨(), []⟩⟩ check selection reads writing :=
  ⟨fun _ _ => rfl, exists_course willing (fun _ _ => rfl) ⟨.unresolved, true, ⟨(), []⟩⟩⟩

end Showing

end AppReport
