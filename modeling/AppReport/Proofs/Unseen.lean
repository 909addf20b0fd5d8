import AppReport.Proofs.Course

/-!
# Changes that a run does not see

Let there be a change of what is around a run, and a change of what the reads give, such that all
calls answer after the change of their surroundings as they do before it, up to the change of what
they give (`Surroundings.Commutes`). If a description does not depend on what is changed in the
results either, a run that begins in changed surroundings has the outcome and the calls of one that
begins in those before the change, and leaves them changed in the same way
(`Surroundings.Commutes.run`).

The proof goes up from a single read: what has been read so far is changed alike
(`Progress.map`), so that the reads go the same way in both runs.
-/

namespace AppReport

variable {σ : Type}

/-- A change of the results of reads. -/
abbrev ResultChange := (slot : Slot) → slot.Result → slot.Result

/-- The results after a change. -/
def Findings.map (g : ResultChange) (found : Findings) : Findings := fun slot => g slot (found slot)

/-- The session after a change of its surroundings. -/
def Session.map (f : σ → σ) (s : Session σ) : Session σ := { s with world := f s.world }

/-- The run after a change of its surroundings. -/
def Showing.map (f : σ → σ) (w : Showing σ) : Showing σ := { w with session := w.session.map f }

/-- All calls answer after a change of their surroundings as before it, up to a change of the
results of reads. -/
structure Surroundings.Commutes (around : Surroundings σ) (f : σ → σ) (g : ResultChange) :
    Prop where
  application : ∀ now name s, around.getApplication now name (f s) =
    ((around.getApplication now name s).1.map (g .app), f (around.getApplication now name s).2)
  environments : ∀ now name s, around.listEnvironments now name (f s) =
    ((around.listEnvironments now name s).1.map (g .environments),
      f (around.listEnvironments now name s).2)
  services : ∀ now name s, around.listServices now name (f s) =
    ((around.listServices now name s).1.map (g .services), f (around.listServices now name s).2)
  pipelines : ∀ now key value s, around.findPipelines now key value (f s) =
    ((around.findPipelines now key value s).1.map (g .pipelines),
      f (around.findPipelines now key value s).2)
  select : ∀ now promptText help s, around.select now promptText help (f s) =
    ((around.select now promptText help s).1, f (around.select now promptText help s).2)
  write : ∀ text s, around.write text (f s) = ((around.write text s).1, f (around.write text s).2)
  log : ∀ now record s, around.log now record (f s) = f (around.log now record s)
  schedule : ∀ s, around.schedule (f s) = around.schedule s

/-! ### How far the reads are -/

namespace Progress

/-- The reads after a change of their results. -/
def map (g : ResultChange) (p : Progress) : Progress :=
  ⟨fun slot => (p.outcome? slot).map (Except.map (g slot)), p.completed⟩

variable (g : ResultChange) (p : Progress)

/-- A read that has been begun gives its changed outcome after the change. -/
theorem put_map (slot : Slot) (outcome : Except Failure slot.Result) :
    (p.put slot outcome).map g = (p.map g).put slot (outcome.map (g slot)) := by
  rw [put, put, map, map, mk.injEq]
  refine ⟨?_, rfl⟩
  funext other
  dsimp only
  by_cases h : slot = other
  · subst h
    rw [dif_pos rfl, dif_pos rfl]
    rfl
  · rw [dif_neg h, dif_neg h]

/-- A change of the results does not touch the failures. -/
theorem failure?_map (slot : Slot) : (p.map g).failure? slot = p.failure? slot := by
  rw [failure?, failure?, map]
  dsimp only
  rcases p.outcome? slot with _ | _ | _ <;> rfl

theorem hasFailed_map : (p.map g).hasFailed = p.hasFailed := by
  simp only [hasFailed, failure?_map]

/-- The result of a read that has completed is the changed one. -/
theorem result_map (slot : Slot) : (p.map g).result slot = (p.result slot).map (g slot) := by
  rw [result, result, map]
  dsimp only
  split
  · cases p.outcome? slot <;> rfl
  · rfl

/-- The four results are the changed ones, or the same of them fails. -/
theorem findings_map : (p.map g).findings = p.findings.map (Findings.map g) := by
  rw [findings, findings]
  simp only [result_map]
  -- the first read without a result decides, in both runs
  cases p.result .app with
  | error f => rfl
  | ok app =>
  cases p.result .environments with
  | error f => rfl
  | ok environments =>
  cases p.result .services with
  | error f => rfl
  | ok services =>
  cases p.result .pipelines with
  | error f => rfl
  | ok pipelines =>
    refine congrArg Except.ok (funext fun slot => ?_)
    cases slot <;> rfl

/-- The join gives the changed results, or the same failure. -/
theorem join_map (name : Value) : (p.map g).join name = (p.join name).map (Findings.map g) := by
  rw [join, join, findings_map]
  simp only [failure?_map]
  split <;> rfl

end Progress

/-! ### Reading -/

namespace Gather

/-- The reads under way after a change. -/
def State.map (f : σ → σ) (g : ResultChange) (reads : State σ) : State σ :=
  ⟨reads.progress.map g, reads.session.map f⟩

end Gather

namespace Surroundings.Commutes

open Gather

variable {around : Surroundings σ} {f : σ → σ} {g : ResultChange} (h : around.Commutes f g)
  (now : Log.Context) (name : Value)

include h

/-- A single read gives its changed result, and the same failure. -/
theorem fetch (slot : Slot) (s : Session σ) :
    Gather.fetch around now name slot (s.map f) =
      ((Gather.fetch around now name slot s).1.map (g slot),
        (Gather.fetch around now name slot s).2.map f) := by
  cases slot with
  | app => simp only [Gather.fetch, readApplication, call, Session.map, h.application]
  | environments => simp only [Gather.fetch, readEnvironments, call, Session.map, h.environments]
  | services => simp only [Gather.fetch, readServices, call, Session.map, h.services]
  | pipelines => simp only [Gather.fetch, readPipelines, call, Session.map, h.pipelines]

/-- To begin a read and to make the change can be done in either order. -/
theorem beginRead (slot : Slot) (reads : State σ) :
    Gather.beginRead around now name slot (reads.map f g) =
      (Gather.beginRead around now name slot reads).map f g := by
  rw [Gather.beginRead, Gather.beginRead, State.map, Progress.map]
  dsimp only
  cases reads.progress.outcome? slot with
  | some outcome => rfl
  | none =>
    dsimp only [Option.map]
    rw [h.fetch]
    exact congrArg (State.mk · _) (Progress.put_map g _ _ _).symm

theorem note (record : Log.Record) (s : Session σ) :
    around.note now record (s.map f) = (around.note now record s).map f := by
  rw [Surroundings.note, Surroundings.note, Session.map, h.log]
  rfl

/-- A failure is the same after the change, and is traced alike. -/
theorem noteFailure (slot : Slot) (reads : State σ) :
    Gather.noteFailure around now name slot (reads.map f g) =
      (Gather.noteFailure around now name slot reads).map f g := by
  have hfailure : (reads.map f g).progress.failure? slot = reads.progress.failure? slot :=
    Progress.failure?_map g _ _
  rw [Gather.noteFailure, Gather.noteFailure, hfailure]
  cases reads.progress.failure? slot with
  | none => rfl
  | some cause =>
    dsimp only
    split
    · rfl
    · exact congrArg (State.mk _ ·) (h.note now _ reads.session)

theorem completeRead (slot : Slot) (reads : State σ) :
    Gather.completeRead around now name slot (reads.map f g) =
      (Gather.completeRead around now name slot reads).map f g := by
  have hcompleted : (reads.map f g).progress.completed = reads.progress.completed := rfl
  rw [Gather.completeRead, Gather.completeRead, hcompleted, h.beginRead]
  split
  · rfl
  · exact h.noteFailure now name slot
      { Gather.beginRead around now name slot reads with
        progress := (Gather.beginRead around now name slot reads).progress.complete slot }

theorem happen (event : ReadEvent) (reads : State σ) :
    Gather.happen around now name (reads.map f g) event =
      (Gather.happen around now name reads event).map f g := by
  cases event with
  | begins slot => exact h.beginRead now name slot reads
  | completes slot => exact h.completeRead now name slot reads

/-- Events in a row go the same way in both runs. -/
theorem foldl_happen (events : List ReadEvent) (reads : State σ) :
    events.foldl (Gather.happen around now name) (reads.map f g) =
      (events.foldl (Gather.happen around now name) reads).map f g := by
  induction events generalizing reads with
  | nil => rfl
  | cons event later ih => rw [List.foldl_cons, List.foldl_cons, h.happen, ih]

/-- Watching ends at the same time in both runs: which reads have failed is not changed. -/
theorem watch (schedule : Schedule) (reads : State σ) :
    Gather.watch around now name (reads.map f g) schedule =
      (Gather.watch around now name reads schedule).map f g := by
  induction schedule generalizing reads with
  | nil => exact h.foldl_happen now name remaining reads
  | cons events later ih =>
    -- whether watching goes on is a matter of the failures, which the change does not touch
    have hfailed (reads : State σ) :
        (reads.map f g).progress.hasFailed = reads.progress.hasFailed :=
      Progress.hasFailed_map g _
    rw [Gather.watch, Gather.watch, h.foldl_happen, hfailed, ih]
    split <;> rfl

/-- The four reads end in the same way, with the changed results if they have succeeded. -/
theorem gather (schedule : Schedule) (s : Session σ) :
    Gather.gather around now name schedule (s.map f) =
      ((Gather.gather around now name schedule s).1.map (Findings.map g),
        (Gather.gather around now name schedule s).2.map f) := by
  have hstart : (⟨.start, s.map f⟩ : State σ) = State.map f g ⟨.start, s⟩ := rfl
  rw [Gather.gather, Gather.gather, hstart, h.watch]
  exact congrArg (·, _) (Progress.join_map g _ _)

theorem question (promptText help : String) (s : Session σ) :
    around.ask now promptText help (s.map f) =
      ((around.ask now promptText help s).1, (around.ask now promptText help s).2.map f) := by
  simp only [Surroundings.ask, call, Session.map, h.select]

theorem writing (text : String) (s : Session σ) :
    around.put text (s.map f) = ((around.put text s).1, (around.put text s).2.map f) := by
  simp only [Surroundings.put, call, Session.map, h.write]

/-! ### Describing and showing -/

variable (hsame : ∀ found : Findings, (found.map g).describe = found.describe)

include hsame

/-- A description that does not depend on what is changed in the results is the same. -/
theorem describe (s : Session σ) :
    AppReport.describe around name (s.map f) =
      ((AppReport.describe around name s).1, (AppReport.describe around name s).2.map f) := by
  have hschedule (s : Session σ) : around.schedule (s.map f).world = around.schedule s.world :=
    h.schedule s.world
  simp only [AppReport.describe]
  rw [h.note, hschedule, h.gather]
  rcases Gather.gather around [("app", name)] name _ _ with ⟨e | found, s'⟩
  · rfl
  · exact congrArg (·, _) (hsame found)

/-- The same report is written, as the descriptions are the same. -/
theorem execute (w : Showing σ) : Showing.execute around (w.map f) =
    ((Showing.execute around w).1, (Showing.execute around w).2.map f) := by
  have hname : (w.map f).resolution = w.resolution := rfl
  have hsession : (w.map f).session = w.session.map f := rfl
  rw [Showing.execute, Showing.execute, hname]
  cases w.resolution with
  | unresolved => rfl
  | supplied name =>
    dsimp only
    rw [hsession, h.describe name hsame]
    rcases AppReport.describe around name w.session with ⟨e | d, s⟩
    · rfl
    · dsimp only
      -- the text depends on the description and on the mode, and neither has changed
      have hmode : (w.map f).asJson = w.asJson := rfl
      rw [hmode]
      cases Report.render d w.asJson with
      | error e => rfl
      | ok text =>
        dsimp only
        rw [h.writing]
        rfl

omit hsame

/-- The look-up before the reads fails in the same way; what it finds is not used. -/
theorem validate (w : Showing σ) : Showing.validate around (w.map f) =
    ((Showing.validate around w).1, (Showing.validate around w).2.map f) := by
  have hname : (w.map f).resolution = w.resolution := rfl
  have hsession : (w.map f).session = w.session.map f := rfl
  rw [Showing.validate, Showing.validate, hname]
  cases w.resolution with
  | unresolved => rfl
  | supplied name =>
    dsimp only
    cases Showing.checkName name with
    | error e => rfl
    | ok =>
      have hread := h.fetch [] name .app w.session
      rw [Gather.fetch] at hread
      dsimp only
      rw [hsession, hread]
      rcases around.readApplication [] name w.session with ⟨cause | app, s⟩ <;> rfl

theorem ask (w : Showing σ) : Showing.ask around (w.map f) =
    ((Showing.ask around w).1, (Showing.ask around w).2.map f) := by
  have hname : (w.map f).resolution = w.resolution := rfl
  have hsession : (w.map f).session = w.session.map f := rfl
  rw [Showing.ask, Showing.ask, hname]
  cases w.resolution with
  | supplied name => rfl
  | unresolved =>
    dsimp only
    rw [hsession, h.question]
    rcases around.ask [] Showing.question Showing.questionHelp w.session with ⟨cause | name, s⟩
    · rfl
    · dsimp only
      split <;> rfl

omit h in
/-- Two stages that go the same way in both runs do so one after the other. -/
theorem andThen {first second : Showing σ → Except Failure Unit × Showing σ}
    (hfirst : ∀ w : Showing σ, first (w.map f) = ((first w).1, (first w).2.map f))
    (hsecond : ∀ w : Showing σ, second (w.map f) = ((second w).1, (second w).2.map f))
    (w : Showing σ) : Showing.andThen first second (w.map f) =
      ((Showing.andThen first second w).1, (Showing.andThen first second w).2.map f) := by
  rw [Showing.andThen, Showing.andThen, hfirst]
  rcases first w with ⟨e | ⟨⟩, w'⟩
  · rfl
  · exact hsecond w'

/-- A run in changed surroundings has the same outcome as one in those before the change, and leaves
them changed in the same way. -/
theorem run (hsame : ∀ found : Findings, (found.map g).describe = found.describe)
    (w : Showing σ) : Showing.run around (w.map f) =
      ((Showing.run around w).1, (Showing.run around w).2.map f) := by
  have hstages := andThen h.validate (andThen h.ask (h.execute hsame)) w
  rw [Showing.run, Showing.run, Showing.stages, hstages]
  rcases Showing.andThen (Showing.validate around) _ w with ⟨e | ⟨⟩, w'⟩
  · dsimp only
    split
    · have hnote (now : Log.Context) (record : Log.Record) :
          around.note now record (w'.map f).session = (around.note now record w'.session).map f :=
        h.note now record w'.session
      rw [hnote]
      rfl
    · rfl
  · rfl

end Surroundings.Commutes

end AppReport
