import AppReport.Proofs.Selected
import Mathlib.Data.List.Forall2

/-!
# Stages in any order

The stages of a run can be called by themselves, in any order and any number of times, and also
after one of them has failed (`Stage`). The turns of such a history keep to some laws, whatever
the surroundings answer in each of them (`Showing.turns_lawful`):

* a name that is known is known for good;
* a name gets known only as the answer to a question, and it is never empty;
* there is a question only while no name is known, and one that fails leaves it unknown
  (`Turn.Lawful`);
* what has been written are the reports of the turns that have shown the application, one for each
  of them, of the name that was known then (`Turn.Reports`).

Each turn makes its calls in the same order: the question, the reads, the writing
(`Showing.exists_calls_of_perform`). The laws of a turn follow from its calls, and those of a
history by induction on the stages.
-/

namespace AppReport

/-- What can be called of a run: one of its stages, or the whole run. -/
inductive Stage where
  | validate
  | ask
  | execute
  | run
  deriving DecidableEq

namespace Stage

/-- Whether a stage asks for a name that is not known. -/
def asks : Stage → Bool
  | ask | run => true
  | validate | execute => false

/-- Whether a stage shows the application. -/
def shows : Stage → Bool
  | execute | run => true
  | validate | ask => false

/-- The questions of a stage. -/
def questions (stage : Stage) (r : Resolution) : List Call :=
  if stage.asks then Showing.selectionCalls r else []

variable {σ : Type} (around : Surroundings σ)

/-- Calls a stage. -/
def perform : Stage → Showing σ → Except Failure Unit × Showing σ
  | validate => Showing.validate around
  | ask => Showing.ask around
  | execute => Showing.execute around
  | run => Showing.run around

/-- The state in which a stage that shows the application begins to describe it. -/
def prepared (stage : Stage) (w : Showing σ) : Showing σ :=
  if stage.asks then (Showing.prepare around w).2 else w

end Stage

/-- A call of a stage, with the state before it and what it has come to. -/
structure Turn (σ : Type) where
  stage : Stage
  before : Showing σ
  outcome : Except Failure Unit
  after : Showing σ

/-- Whether a call only reads. -/
def Call.isRead : Call → Bool
  | .select .. | .write _ => false
  | _ => true

namespace Turn

variable {σ : Type} (around : Surroundings σ)

/-- The turn of a stage. -/
def of (stage : Stage) (w : Showing σ) : Turn σ :=
  ⟨stage, w, (stage.perform around w).1, (stage.perform around w).2⟩

/-- Whether a turn has shown the application. -/
def hasShown (t : Turn σ) : Bool := t.stage.shows && t.outcome.isOk

/-- A turn has written the report of the name that was known then. -/
def Reports (asJson : Bool) (t : Turn σ) (text : String) : Prop :=
  ∃ name d session, (t.stage.prepared around t.before).resolution = .supplied name ∧
    t.after.resolution = .supplied name ∧
    describe around name (t.stage.prepared around t.before).session = (.ok d, session) ∧
    Report.render d asJson = .ok text ∧ t.after.session = (around.put text session).2

/-- What holds of every turn. -/
structure Lawful (t : Turn σ) : Prop where
  /-- A name that is known stays known. -/
  keeps : ∀ name, t.before.resolution = .supplied name → t.after.resolution = .supplied name
  /-- A name gets known only in a turn that asks, and it is what the question of the turn has been
  answered with. It is set. -/
  learns : ∀ name, t.before.resolution = .unresolved → t.after.resolution = .supplied name →
    t.stage.asks = true ∧ name.isSet = true ∧
      (around.select [] Showing.question Showing.questionHelp t.before.session.world).1 = .ok name
  /-- There is one question in a turn that asks if no name is known before it, and else there is
  none. It comes first. -/
  asks : ∃ calls, t.after.session.calls =
      t.before.session.calls ++ t.stage.questions t.before.resolution ++ calls ∧
    ∀ promptText help, .select promptText help ∉ calls
  /-- A question that fails leaves the name unknown. -/
  fails : t.stage = .ask → (∃ f, t.outcome = .error f) → t.after.resolution = .unresolved

end Turn

namespace Showing

open Surroundings (willing)

variable {σ : Type} (around : Surroundings σ)

/-- The turns of stages that are called one after the other, whatever each of them comes to. -/
def turns : List Stage → Showing σ → List (Turn σ)
  | [], _ => []
  | stage :: later, w => .of around stage w :: turns later (Turn.of around stage w).after

/-- The state after stages. -/
def afterAll : List Stage → Showing σ → Showing σ
  | [], w => w
  | stage :: later, w => afterAll later (Turn.of around stage w).after

/-! ### The name -/

variable {around} {w : Showing σ}

theorem resolution_execute (w : Showing σ) : (execute around w).2.resolution = w.resolution := by
  unfold execute
  repeat' split
  all_goals rfl

theorem asJson_execute (w : Showing σ) : (execute around w).2.asJson = w.asJson := by
  unfold execute
  repeat' split
  all_goals rfl

/-- Without a name there is nothing to check. -/
theorem prepare_of_unresolved (h : w.resolution = .unresolved) :
    prepare around w = ask around w := by
  have hvalidate : validate around w = (.ok (), w) := by rw [validate, h]
  rw [prepare, andThen_of_ok (congrArg Prod.fst hvalidate), hvalidate]

theorem ask_of_supplied {name : Value} (h : w.resolution = .supplied name) :
    ask around w = (.ok (), w) := by
  rw [ask, h]

/-- With a name there is only the check. -/
theorem prepare_of_supplied {name : Value} (h : w.resolution = .supplied name) :
    prepare around w = validate around w := by
  rcases hvalidate : validate around w with ⟨f | ⟨⟩, w'⟩
  · rw [prepare, andThen_of_error (congrArg Prod.fst hvalidate), hvalidate]
  · have hname : w'.resolution = .supplied name := by
      rw [← h, ← resolution_validate around w, hvalidate]
    rw [prepare, andThen_of_ok (congrArg Prod.fst hvalidate), hvalidate, ask_of_supplied hname]

theorem asJson_prepare_eq (w : Showing σ) : (prepare around w).2.asJson = w.asJson := by
  cases h : w.resolution with
  | unresolved => rw [prepare_of_unresolved h, asJson_ask]
  | supplied name => rw [prepare_of_supplied h, asJson_validate]

/-- A run ends with the name that is known when the description begins, and in the same form. -/
theorem run_keeps (w : Showing σ) : (run around w).2.resolution = (prepare around w).2.resolution ∧
    (run around w).2.asJson = w.asJson := by
  have hstages : (stages around w).2.resolution = (prepare around w).2.resolution ∧
      (stages around w).2.asJson = w.asJson := by
    have hmode : (prepare around w).2.asJson = w.asJson := asJson_prepare_eq w
    rw [stages_eq, ← hmode]
    cases h : (prepare around w).1 with
    | error f => rw [andThen_of_error h]; exact ⟨rfl, rfl⟩
    | ok => rw [andThen_of_ok h]; exact ⟨resolution_execute _, asJson_execute _⟩
  rw [← hstages.1, ← hstages.2, run]
  rcases stages around w with ⟨f | ⟨⟩, w'⟩
  · dsimp only
    split <;> exact ⟨rfl, rfl⟩
  · exact ⟨rfl, rfl⟩

theorem asJson_perform (stage : Stage) (w : Showing σ) :
    (stage.perform around w).2.asJson = w.asJson := by
  cases stage with
  | validate => exact asJson_validate around w
  | ask => exact asJson_ask around w
  | execute => exact asJson_execute w
  | run => exact (run_keeps w).2

/-- The name that is known after a stage is the one that is known when it begins to describe. -/
theorem resolution_perform (stage : Stage) (w : Showing σ) :
    (stage.perform around w).2.resolution =
      if stage.asks then (prepare around w).2.resolution else w.resolution := by
  cases stage with
  | validate => exact resolution_validate around w
  | ask =>
    change (ask around w).2.resolution = (prepare around w).2.resolution
    cases h : w.resolution with
    | unresolved => rw [prepare_of_unresolved h]
    | supplied name => rw [prepare_of_supplied h, ask_of_supplied h, resolution_validate]
  | execute => exact resolution_execute w
  | run => exact (run_keeps w).1

/-- A name that gets known is the answer to a question, and it is set. -/
theorem answer_of_ask {name : Value} (h : w.resolution = .unresolved)
    (hname : (ask around w).2.resolution = .supplied name) :
    (ask around w).1 = .ok () ∧ name.isSet = true ∧
      (around.select [] question questionHelp w.session.world).1 = .ok name := by
  have hanswer : (around.select [] question questionHelp w.session.world).1 =
      (around.ask [] question questionHelp w.session).1 := rfl
  rw [hanswer]
  rw [ask, h] at hname ⊢
  dsimp only at hname ⊢
  split at hname
  · cases hname
  · rename_i answer _ hask
    split at hname
    · rename_i hset
      obtain rfl := Resolution.supplied.inj hname
      rw [if_pos hset, hask]
      exact ⟨rfl, hset, rfl⟩
    · cases hname

/-- A name that is known stays known. -/
theorem perform_keeps {name : Value} (stage : Stage) (h : w.resolution = .supplied name) :
    (stage.perform around w).2.resolution = .supplied name := by
  have hprepare : (prepare around w).2.resolution = .supplied name := by
    rw [prepare_of_supplied h, resolution_validate, h]
  rw [resolution_perform, hprepare, h, ite_self]

/-- A name gets known only in a stage that asks. -/
theorem answer_of_perform {name : Value} {stage : Stage} (h : w.resolution = .unresolved)
    (hname : (stage.perform around w).2.resolution = .supplied name) :
    stage.asks = true ∧ name.isSet = true ∧
      (around.select [] question questionHelp w.session.world).1 = .ok name := by
  rw [resolution_perform, prepare_of_unresolved h] at hname
  cases hasks : stage.asks with
  | false =>
    rw [hasks, h] at hname
    cases hname
  | true =>
    rw [hasks, if_pos rfl] at hname
    exact ⟨rfl, (answer_of_ask h hname).2⟩

/-- A question that fails leaves the name unknown. -/
theorem unresolved_of_ask_error {f : Failure} (hf : (ask around w).1 = .error f) :
    (ask around w).2.resolution = .unresolved := by
  cases hafter : (ask around w).2.resolution with
  | unresolved => rfl
  | supplied name =>
    -- asking succeeds where it leaves a name
    have hok : (ask around w).1 = .ok () := by
      cases hbefore : w.resolution with
      | unresolved => exact (answer_of_ask hbefore hafter).1
      | supplied name => rw [ask_of_supplied hbefore]
    cases hf.symm.trans hok

/-! ### The calls of a turn -/

theorem isRead_of_mem_checkCalls {r : Resolution} {c : Call} (h : c ∈ checkCalls r) :
    c.isRead = true := by
  cases r with
  | unresolved => cases h
  | supplied name =>
    rw [checkCalls] at h
    split at h
    · cases h
    · rw [List.mem_singleton.mp h]
      rfl

theorem isRead_of_mem_reads {name : Value} {order : List Slot} {c : Call}
    (h : c ∈ order.map (Slot.call name)) : c.isRead = true := by
  obtain ⟨slot, -, rfl⟩ := List.mem_map.mp h
  cases slot <;> rfl

/-- The calls before the description: the question if no name is known, and else the check. -/
theorem calls_prepare (w : Showing σ) : (prepare around w).2.session.calls =
    w.session.calls ++ selectionCalls w.resolution ++ checkCalls w.resolution := by
  cases h : w.resolution with
  | unresolved =>
    rw [prepare_of_unresolved h, calls_ask, h]
    exact (List.append_nil _).symm
  | supplied name =>
    rw [prepare_of_supplied h, calls_validate, h]
    exact congrArg (· ++ _) (List.append_nil _).symm

/-- The last stage reads, and then it writes its report if it succeeds. -/
theorem exists_calls_of_execute (hwrite : ∀ text s, (around.write text s).1 = .ok ())
    (w : Showing σ) : ∃ reads texts, (∀ c ∈ reads, c.isRead = true) ∧
      (execute around w).2.session.calls = w.session.calls ++ reads ++ texts.map .write ∧
      ((∃ f, (execute around w).1 = .error f) ∧ texts = [] ∨
        (execute around w).1 = .ok () ∧ ∃ name d session text, w.resolution = .supplied name ∧
          describe around name w.session = (.ok d, session) ∧
          Report.render d w.asJson = .ok text ∧
          (execute around w).2.session = (around.put text session).2 ∧ texts = [text]) := by
  cases h : w.resolution with
  | unresolved =>
    -- without a name nothing is read
    refine ⟨[], [], nofun, ?_, Or.inl ⟨?_, rfl⟩⟩
    · rw [execute, h]
      simp
    · rw [execute, h]
      exact ⟨_, rfl⟩
  | supplied name =>
    obtain ⟨order, writing, -, hcalls, -, hends⟩ := execute_supplied around hwrite h
    have hreads : ∀ c ∈ order.map (Slot.call name), c.isRead = true := fun _ => isRead_of_mem_reads
    rcases hends with ⟨hf, rfl⟩ | ⟨hok, d, text, hd, htext, -, rfl⟩
    · exact ⟨_, [], hreads, hcalls, Or.inl ⟨hf, rfl⟩⟩
    · obtain ⟨d', session, text', hdescribe, hrender, hsession⟩ := execute_eq_ok around h hok
      obtain rfl : d' = d := Except.ok.inj ((congrArg Prod.fst hdescribe).symm.trans hd)
      obtain rfl : text' = text := Except.ok.inj (hrender.symm.trans htext)
      exact ⟨_, [text'], hreads, hcalls, Or.inr ⟨hok, name, d', session, text', rfl, hdescribe,
        hrender, hsession, rfl⟩⟩

/-- A run that gets as far as the description goes on as its last stage does. -/
theorem run_of_prepared (h : (prepare around w).1 = .ok ()) :
    (run around w).1 = (execute around (prepare around w).2).1 ∧
    (run around w).2.session.calls =
      (execute around (prepare around w).2).2.session.calls ∧
    ((run around w).1 = .ok () → run around w = execute around (prepare around w).2) := by
  have hstages : stages around w = execute around (prepare around w).2 := by
    rw [stages_eq, andThen_of_ok h]
  obtain ⟨houtcome, hcalls⟩ := run_eq around w
  rw [hstages] at houtcome hcalls
  refine ⟨houtcome, hcalls, fun hok => ?_⟩
  rw [← hstages]
  exact run_of_stages_eq_ok around (hstages ▸ houtcome ▸ hok)

/-- A turn of a stage that shows the application: it has failed without a text, or it has written
its report. -/
theorem forall₂_reports {t : Turn σ} {asJson : Bool} {texts : List String}
    (hshows : t.stage.shows = true)
    (h : (∃ f, t.outcome = .error f) ∧ texts = [] ∨
      t.outcome = .ok () ∧ ∃ text, t.Reports around asJson text ∧ texts = [text]) :
    List.Forall₂ (Turn.Reports around asJson) ([t].filter Turn.hasShown) texts := by
  rcases h with ⟨⟨f, hf⟩, rfl⟩ | ⟨hok, text, hreports, rfl⟩
  · have hnot : ¬ t.hasShown = true := by simp [Turn.hasShown, hf, Except.isOk, Except.toBool]
    rw [List.filter_cons_of_neg hnot]
    exact .nil
  · have hshown : t.hasShown = true := by
      simp [Turn.hasShown, hshows, hok, Except.isOk, Except.toBool]
    rw [List.filter_cons_of_pos hshown]
    exact .cons hreports .nil

/-- A turn asks, reads and writes, in this order; it writes its report if it has shown the
application, and else nothing. -/
theorem exists_calls_of_perform (hwrite : ∀ text s, (around.write text s).1 = .ok ())
    (stage : Stage) (w : Showing σ) : ∃ reads texts, (∀ c ∈ reads, c.isRead = true) ∧
      (stage.perform around w).2.session.calls =
        w.session.calls ++ stage.questions w.resolution ++ reads ++ texts.map .write ∧
      List.Forall₂ (Turn.Reports around w.asJson)
        ([Turn.of around stage w].filter Turn.hasShown) texts := by
  cases stage with
  | validate =>
    refine ⟨checkCalls w.resolution, [], fun _ => isRead_of_mem_checkCalls, ?_, .nil⟩
    simpa [Stage.questions, Stage.asks, Stage.perform] using calls_validate around w
  | ask =>
    refine ⟨[], [], nofun, ?_, .nil⟩
    simpa [Stage.questions, Stage.asks, Stage.perform] using calls_ask around w
  | execute =>
    obtain ⟨reads, texts, hreads, hcalls, hends⟩ := exists_calls_of_execute hwrite w
    refine ⟨reads, texts, hreads, ?_, forall₂_reports rfl ?_⟩
    · simpa [Stage.questions, Stage.asks, Stage.perform] using hcalls
    · refine hends.imp id fun ⟨hok, name, d, session, text, hname, hd, htext, hs, heq⟩ => ?_
      exact ⟨hok, text,
        ⟨name, d, session, hname, (resolution_execute w).trans hname, hd, htext, hs⟩, heq⟩
  | run =>
    have hprepared : (prepare around w).2.session.calls =
        w.session.calls ++ selectionCalls w.resolution ++ checkCalls w.resolution :=
      calls_prepare w
    cases houtcome : (prepare around w).1 with
    | error f =>
      -- the run ends before the description
      refine ⟨checkCalls w.resolution, [], fun _ => isRead_of_mem_checkCalls, ?_,
        forall₂_reports rfl (Or.inl ⟨⟨f, run_of_prepare_eq_error houtcome⟩, rfl⟩)⟩
      have hcalls := (run_eq around w).2
      rw [stages_eq, andThen_of_error houtcome, hprepared] at hcalls
      simpa [Stage.questions, Stage.asks, Stage.perform] using hcalls
    | ok =>
      obtain ⟨hrun, hcalls, hsame⟩ := run_of_prepared houtcome
      obtain ⟨reads, texts, hreads, hexecute, hends⟩ :=
        exists_calls_of_execute hwrite (prepare around w).2
      refine ⟨checkCalls w.resolution ++ reads, texts, ?_, ?_, forall₂_reports rfl ?_⟩
      · intro c hc
        exact (List.mem_append.mp hc).elim isRead_of_mem_checkCalls (hreads c)
      · rw [hexecute, hprepared] at hcalls
        simpa [Stage.questions, Stage.asks, Stage.perform] using hcalls
      · rw [← hrun, asJson_prepare_eq] at hends
        refine hends.imp id fun ⟨hok, name, d, session, text, hname, hd, htext, hs, heq⟩ => ?_
        exact ⟨hok, text, ⟨name, d, session, hname, (run_keeps w).1.trans hname, hd, htext,
          (congrArg (·.2.session) (hsame hok)).trans hs⟩, heq⟩

/-! ### Histories -/

/-- Every turn is lawful. -/
theorem lawful_of (hwrite : ∀ text s, (around.write text s).1 = .ok ()) (stage : Stage)
    (w : Showing σ) : (Turn.of around stage w).Lawful around where
  keeps _ hname := perform_keeps stage hname
  learns _ hnone hname := answer_of_perform hnone hname
  asks := by
    obtain ⟨reads, texts, hreads, hcalls, -⟩ := exists_calls_of_perform hwrite stage w
    refine ⟨reads ++ texts.map .write, by rw [← List.append_assoc]; exact hcalls, ?_⟩
    intro promptText help hmem
    rcases List.mem_append.mp hmem with hread | hwritten
    · cases hreads _ hread
    · simp at hwritten
  fails hstage hfailed := by
    obtain ⟨f, hf⟩ := hfailed
    obtain rfl : stage = .ask := hstage
    exact unresolved_of_ask_error hf

/-- A name that is known after some stages is known after all that follow. -/
theorem afterAll_keeps {name : Value} (stages : List Stage) (h : w.resolution = .supplied name) :
    (afterAll around stages w).resolution = .supplied name := by
  induction stages generalizing w with
  | nil => exact h
  | cons stage later ih => exact ih (perform_keeps stage h)

theorem afterAll_append (earlier later : List Stage) (w : Showing σ) :
    afterAll around (earlier ++ later) w = afterAll around later (afterAll around earlier w) := by
  induction earlier generalizing w with
  | nil => rfl
  | cons stage earlier ih => exact ih _

theorem exists_of_mem_turns {stages : List Stage} {t : Turn σ} (h : t ∈ turns around stages w) :
    ∃ stage w, t = .of around stage w := by
  induction stages generalizing w with
  | nil => cases h
  | cons stage later ih =>
    rcases List.mem_cons.mp h with rfl | hlater
    · exact ⟨stage, w, rfl⟩
    · exact ih hlater

theorem filterMap_text?_questions (stage : Stage) (r : Resolution) :
    (stage.questions r).filterMap Call.text? = [] := by
  rw [Stage.questions]
  split
  · exact filterMap_text?_selectionCalls r
  · rfl

theorem filterMap_text?_of_isRead {calls : List Call} (h : ∀ c ∈ calls, c.isRead = true) :
    calls.filterMap Call.text? = [] := by
  rw [List.filterMap_eq_nil_iff]
  intro c hc
  have hread := h c hc
  cases c <;> first | rfl | cases hread

/-- What a turn has written are the reports of it. -/
theorem exists_written_of_perform (hwrite : ∀ text s, (around.write text s).1 = .ok ())
    (stage : Stage) (w : Showing σ) :
    ∃ texts, (stage.perform around w).2.session.written = w.session.written ++ texts ∧
      List.Forall₂ (Turn.Reports around w.asJson)
        ([Turn.of around stage w].filter Turn.hasShown) texts := by
  obtain ⟨reads, texts, hreads, hcalls, hreports⟩ := exists_calls_of_perform hwrite stage w
  refine ⟨texts, ?_, hreports⟩
  rw [List.append_assoc, List.append_assoc] at hcalls
  rw [written_of_calls hcalls, List.filterMap_append, List.filterMap_append,
    filterMap_text?_questions, filterMap_text?_of_isRead hreads, List.filterMap_map]
  exact congrArg _ (List.filterMap_some ..)

/-- What has been written in the turns of stages are the reports of those that have shown the
application. -/
theorem exists_written_of_turns (hwrite : ∀ text s, (around.write text s).1 = .ok ())
    (stages : List Stage) (w : Showing σ) :
    ∃ texts, (afterAll around stages w).session.written = w.session.written ++ texts ∧
      List.Forall₂ (Turn.Reports around w.asJson)
        ((turns around stages w).filter Turn.hasShown) texts := by
  induction stages generalizing w with
  | nil => exact ⟨[], (List.append_nil _).symm, .nil⟩
  | cons stage later ih =>
    obtain ⟨texts, hwritten, hreports⟩ := exists_written_of_perform hwrite stage w
    obtain ⟨others, hothers, hlater⟩ := ih (stage.perform around w).2
    rw [asJson_perform] at hlater
    refine ⟨texts ++ others, ?_, ?_⟩
    · rw [← List.append_assoc, ← hwritten]
      exact hothers
    · rw [turns, ← List.singleton_append, List.filter_append]
      exact List.rel_append hreports hlater

/-- The laws of any history: a name that is known is known for good; every turn is lawful; and what
has been written are the reports of the turns that have shown the application, one for each. -/
theorem turns_lawful (around : Surroundings σ)
    (hwrite : ∀ text s, (around.write text s).1 = .ok ()) (stages : List Stage) (w : Showing σ) :
    (∀ earlier later name, stages = earlier ++ later →
      (afterAll around earlier w).resolution = .supplied name →
      (afterAll around stages w).resolution = .supplied name) ∧
    (∀ t ∈ turns around stages w, t.Lawful around) ∧
    ∃ texts, (afterAll around stages w).session.written = w.session.written ++ texts ∧
      List.Forall₂ (Turn.Reports around w.asJson)
        ((turns around stages w).filter Turn.hasShown) texts := by
  refine ⟨?_, ?_, exists_written_of_turns hwrite stages w⟩
  · rintro earlier later name rfl hname
    rw [afterAll_append]
    exact afterAll_keeps later hname
  · intro t ht
    obtain ⟨stage, w, rfl⟩ := exists_of_mem_turns ht
    exact lawful_of hwrite stage w

/-- A history that shows nothing while no name is known, and then two reports. -/
theorem turns_lawful_willing : (∀ text s, (willing.write text s).1 = .ok ()) ∧
    ∃ texts, (afterAll willing [.execute, .ask, .execute, .validate, .run]
        ⟨.unresolved, true, ⟨(), []⟩⟩).session.written = texts ∧ texts.length = 2 := by
  obtain ⟨-, -, texts, hwritten, hreports⟩ := turns_lawful willing (fun _ _ => rfl)
    [.execute, .ask, .execute, .validate, .run] ⟨.unresolved, true, ⟨(), []⟩⟩
  refine ⟨fun _ _ => rfl, texts, hwritten, ?_⟩
  rw [← hreports.length_eq]
  rfl

end Showing

end AppReport
