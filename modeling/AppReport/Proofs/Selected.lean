import AppReport.Proofs.Grounds
import AppReport.Proofs.NameForm
import AppReport.Selector

/-!
# Supplied and selected names

A run is given a name, or it has one selected. What it writes is decided by what the reads for the
name answer (`Outcomes.report?`): a run that gets as far as describing an application writes the
report of the answers, and fails where there is none (`Showing.endsWith_of_prepared`). The two kinds
of runs differ in what comes before. A name that is supplied has to have the form of one and has to
be found (`Showing.endsWith_supplied`), while a selected one only has to be set
(`Showing.endsWith_selected`). So the same name leads to the same ending unless it breaks the rule
for names and yet has a report (`Showing.supplied_selected`).
-/

namespace AppReport

/-- The surroundings in which the reads answer as the name says, whatever else they do. -/
def Surroundings.answeringFor {σ : Type} (around : Surroundings σ) (answers : Value → Outcomes) :
    Surroundings σ :=
  { around with
    getApplication := fun now name s => (answers name .app, (around.getApplication now name s).2)
    listEnvironments := fun now name s =>
      (answers name .environments, (around.listEnvironments now name s).2)
    listServices := fun now name s => (answers name .services, (around.listServices now name s).2)
    findPipelines := fun now key value s =>
      (answers value .pipelines, (around.findPipelines now key value s).2) }

/-- The text that a call writes. -/
def Call.text? : Call → Option String
  | .write text => some text
  | _ => none

/-- The texts that have been written, the first one first. -/
def Session.written {σ : Type} (s : Session σ) : List String := s.calls.filterMap Call.text?

namespace Outcomes

/-- The results of the four reads, if all of them succeed. -/
def findings (o : Outcomes) : Except Failure Findings :=
  Progress.findings ⟨fun slot => some (o slot), Slot.all⟩

/-- The report of what the four reads give. -/
def report? (o : Outcomes) (asJson : Bool) : Option String :=
  (o.findings.bind Findings.describe).toOption.bind fun d => (Report.render d asJson).toOption

theorem findings_eq_ok_iff {o : Outcomes} {found : Findings} :
    o.findings = .ok found ↔ ∀ slot, o slot = .ok (found slot) := by
  constructor
  · intro h slot
    have hresult := Progress.result_of_findings h slot
    simpa [Progress.result, slot.mem_all] using hresult
  · intro h
    have hsound : Gather.Sound o ⟨fun slot => some (o slot), Slot.all⟩ :=
      ⟨fun _ _ hsome => (Option.some.inj hsome).symm, fun _ _ => rfl⟩
    exact hsound.findings_eq_ok Slot.mem_all h

theorem report?_eq_none_of_fails {o : Outcomes} {slot : Slot} (h : o.Fails slot) (asJson : Bool) :
    o.report? asJson = none := by
  obtain ⟨cause, hcause⟩ := h
  cases hfindings : o.findings with
  | error f => rw [report?, hfindings]; rfl
  | ok found =>
    rw [findings_eq_ok_iff.mp hfindings slot] at hcause
    cases hcause

end Outcomes

/-! ### Descriptions by the answers alone -/

theorem toOption_bind {ε α β : Type} (x : Except ε α) (f : α → Except ε β) :
    (x.bind f).toOption = x.toOption.bind fun a => (f a).toOption := by
  cases x <;> rfl

namespace Gather

variable {σ : Type} {around other : Surroundings σ} {now : Log.Context} {name : Value}

/-- The reads for a name go the same way in surroundings that read and log the same way. -/
theorem watch_congr (hfetch : ∀ slot, fetch around now name slot = fetch other now name slot)
    (hlog : around.log = other.log) (g : State σ) (schedule : Schedule) :
    watch around now name g schedule = watch other now name g schedule := by
  have hbegin : beginRead around now name = beginRead other now name := by
    funext slot g
    rw [beginRead, beginRead, hfetch]
  have hnote : noteFailure around now name = noteFailure other now name := by
    funext slot g
    simp only [noteFailure, Surroundings.note, hlog]
  have hhappen : happen around now name = happen other now name := by
    funext g event
    cases event with
    | begins slot => rw [happen, happen, hbegin]
    | completes slot => rw [happen, happen, completeRead, completeRead, hbegin, hnote]
  induction schedule generalizing g with
  | nil => rw [watch, watch, hhappen]
  | cons events later ih => simp only [watch, hhappen, ih]

theorem gather_answeringFor (around : Surroundings σ) (answers : Value → Outcomes)
    (now : Log.Context) (name : Value) (schedule : Schedule) (s : Session σ) :
    gather (around.answeringFor answers) now name schedule s =
      gather (around.answering (answers name)) now name schedule s := by
  have hfetch : ∀ slot, fetch (around.answeringFor answers) now name slot =
      fetch (around.answering (answers name)) now name slot := fun slot => by cases slot <;> rfl
  rw [gather, gather, watch_congr hfetch rfl]

theorem toOption_gather (around : Surroundings σ) (o : Outcomes) (now : Log.Context) (name : Value)
    (schedule : Schedule) (s : Session σ) :
    (gather (around.answering o) now name schedule s).1.toOption = o.findings.toOption := by
  rcases gather_cases around now name o schedule s with
    ⟨found, hfound, hjoin⟩ | ⟨slot, cause, hcause, -, hjoin⟩
  · rw [hjoin, Outcomes.findings_eq_ok_iff.mpr hfound]
  · rw [hjoin]
    cases hfindings : o.findings with
    | error f => rfl
    | ok found =>
      rw [Outcomes.findings_eq_ok_iff.mp hfindings slot] at hcause
      cases hcause

end Gather

/-- A description depends on the answers for its name alone. -/
theorem toOption_describe {σ : Type} (around : Surroundings σ) (answers : Value → Outcomes)
    (name : Value) (s : Session σ) :
    (describe (around.answeringFor answers) name s).1.toOption =
      ((answers name).findings.bind Findings.describe).toOption := by
  obtain ⟨now, record, schedule, hdescribe⟩ :=
    Gather.describe_eq_gather (around.answeringFor answers) name s
  have hgather := Gather.toOption_gather around (answers name) now name schedule
    ((around.answeringFor answers).note now record s)
  rw [← Gather.gather_answeringFor] at hgather
  rw [hdescribe, toOption_bind, toOption_bind, hgather]

namespace Showing

open Surroundings (willing)

variable {σ : Type}

/-! ### Endings -/

/-- How a run that began in a session has ended: it has succeeded and written one text, or it has
failed and written nothing. -/
def EndsWith (s : Session σ) (ended : Except Failure Unit × Showing σ) : Option String → Prop
  | some text => ended.1 = .ok () ∧ ended.2.session.written = s.written ++ [text]
  | none => (∃ f, ended.1 = .error f) ∧ ended.2.session.written = s.written

theorem EndsWith.eq {s : Session σ} {ended : Except Failure Unit × Showing σ}
    {text? text?' : Option String} (h : EndsWith s ended text?) (h' : EndsWith s ended text?') :
    text? = text?' := by
  cases text? with
  | none => cases text?' with
    | none => rfl
    | some text =>
      obtain ⟨f, hf⟩ := h.1
      cases hf.symm.trans h'.1
  | some text => cases text?' with
    | none =>
      obtain ⟨f, hf⟩ := h'.1
      cases hf.symm.trans h.1
    | some text' =>
      have hwritten := List.append_cancel_left (h.2.symm.trans h'.2)
      rw [List.singleton_inj.mp hwritten]

/-- What a session has written follows from its calls. -/
theorem written_of_calls {s s' : Session σ} {calls : List Call}
    (h : s'.calls = s.calls ++ calls) : s'.written = s.written ++ calls.filterMap Call.text? := by
  rw [Session.written, h, List.filterMap_append, ← Session.written]

theorem filterMap_text?_checkCalls (r : Resolution) : (checkCalls r).filterMap Call.text? = [] := by
  cases r with
  | unresolved => rfl
  | supplied name =>
    rw [checkCalls]
    split <;> rfl

theorem filterMap_text?_selectionCalls (r : Resolution) :
    (selectionCalls r).filterMap Call.text? = [] := by
  cases r <;> rfl

theorem filterMap_text?_reads (name : Value) (order : List Slot) :
    (order.map (Slot.call name)).filterMap Call.text? = [] := by
  rw [List.filterMap_map, List.filterMap_eq_nil_iff]
  intro slot _
  cases slot <;> rfl

variable (around : Surroundings σ)

/-- Nothing is written before the name is known. -/
theorem written_prepare (w : Showing σ) :
    (prepare around w).2.session.written = w.session.written := by
  have hcheck := written_of_calls (calls_validate around w)
  rw [filterMap_text?_checkCalls, List.append_nil] at hcheck
  cases houtcome : (validate around w).1 with
  | error f => rw [prepare, andThen_of_error houtcome, hcheck]
  | ok =>
    have hask := written_of_calls (calls_ask around (validate around w).2)
    rw [filterMap_text?_selectionCalls, List.append_nil] at hask
    rw [prepare_of_check houtcome, hask, hcheck]

variable {around} {w : Showing σ}

theorem endsWith_of_prepare_eq_error {f : Failure} (h : (prepare around w).1 = .error f) :
    EndsWith w.session (run around w) none := by
  refine ⟨⟨f, run_of_prepare_eq_error h⟩, ?_⟩
  rw [Session.written, (run_eq around w).2, stages_eq, andThen_of_error h, ← Session.written,
    written_prepare]

/-- The last stage ends with the report of the answers for the name. -/
theorem endsWith_execute (answers : Value → Outcomes)
    (hwrite : ∀ text s, (around.write text s).1 = .ok ()) {name : Value}
    (hname : w.resolution = .supplied name) :
    EndsWith w.session (execute (around.answeringFor answers) w)
      ((answers name).report? w.asJson) := by
  -- reading writes nothing, so that all that is written is the report
  obtain ⟨order, -, hreads, -⟩ := calls_describe (around.answeringFor answers) name w.session
  have hread := written_of_calls hreads
  rw [filterMap_text?_reads, List.append_nil] at hread
  rw [Outcomes.report?, ← toOption_describe around answers name w.session, execute, hname]
  dsimp only
  rcases hdescribe : describe (around.answeringFor answers) name w.session with ⟨f | d, session⟩
  · rw [hdescribe] at hread
    exact ⟨⟨f, rfl⟩, hread⟩
  · rw [hdescribe] at hread
    rw [Except.toOption, Option.bind_some]
    dsimp only
    cases Report.render d w.asJson with
    | error f => exact ⟨⟨f, rfl⟩, hread⟩
    | ok text =>
      have hput : ((around.answeringFor answers).put text session).2.calls =
          session.calls ++ [.write text] := rfl
      exact ⟨hwrite text session.world, (written_of_calls hput).trans (congrArg (· ++ _) hread)⟩

/-- A run that knows the name writes what its last stage writes. -/
theorem written_run (h : (prepare around w).1 = .ok ()) :
    (run around w).2.session.written = (execute around (prepare around w).2).2.session.written := by
  have hcalls := (run_eq around w).2
  rw [stages_eq, andThen_of_ok h] at hcalls
  rw [Session.written, hcalls, ← Session.written]

/-- A run that knows the name ends with the report of the answers for it. -/
theorem endsWith_of_prepared {answers : Value → Outcomes}
    (hwrite : ∀ text s, (around.write text s).1 = .ok ()) {name : Value}
    (h : (prepare (around.answeringFor answers) w).1 = .ok ())
    (hname : (prepare (around.answeringFor answers) w).2.resolution = .supplied name) :
    EndsWith w.session (run (around.answeringFor answers) w)
      ((answers name).report? w.asJson) := by
  have hexecute := endsWith_execute answers hwrite hname
  have houtcome := (run_eq (around.answeringFor answers) w).1
  rw [stages_eq, andThen_of_ok h] at houtcome
  rw [asJson_prepare h] at hexecute
  cases hreport : (answers name).report? w.asJson with
  | none =>
    obtain ⟨⟨f, hf⟩, hnothing⟩ := hreport ▸ hexecute
    exact ⟨⟨f, houtcome.trans hf⟩, by rw [written_run h, hnothing, written_prepare]⟩
  | some text =>
    obtain ⟨hok, htext⟩ := hreport ▸ hexecute
    exact ⟨houtcome.trans hok, by rw [written_run h, htext, written_prepare]⟩

/-! ### How the name gets known -/

variable (around) (answers : Value → Outcomes)

/-- A run for a supplied name writes its report if the name has the form of one. -/
theorem endsWith_supplied (hwrite : ∀ text s, (around.write text s).1 = .ok ()) (name : Value)
    (asJson : Bool) (s : Session σ) :
    EndsWith s (run (around.answeringFor answers) ⟨.supplied name, asJson, s⟩)
      (if (checkName name).isOk then (answers name).report? asJson else none) := by
  cases hform : checkName name with
  | error f =>
    refine endsWith_of_prepare_eq_error (f := f) (prepare_of_validate_eq_error ?_)
    rw [validate]
    simp only [hform]
  | ok =>
    change EndsWith s _ ((answers name).report? asJson)
    have hread : (around.answeringFor answers).readApplication [] name s =
        (answers name .app, ((around.answeringFor answers).readApplication [] name s).2) := rfl
    cases hfound : answers name .app with
    | error cause =>
      -- the lookup fails, and the read of the description would fail as well
      rw [Outcomes.report?_eq_none_of_fails ⟨cause, hfound⟩]
      refine endsWith_of_prepare_eq_error (f := lookupFailure name cause)
        (prepare_of_validate_eq_error ?_)
      rw [hfound] at hread
      rw [validate]
      simp only [hform]
      rw [hread]
    | ok app =>
      have hvalidate : validate (around.answeringFor answers) ⟨.supplied name, asJson, s⟩ =
          (.ok (), ⟨.supplied name, asJson,
            ((around.answeringFor answers).readApplication [] name s).2⟩) := by
        rw [hfound] at hread
        rw [validate]
        simp only [hform]
        rw [hread]
      have hprepare := prepare_of_check (congrArg Prod.fst hvalidate)
      rw [hvalidate] at hprepare
      exact endsWith_of_prepared hwrite (congrArg Prod.fst hprepare)
        (congrArg (·.2.resolution) hprepare)

/-- A run for which a name is selected writes its report if the name is set. -/
theorem endsWith_selected (hwrite : ∀ text s, (around.write text s).1 = .ok ()) {name : Value}
    {s : Session σ} (hselect : (around.select [] question questionHelp s.world).1 = .ok name)
    (asJson : Bool) :
    EndsWith s (run (around.answeringFor answers) ⟨.unresolved, asJson, s⟩)
      (if name.isSet then (answers name).report? asJson else none) := by
  have hask : (around.answeringFor answers).ask [] question questionHelp s =
      (.ok name, ((around.answeringFor answers).ask [] question questionHelp s).2) :=
    Prod.ext hselect rfl
  have hprepare : prepare (around.answeringFor answers) ⟨.unresolved, asJson, s⟩ =
      ask (around.answeringFor answers) ⟨.unresolved, asJson, s⟩ := rfl
  rw [ask] at hprepare
  dsimp only at hprepare
  rw [hask] at hprepare
  dsimp only at hprepare
  by_cases hset : name.isSet = true
  · rw [if_pos hset] at hprepare ⊢
    exact endsWith_of_prepared hwrite (congrArg Prod.fst hprepare)
      (congrArg (·.2.resolution) hprepare)
  · rw [if_neg hset] at hprepare ⊢
    exact endsWith_of_prepare_eq_error (congrArg Prod.fst hprepare)

theorem isSet_of_checkName {name : Value} (h : (checkName name).isOk = true) :
    name.isSet = true := by
  cases name with
  | text s =>
    rw [Value.isSet, decide_eq_true_iff]
    rintro rfl
    cases h
  | _ => cases h

/-- The name is a text that keeps the rule for names. -/
def KeepsNameRule (name : Value) : Prop := ∃ s, name = .text s ∧ IsAppName s.toList

/-- The name is a text that keeps the rule up to one line feed behind it. -/
def KeepsNameRuleUpToFeed (name : Value) : Prop := ∃ s, name = .text s ∧ IsNameLine s.toList

/-- The check lets exactly the names through that keep the rule, and those with a line feed behind
them. -/
theorem isOk_checkName_iff {name : Value} :
    (checkName name).isOk = true ↔ KeepsNameRule name ∨ KeepsNameRuleUpToFeed name := by
  cases name with
  | text s =>
    have hcheck : (checkName (.text s)).isOk = isName s.toList := by
      by_cases hname : isName s.toList = true
      · simp [checkName, hname, Except.isOk, Except.toBool]
      · simp [checkName, hname, Except.isOk, Except.toBool]
    rw [hcheck, isName_iff]
    constructor
    · rintro (h | h)
      · exact Or.inl ⟨s, rfl, h⟩
      · exact Or.inr ⟨s, rfl, h⟩
    · rintro (⟨_, ⟨⟩, h⟩ | ⟨_, ⟨⟩, h⟩)
      · exact Or.inl h
      · exact Or.inr h
  | _ =>
    constructor
    · intro h
      cases h
    · rintro (⟨_, ⟨⟩, -⟩ | ⟨_, ⟨⟩, -⟩)

/-- The same name, supplied and selected. Where it keeps the rule for names, both runs end the same
way, with the report of the answers for it if there is one. Where it breaks the rule, by more than a
line feed behind a name, the run for the supplied name fails, and the other one writes the report of
the answers if there is one and the name is set. So the two end the same way if and only if the name
keeps the rule, or the selected one leads to a failure. -/
theorem supplied_selected (hwrite : ∀ text s, (around.write text s).1 = .ok ()) {name : Value}
    {s : Session σ} (hselect : (around.select [] question questionHelp s.world).1 = .ok name)
    (asJson : Bool) :
    (KeepsNameRule name →
      EndsWith s (run (around.answeringFor answers) ⟨.supplied name, asJson, s⟩)
        ((answers name).report? asJson) ∧
      EndsWith s (run (around.answeringFor answers) ⟨.unresolved, asJson, s⟩)
        ((answers name).report? asJson)) ∧
    (¬ KeepsNameRuleUpToFeed name →
      (¬ KeepsNameRule name →
        EndsWith s (run (around.answeringFor answers) ⟨.supplied name, asJson, s⟩) none ∧
        EndsWith s (run (around.answeringFor answers) ⟨.unresolved, asJson, s⟩)
          (if name.isSet then (answers name).report? asJson else none)) ∧
      ((∃ text?,
          EndsWith s (run (around.answeringFor answers) ⟨.supplied name, asJson, s⟩) text? ∧
          EndsWith s (run (around.answeringFor answers) ⟨.unresolved, asJson, s⟩) text?) ↔
        KeepsNameRule name ∨
          ∃ f, (run (around.answeringFor answers) ⟨.unresolved, asJson, s⟩).1 = .error f)) := by
  have hsupplied := endsWith_supplied around answers hwrite name asJson s
  have hselected := endsWith_selected around answers hwrite hselect asJson
  have hkept : KeepsNameRule name →
      EndsWith s (run (around.answeringFor answers) ⟨.supplied name, asJson, s⟩)
        ((answers name).report? asJson) ∧
      EndsWith s (run (around.answeringFor answers) ⟨.unresolved, asJson, s⟩)
        ((answers name).report? asJson) := by
    intro hrule
    have hform := isOk_checkName_iff.mpr (Or.inl hrule)
    rw [hform, if_pos rfl] at hsupplied
    rw [isSet_of_checkName hform, if_pos rfl] at hselected
    exact ⟨hsupplied, hselected⟩
  refine ⟨hkept, fun hfeed => ?_⟩
  have hbroken : ¬ KeepsNameRule name →
      EndsWith s (run (around.answeringFor answers) ⟨.supplied name, asJson, s⟩) none := by
    intro hrule
    have hform : ¬ (checkName name).isOk = true := by
      rw [isOk_checkName_iff]
      exact not_or.mpr ⟨hrule, hfeed⟩
    rwa [if_neg hform] at hsupplied
  refine ⟨fun hrule => ⟨hbroken hrule, hselected⟩, ?_, ?_⟩
  · rintro ⟨text?, hleft, hright⟩
    by_cases hrule : KeepsNameRule name
    · exact Or.inl hrule
    · obtain rfl := (hbroken hrule).eq hleft
      exact Or.inr hright.1
  · rintro (hrule | ⟨f, hf⟩)
    · exact ⟨_, hkept hrule⟩
    · by_cases hrule : KeepsNameRule name
      · exact ⟨_, hkept hrule⟩
      · -- a run that fails ends with nothing written
        refine ⟨none, hbroken hrule, ?_⟩
        cases htext : if name.isSet then (answers name).report? asJson else none with
        | none => rwa [htext] at hselected
        | some text =>
          rw [htext] at hselected
          cases hf.symm.trans hselected.1

/-- The answers that there is an application of every name, without resources. -/
def alwaysFound (name : Value) : Outcomes
  | .app => .ok ⟨name, .text "", .text "", .null, []⟩
  | .environments => .ok []
  | .services => .ok []
  | .pipelines => .ok (.records [])

theorem supplied_selected_willing : (∀ text s, (willing.write text s).1 = .ok ()) ∧
    (willing.select [] question questionHelp ()).1 = .ok (.text "my-app") ∧ ∃ text,
      EndsWith ⟨(), []⟩ (run (willing.answeringFor alwaysFound)
        ⟨.supplied (.text "my-app"), true, ⟨(), []⟩⟩) (some text) ∧
      EndsWith ⟨(), []⟩ (run (willing.answeringFor alwaysFound)
        ⟨.unresolved, true, ⟨(), []⟩⟩) (some text) := by
  have hselect : (willing.select [] question questionHelp (Session.mk () []).world).1 =
      .ok (.text "my-app") := rfl
  have hreport : ((alwaysFound (.text "my-app")).report? true).isSome := rfl
  obtain ⟨text, htext⟩ := Option.isSome_iff_exists.mp hreport
  have hname : IsAppName "my-app".toList := by
    refine ⟨'m', "y-app".toList, by decide, ⟨by decide, by decide⟩, fun c hc => ?_⟩
    exact isNameChar_iff.mp (List.all_eq_true.mp (by decide : "y-app".toList.all isNameChar) c hc)
  have hends := (supplied_selected willing alwaysFound (fun _ _ => rfl) hselect true).1
    ⟨"my-app", rfl, hname⟩
  rw [htext] at hends
  exact ⟨fun _ _ => rfl, hselect, text, hends⟩

/-- Surroundings that always answer, in which the only application to select has a name with a blank
and capital letters. -/
def malformed : Surroundings Unit :=
  let apps : List Application := [⟨.text "My App", .text "", .text "", .null, []⟩]
  { willing with select := fun _ promptText help s =>
      ((Selector.select (.ok apps) promptText help []).outcome, s) }

/-- A malformed name is refused if it is supplied, and shown if it is selected. -/
theorem run_malformed :
    EndsWith ⟨(), []⟩ (run malformed ⟨.supplied (.text "My App"), true, ⟨(), []⟩⟩) none ∧
    (∃ text, EndsWith ⟨(), []⟩ (run malformed ⟨.unresolved, true, ⟨(), []⟩⟩) (some text)) ∧
    ¬ ∃ text?,
      EndsWith ⟨(), []⟩ (run malformed ⟨.supplied (.text "My App"), true, ⟨(), []⟩⟩) text? ∧
      EndsWith ⟨(), []⟩ (run malformed ⟨.unresolved, true, ⟨(), []⟩⟩) text? := by
  have hsupplied : EndsWith ⟨(), []⟩
      (run malformed ⟨.supplied (.text "My App"), true, ⟨(), []⟩⟩) none := ⟨⟨_, rfl⟩, rfl⟩
  have hselected : EndsWith ⟨(), []⟩ (run malformed ⟨.unresolved, true, ⟨(), []⟩⟩)
      (some ("\x7b\"name\": \"My App\", \"uri\": \"\", \"environments\": [], \"services\": [], "
        ++ "\"pipelines\": []\x7d\n")) := ⟨rfl, by decide +kernel⟩
  refine ⟨hsupplied, ⟨_, hselected⟩, ?_⟩
  rintro ⟨text?, hleft, hright⟩
  rw [← hsupplied.eq hleft] at hright
  cases hright.eq hselected

end Showing

end AppReport
