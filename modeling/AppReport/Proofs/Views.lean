import AppReport.Describe
import AppReport.Proofs.Readable
import AppReport.Report.Document

/-!
# From rows to a report

The views of a description take their texts from the columns of a row (`shownColumn?`): the document
of a view is `EnvironmentRow.document?` or `WorkloadRow.document?` of the row that it was made of
(`EnvironmentRow.document?_of_view`, `WorkloadRow.document?_of_view`). The report for programs is an
object of the name, the address, and the documents of all parts in their order
(`Report.document_eq_ok`).
-/

namespace AppReport

open Text

/-! ### Checks -/

namespace Checked

variable {α β : Type}

@[simp] theorem inside_eq_ok_iff {step : Locus} {a : Checked α} {x : α} :
    a.inside step = .ok x ↔ a = .ok x := by
  cases a <;> simp [inside]

@[simp] theorem both_eq_ok_iff {a : Checked α} {b : Checked β} {x : α × β} :
    a.both b = .ok x ↔ a = .ok x.1 ∧ b = .ok x.2 := by
  cases a <;> cases b <;> simp [both, Prod.ext_iff]

/-- A list passes a check exactly when every item does. -/
theorem itemsFrom_eq_ok_iff {check : α → Checked β} {i : Nat} {as : List α} {bs : List β} :
    itemsFrom check i as = .ok bs ↔ as.map check = bs.map .ok := by
  induction as generalizing i bs with
  | nil => cases bs <;> simp [itemsFrom]
  | cons a as ih =>
    rw [itemsFrom]
    constructor
    · intro h
      split at h
      · rename_i y ys hboth
        cases h
        obtain ⟨hy, hys⟩ := both_eq_ok_iff.mp hboth
        rw [List.map_cons, List.map_cons, inside_eq_ok_iff.mp hy, ih.mp hys]
      · cases h
    · intro h
      cases bs with
      | nil => cases h
      | cons b bs =>
        obtain ⟨hb, hbs⟩ := List.cons.inj h
        have hboth :
            ((check a).inside (.index i)).both (itemsFrom check (i + 1) as) = .ok (b, bs) :=
          both_eq_ok_iff.mpr ⟨inside_eq_ok_iff.mpr hb, ih.mpr hbs⟩
        rw [hboth]

end Checked

/-! ### Columns -/

/-- The text that a report shows for a column: an empty one for nothing, and for bytes the text that
they encode, if they do. -/
def shownColumn? : Option Stored → Option String
  | none => some ""
  | some (.text s) => some s
  | some (.bytes b) => (decode? b).map String.ofList
  | some (.malformed ..) => none

theorem text_eq_ok_iff {s : Stored} {x : String} :
    Checked.text s.value = .ok x ↔ shownColumn? (some s) = some x := by
  cases s with
  | text s => simp [Stored.value, Checked.text, shownColumn?]
  | bytes b =>
    simp only [Stored.value, Checked.text, shownColumn?]
    cases decode? b <;> simp [Checked.fail]
  | malformed b h => simp [Stored.value, Checked.text, Checked.fail, shownColumn?]

theorem text_orEmpty_eq_ok_iff {s : Option Stored} (hs : IsReadableColumn s) {x : String} :
    Checked.text (storedValue s).orEmpty = .ok x ↔ shownColumn? s = some x := by
  cases s with
  | none => simp [storedValue, Value.orEmpty, Value.isSet, Checked.text, shownColumn?]
  | some s =>
    by_cases hset : s.value.isSet = true
    · rw [storedValue, Value.orEmpty, if_pos hset, text_eq_ok_iff]
    · rw [storedValue, Value.orEmpty, if_neg hset]
      -- the empty text, and no bytes, are shown like nothing
      have hempty : shownColumn? (some s) = some "" := by
        cases s with
        | text s => simpa [Stored.value, Value.isSet, shownColumn?] using hset
        | bytes b =>
          have hb : b = [] := by simpa [Stored.value, Value.isSet] using hset
          rw [hb]
          rfl
        | malformed b h => exact absurd (hs _ rfl) id
      rw [hempty]
      simp [Checked.text]

/-! ### Views of rows -/

/-- What a report shows of the row of an environment. -/
def EnvironmentRow.document? (r : EnvironmentRow) : Option Value := do
  let name ← shownColumn? (some r.name)
  let accountId ← shownColumn? r.accountId
  let region ← shownColumn? r.region
  some (.object [("name", .text name), ("accountID", .text accountId), ("region", .text region),
    ("prod", .bool r.prod.value.isSet)])

/-- What a report shows of the row of a workload. -/
def WorkloadRow.document? (r : WorkloadRow) : Option Value := do
  let name ← shownColumn? (some r.name)
  let type ← shownColumn? r.type
  some (.object [("name", .text name), ("type", .text type)])

theorem Environment.ofRow_toFields (app : Stored) (r : EnvironmentRow) :
    Environment.ofRow (r.toFields app) =
      { app := app.value, name := r.name.value, accountId := (storedValue r.accountId).orEmpty,
        region := (storedValue r.region).orEmpty, prod := r.prod.value.isSet,
        registryUrl := storedValue r.registryUrl, executionRole := storedValue r.executionRole,
        managerRole := storedValue r.managerRole } := rfl

theorem Workload.ofRow_toFields (app : Stored) (r : WorkloadRow) :
    Workload.ofRow (r.toFields app) =
      { app := app.value, name := r.name.value, type := (storedValue r.type).orEmpty } := rfl

theorem EnvironmentView.check_object (name accountId region prod : Value) :
    check (.object [("name", name), ("account_id", accountId), ("region", region),
      ("prod", prod)]) =
    match ((Checked.text name).inside (.key "name")).both
        (((Checked.text accountId).inside (.key "account_id")).both
          (((Checked.text region).inside (.key "region")).both
            (((Checked.bool prod).inside (.key "prod")).both (.ok ())))) with
    | .ok (name, accountId, region, prod, ()) => .ok ⟨name, accountId, region, prod⟩
    | .error issues => .error issues := rfl

theorem WorkloadView.check_object (name type : Value) :
    check (.object [("name", name), ("type", type)]) =
    match ((Checked.text name).inside (.key "name")).both
        (((Checked.text type).inside (.key "type")).both (.ok ())) with
    | .ok (name, type, ()) => .ok ⟨name, type⟩
    | .error issues => .error issues := rfl

theorem EnvironmentView.ofValue_eq_ok_iff {v : Value} {view : EnvironmentView} :
    ofValue v = .ok view ↔ check v = .ok view := by
  rw [ofValue]
  cases check v <;> simp

theorem WorkloadView.ofValue_eq_ok_iff {v : Value} {view : WorkloadView} :
    ofValue v = .ok view ↔ check v = .ok view := by
  rw [ofValue]
  cases check v <;> simp

/-- The view of an environment takes over its fields, as texts. -/
theorem EnvironmentView.ofRecord_eq_ok_iff {e : Environment} {view : EnvironmentView} :
    ofRecord e = .ok view ↔ Checked.text e.name = .ok view.name ∧
      Checked.text e.accountId = .ok view.accountId ∧ Checked.text e.region = .ok view.region ∧
      e.prod = view.prod := by
  rw [ofRecord, ofValue_eq_ok_iff, check_object]
  constructor
  · intro h
    split at h
    · rename_i hall
      cases h
      simpa [Checked.bool] using hall
    · cases h
  · rintro ⟨hname, haccount, hregion, hprod⟩
    simp [hname, haccount, hregion, hprod, Checked.inside, Checked.both, Checked.bool]

/-- The view of a workload takes over its fields, as texts. -/
theorem WorkloadView.ofRecord_eq_ok_iff {w : Workload} {view : WorkloadView} :
    ofRecord w = .ok view ↔ Checked.text w.name = .ok view.name ∧
      Checked.text w.type = .ok view.type := by
  rw [ofRecord, ofValue_eq_ok_iff, check_object]
  constructor
  · intro h
    split at h
    · rename_i hall
      cases h
      simpa using hall
    · cases h
  · rintro ⟨hname, htype⟩
    simp [hname, htype, Checked.inside, Checked.both]

/-- The view of an environment shows the columns of its row. -/
theorem EnvironmentRow.document?_of_view {app : Stored} {r : EnvironmentRow}
    {view : EnvironmentView} (hr : r.IsReadable)
    (h : EnvironmentView.ofRecord (.ofRow (r.toFields app)) = .ok view) :
    r.document? = some view.document := by
  rw [Environment.ofRow_toFields, EnvironmentView.ofRecord_eq_ok_iff] at h
  obtain ⟨hname, haccount, hregion, hprod⟩ := h
  rw [text_eq_ok_iff] at hname
  rw [text_orEmpty_eq_ok_iff hr.accountId] at haccount
  rw [text_orEmpty_eq_ok_iff hr.region] at hregion
  rw [document?, hname, haccount, hregion, EnvironmentView.document, ← hprod]
  rfl

/-- The view of a workload shows the columns of its row. -/
theorem WorkloadRow.document?_of_view {app : Stored} {r : WorkloadRow} {view : WorkloadView}
    (hr : r.IsReadable) (h : WorkloadView.ofRecord (.ofRow (r.toFields app)) = .ok view) :
    r.document? = some view.document := by
  rw [Workload.ofRow_toFields, WorkloadView.ofRecord_eq_ok_iff] at h
  obtain ⟨hname, htype⟩ := h
  rw [text_eq_ok_iff] at hname
  rw [text_orEmpty_eq_ok_iff hr.type] at htype
  rw [document?, hname, htype]
  rfl

/-- An application has the name of its row, and the address in it. -/
theorem Application.ofRow_eq_ok {r : ApplicationRow} {app : Application}
    (h : ofRow r.toFields = .ok app) :
    app.name = r.name.value ∧ app.domain = (storedValue r.domain).orEmpty := by
  rw [ofRow] at h
  split at h
  · cases h
  · cases h
    exact ⟨rfl, rfl⟩

/-! ### Descriptions -/

/-- A description takes over the name, the address and the pipelines, as far as they pass their
checks, and its views as they are. -/
theorem Description.assemble_eq_ok_iff {name uri : Value} {environments : List EnvironmentView}
    {services : List WorkloadView} {pipelines : List PipelineItem} {d : Description} :
    assemble name uri environments services pipelines = .ok d ↔
      Checked.text name = .ok d.name ∧ Checked.text uri = .ok d.uri ∧
      d.environments = environments ∧ d.services = services ∧
      pipelines.map PipelineItem.check = d.pipelines.map .ok := by
  rw [assemble]
  constructor
  · intro h
    split at h
    · rename_i hall
      cases h
      simp only [Checked.both_eq_ok_iff, Checked.inside_eq_ok_iff] at hall
      obtain ⟨hname, huri, hpipelines⟩ := hall
      exact ⟨hname, huri, rfl, rfl, Checked.itemsFrom_eq_ok_iff.mp hpipelines⟩
    · cases h
  · rintro ⟨hname, huri, rfl, rfl, hpipelines⟩
    have hitems : Checked.items PipelineItem.check pipelines = .ok d.pipelines :=
      Checked.itemsFrom_eq_ok_iff.mpr hpipelines
    simp [hname, huri, hitems, Checked.inside, Checked.both]

/-- Records that have been checked are not checked again. -/
theorem map_check_record (ps : List Pipeline) :
    (ps.map PipelineItem.record).map PipelineItem.check = ps.map .ok := by
  rw [List.map_map]
  rfl

/-- What a description is made of. -/
theorem Findings.describe_eq_ok {found : Findings} {d : Description} {ps : List Pipeline}
    (hfound : found .pipelines = .records ps) (h : found.describe = .ok d) :
    Checked.text (found .app).name = .ok d.name ∧ Checked.text (found .app).domain = .ok d.uri ∧
    (found .environments).map EnvironmentView.ofRecord = d.environments.map .ok ∧
    (found .services).map WorkloadView.ofRecord = d.services.map .ok ∧ d.pipelines = ps := by
  rw [describe] at h
  split at h
  · cases h
  rename_i environments henvironments
  split at h
  · cases h
  rename_i services hservices
  rw [hfound, Listing.items] at h
  dsimp only at h
  obtain ⟨hname, huri, rfl, rfl, hpipelines⟩ := Description.assemble_eq_ok_iff.mp h
  rw [map_check_record] at hpipelines
  refine ⟨hname, huri, mapUntilFailure_eq_ok_iff.mp henvironments,
    mapUntilFailure_eq_ok_iff.mp hservices, ?_⟩
  exact ((List.map_inj_right fun _ _ h => Except.ok.inj h).mp hpipelines).symm

namespace Report

/-- The report for programs is one object with the parts of the description in their order, and a
line feed. -/
theorem document_eq_ok {d : Description} {text : String} (h : document d = .ok text) :
    ∃ pipelines, d.pipelines.map Pipeline.document = pipelines.map .ok ∧
      text = Json.write (.object [("name", .text d.name), ("uri", .text d.uri),
        ("environments", .list (d.environments.map EnvironmentView.document)),
        ("services", .list (d.services.map WorkloadView.document)),
        ("pipelines", .list pipelines)]) ++ "\n" := by
  rw [document] at h
  split at h
  · rename_i line hline
    cases h
    rw [documentLine] at hline
    split at hline
    · cases hline
    rename_i v hv
    rw [writeDocument] at hline
    split at hline
    · cases hline
    cases hline
    rw [Description.document] at hv
    split at hv
    · cases hv
    rename_i pipelines hpipelines
    cases hv
    exact ⟨pipelines, mapUntilFailure_eq_ok_iff.mp hpipelines, rfl⟩
  · cases h

end Report

end AppReport
