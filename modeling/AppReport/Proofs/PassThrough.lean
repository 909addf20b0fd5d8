import AppReport.Proofs.Writability

/-!
# Pipeline records passed through

A record of the directory without bytes and with finite numbers goes through checking and writing
without change. What is written of it (`Fields.passedThrough`) begins with the six known fields in
a fixed order, each with the value that the record gives under the external name, else under its
own, else a default; all other fields of the record follow as they are and in their order, among
them those with the own name of a known field that is also given under its external name.

`Pipeline.value_of_check` says so of checking, where the cases are those of `FieldName.keyIn?`, and
`Report.document_passes_through` of the report, whatever the other pipelines in it are.
-/

namespace AppReport

open Text

namespace Fields

/-- The value of a field that a record gives under one of two names; the first goes first. -/
def given (record : Fields) (external own : String) (default : Value) : Value :=
  ((record.get? external).or (record.get? own)).getD default

/-- A field of a record that is none of the known ones: it has the external name of none, and the
own name of one only if that is also given under its external name. -/
structure IsFurther (record : Fields) (key : String) : Prop where
  not_external :
    key ∉ ["pipelineName", "region", "accountId", "stages", "createdAt", "updatedAt"]
  external_of_own : ∀ names ∈ [("pipelineName", "name"), ("accountId", "account_id"),
    ("createdAt", "created_at"), ("updatedAt", "updated_at")], key = names.2 →
      (record.get? names.1).isSome = true

instance (record : Fields) (key : String) : Decidable (IsFurther record key) :=
  decidable_of_iff (_ ∧ _) ⟨fun h => ⟨h.1, h.2⟩, fun h => ⟨h.not_external, h.external_of_own⟩⟩

/-- What a document has of a pipeline record. The name has no default: a record without one is
refused. -/
def passedThrough (record : Fields) : Fields :=
  [("pipelineName", record.given "pipelineName" "name" .null),
    ("region", record.given "region" "region" (.text "")),
    ("accountId", record.given "accountId" "account_id" (.text "")),
    ("stages", record.given "stages" "stages" (.list [])),
    ("createdAt", record.given "createdAt" "created_at" .null),
    ("updatedAt", record.given "updatedAt" "updated_at" .null)] ++
  record.filter fun field => record.IsFurther field.1

/-! ### The fields of a record -/

theorem isPlain_of_get? {fields : Fields} (h : (Value.object fields).isPlain = true) {key : String}
    {v : Value} (hv : fields.get? key = some v) : v.isPlain = true := by
  rw [Value.isPlain, Value.fieldsPlain_iff] at h
  exact h (key, v) (mem_of_get? hv)

theorem isPlain_passedThrough {record : Fields}
    (h : (Value.object record).isPlain = true) :
    (Value.object record.passedThrough).isPlain = true := by
  have hgiven : ∀ external own default, default.isPlain = true →
      (record.given external own default).isPlain = true := by
    intro external own default hdefault
    rw [given]
    cases hvalue : (record.get? external).or (record.get? own) with
    | none => exact hdefault
    | some v =>
      obtain hexternal | ⟨-, hown⟩ := Option.or_eq_some_iff.mp hvalue
      · exact isPlain_of_get? h hexternal
      · exact isPlain_of_get? h hown
  rw [Value.isPlain, Value.fieldsPlain_iff] at h
  rw [Value.isPlain, Value.fieldsPlain_iff, passedThrough, List.forall_mem_append]
  constructor
  · simp only [List.forall_mem_cons]
    exact ⟨hgiven _ _ _ rfl, hgiven _ _ _ rfl, hgiven _ _ _ rfl, hgiven _ _ _ rfl,
      hgiven _ _ _ rfl, hgiven _ _ _ rfl, List.forall_mem_nil _⟩
  · exact fun field hfield => h field (List.mem_of_mem_filter hfield)

end Fields

/-- A key of the record is that of a known field if it is the external name, or the own name where
the record does not give the field under its external name. -/
theorem FieldName.keyIn?_eq_some_iff_of_given {record : Fields} {field : FieldName} {key : String}
    (hgiven : (record.get? key).isSome = true) : field.keyIn? record = some key ↔
      key = field.external ∨ key = field.name ∧ ¬ (record.get? field.external).isSome = true := by
  rw [keyIn?_eq_some_iff, Option.not_isSome_iff_eq_none]
  constructor
  · rintro (⟨hkey, -⟩ | ⟨hkey, hnone, -⟩)
    · exact Or.inl hkey
    · exact Or.inr ⟨hkey, hnone⟩
  · rintro (rfl | ⟨rfl, hnone⟩)
    · exact Or.inl ⟨rfl, hgiven⟩
    · exact Or.inr ⟨rfl, hnone, hgiven⟩

/-- A field that passes its check has the value that the record gives or the default, where the
reader gives back what it takes and the default stands for a value. -/
theorem FieldName.given_of_check {α : Type} {field : FieldName} {fields : Fields}
    {default : Option α} {reader : Value → Checked α} {value : α → Value} {otherwise : Value}
    {x : α} (hplain : (Value.object fields).isPlain = true)
    (hreader : ∀ v y, v.isPlain = true → reader v = .ok y → value y = v)
    (hdefault : ∀ y, default = some y → value y = otherwise)
    (h : field.check fields default reader = .ok x) :
    fields.given field.external field.name otherwise = value x := by
  have hread : ∀ key v, fields.get? key = some v → field.keyIn? fields = some key →
      value x = v := by
    intro key v hv hkey
    unfold check at h
    rw [hkey] at h
    dsimp only at h
    rw [Fields.getD, hv, Checked.inside_eq_ok_iff] at h
    exact hreader v x (Fields.isPlain_of_get? hplain hv) h
  rw [Fields.given]
  cases hexternal : fields.get? field.external with
  | some v =>
    refine (hread _ v hexternal (keyIn?_eq_some_iff.mpr (Or.inl ⟨rfl, ?_⟩))).symm
    rw [hexternal]
    rfl
  | none =>
    cases hown : fields.get? field.name with
    | some v =>
      refine (hread _ v hown (keyIn?_eq_some_iff.mpr (Or.inr ⟨rfl, hexternal, ?_⟩))).symm
      rw [hown]
      rfl
    | none =>
      -- the record gives the field under neither name
      have hkey : field.keyIn? fields = none := by
        rw [keyIn?, hexternal, hown]
        rfl
      unfold check at h
      rw [hkey] at h
      cases default with
      | none => cases h
      | some y =>
        cases h
        exact (hdefault x rfl).symm

/-! ### Readers of values without bytes -/

namespace Checked

theorem text_of_isPlain (v : Value) (s : String) (hplain : v.isPlain = true)
    (h : text v = .ok s) : Value.text s = v := by
  cases v with
  | text t => cases h; rfl
  | bytes b => cases hplain
  | _ => cases h

theorem text?_of_isPlain (v : Value) (s : Option String) (hplain : v.isPlain = true)
    (h : text? v = .ok s) : Value.ofText? s = v := by
  cases v with
  | null => cases h; rfl
  | text t => cases h; rfl
  | bytes b => cases hplain
  | _ => cases h

theorem objects_of_isPlain (v : Value) (objects : List Fields) (_ : v.isPlain = true)
    (h : list object v = .ok objects) : Value.list (objects.map Value.object) = v := by
  cases v with
  | list items =>
    have hitems : items.map object = objects.map .ok := itemsFrom_eq_ok_iff.mp h
    have hobject : ∀ item fields, object item = .ok fields → item = .object fields := by
      intro item fields hok
      cases item with
      | object fields => cases hok; rfl
      | _ => cases hok
    rw [← map_eq_map_of_imp (g := id) hobject hitems, List.map_id]
  | _ => cases h

end Checked

/-! ### Checked records -/

namespace Pipeline

/-- The known fields with one name alone have no own name that could be a further field. -/
theorem isFurther_iff {record : Fields} {key : String} : record.IsFurther key ↔
    ∀ field ∈ knownFields, key ≠ field.external ∧
      (key = field.name → (record.get? field.external).isSome = true) := by
  constructor
  · rintro ⟨hexternal, hown⟩
    simp only [List.mem_cons, List.not_mem_nil, or_false, not_or] at hexternal
    simp only [List.forall_mem_cons] at hown
    simp only [knownFields, List.forall_mem_cons]
    obtain ⟨hname, hregion, haccount, hstages, hcreated, hupdated⟩ := hexternal
    obtain ⟨hownName, hownAccount, hownCreated, hownUpdated, -⟩ := hown
    exact ⟨⟨hname, hownName⟩, ⟨hregion, fun h => absurd h hregion⟩, ⟨haccount, hownAccount⟩,
      ⟨hstages, fun h => absurd h hstages⟩, ⟨hcreated, hownCreated⟩, ⟨hupdated, hownUpdated⟩,
      nofun⟩
  · intro h
    simp only [knownFields, List.forall_mem_cons] at h
    obtain ⟨hname, hregion, haccount, hstages, hcreated, hupdated, -⟩ := h
    constructor
    · simp only [List.mem_cons, List.not_mem_nil, or_false, not_or]
      exact ⟨hname.1, hregion.1, haccount.1, hstages.1, hcreated.1, hupdated.1⟩
    · simp only [List.forall_mem_cons]
      exact ⟨hname.2, haccount.2, hcreated.2, hupdated.2, nofun⟩

/-- The further fields of a checked record are those that are none of the known ones. -/
theorem unknown_eq_filter (record : Fields) :
    record.unknown knownFields = record.filter fun field => record.IsFurther field.1 := by
  have hused : ∀ key, (record.get? key).isSome = true →
      (key ∈ knownFields.filterMap (fun field => field.keyIn? record) ↔
        ¬ record.IsFurther key) := by
    -- a key that is given is used by a known field just where it breaks one of its conditions
    intro key hgiven
    rw [List.mem_filterMap, isFurther_iff]
    push Not
    refine exists_congr fun field => and_congr_right fun _ => ?_
    rw [FieldName.keyIn?_eq_some_iff_of_given hgiven, or_iff_not_imp_left]
  rw [Fields.unknown]
  refine List.filter_congr fun field hfield => ?_
  have hgiven : (record.get? field.1).isSome = true :=
    List.lookup_isSome_iff.mpr ⟨field, hfield, by simp⟩
  rw [Bool.eq_iff_iff, Bool.not_eq_true', ← Bool.not_eq_true, List.contains_iff_mem,
    hused field.1 hgiven, not_not, decide_eq_true_eq]

/-- The check of a record without bytes and with finite numbers leaves all values as they are. -/
theorem value_of_check {record : Fields} {p : Pipeline} (h : check (.object record) = .ok p)
    (hplain : (Value.object record).isPlain = true) : p.value = .object record.passedThrough := by
  rw [check] at h
  split at h
  · rename_i hall
    cases h
    simp only [Checked.both_eq_ok_iff] at hall
    obtain ⟨hname, hregion, haccount, hstages, hcreated, hupdated⟩ := hall
    have hname : record.given "pipelineName" "name" .null = .text _ :=
      FieldName.given_of_check hplain Checked.text_of_isPlain (by rintro _ ⟨⟩) hname
    have hregion : record.given "region" "region" (.text "") = .text _ :=
      FieldName.given_of_check hplain Checked.text_of_isPlain (by rintro _ ⟨⟩; rfl) hregion
    have haccount : record.given "accountId" "account_id" (.text "") = .text _ :=
      FieldName.given_of_check hplain Checked.text_of_isPlain (by rintro _ ⟨⟩; rfl) haccount
    have hstages : record.given "stages" "stages" (.list []) = .list (List.map .object _) :=
      FieldName.given_of_check hplain Checked.objects_of_isPlain (by rintro _ ⟨⟩; rfl) hstages
    have hcreated : record.given "createdAt" "created_at" .null = .ofText? _ :=
      FieldName.given_of_check hplain Checked.text?_of_isPlain (by rintro _ ⟨⟩; rfl) hcreated
    have hupdated : record.given "updatedAt" "updated_at" .null = .ofText? _ :=
      FieldName.given_of_check hplain Checked.text?_of_isPlain (by rintro _ ⟨⟩; rfl) hupdated
    rw [value, knownValues, ← hname, ← hregion, ← haccount, ← hstages, ← hcreated, ← hupdated,
      unknown_eq_filter]
    rfl
  · cases h

theorem isPlain_of_isPlain_value {p : Pipeline} (h : p.value.isPlain = true) : p.IsPlain := by
  rw [value, Value.isPlain, Value.fieldsPlain_iff, List.forall_mem_append] at h
  obtain ⟨hknown, hextras⟩ := h
  refine ⟨fun stage hstage => ?_, Value.fieldsPlain_iff.mpr hextras⟩
  simp only [knownValues, List.forall_mem_cons] at hknown
  obtain ⟨-, -, -, hstages, -⟩ := hknown
  exact Value.itemsPlain_iff.mp hstages _ (List.mem_map_of_mem hstage)

/-- What is written of a checked record without bytes and with finite numbers are its own fields. -/
theorem document_of_check {record : Fields} {p : Pipeline} (h : check (.object record) = .ok p)
    (hplain : (Value.object record).isPlain = true) (hwritable : ∀ v ∈ p.untyped, v.IsWritable) :
    p.document = .ok (.object record.passedThrough) := by
  have hvalue := value_of_check h hplain
  cases hdocument : p.document with
  | error f =>
    obtain ⟨v, hv, hfailed⟩ := document_eq_error hdocument
    exact absurd (hwritable v hv) (Value.unwritable_of_documented hfailed).not_isWritable
  | ok w =>
    obtain ⟨q, hq, rfl⟩ := document_eq_ok_iff.mp hdocument
    have hp : p.IsPlain := isPlain_of_isPlain_value (hvalue ▸ Fields.isPlain_passedThrough hplain)
    rw [hq.eq_of_isPlain hp, hvalue]

end Pipeline

/-! ### Records in reports -/

theorem exists_append_of_forall₂ {α β : Type} {R : α → β → Prop} {as as' : List α} {bs : List β}
    (h : List.Forall₂ R (as ++ as') bs) : ∃ cs cs', bs = cs ++ cs' ∧ cs.length = as.length ∧
      List.Forall₂ R as' cs' := by
  induction as generalizing bs with
  | nil => exact ⟨[], bs, rfl, rfl, h⟩
  | cons a as ih =>
    cases h with
    | cons _ hrest =>
      obtain ⟨cs, cs', rfl, hlength, hcs'⟩ := ih hrest
      exact ⟨_ :: cs, cs', rfl, congrArg Nat.succ hlength, hcs'⟩

namespace Report

/-- A record of the directory without bytes and with finite numbers, none of whose untyped values
nests too deep or has a long integer, is no obstacle to the report for programs, and is in it with
all its fields, whatever the other pipelines of the description are. -/
theorem document_passes_through {record : Fields} {p : Pipeline}
    (hp : Pipeline.check (.object record) = .ok p)
    (hplain : (Value.object record).isPlain = true) (hwritable : ∀ v ∈ p.untyped, v.IsWritable)
    {d : Description} {before after : List Pipeline} (hd : d.pipelines = before ++ p :: after) :
    ((∃ t, document d = .ok t) ↔ ∃ t, document { d with pipelines := before ++ after } = .ok t) ∧
      ∀ t, document d = .ok t → ∃ vs ws : List Value, vs.length = before.length ∧
        ws.length = after.length ∧ ∃ v : Value, v = .object [("name", .text d.name),
            ("uri", .text d.uri),
            ("environments", .list (d.environments.map EnvironmentView.document)),
            ("services", .list (d.services.map WorkloadView.document)),
            ("pipelines", .list (vs ++ .object record.passedThrough :: ws))] ∧
          t = Json.write v ++ "\n" ∧ (d.IsProper → Json.read t = .ok v) := by
  have huntyped : (∀ v ∈ d.untyped, v.IsWritable) ↔
      ∀ v ∈ Description.untyped { d with pipelines := before ++ after }, v.IsWritable := by
    rw [Description.untyped, Description.untyped, hd]
    simp only [List.flatMap_append, List.flatMap_cons, List.forall_mem_append]
    exact and_congr_right fun _ => and_iff_right hwritable
  constructor
  · constructor
    · rintro ⟨t, ht⟩
      exact exists_document_of_isWritable (huntyped.mp (isWritable_of_document ht))
    · rintro ⟨t, ht⟩
      exact exists_document_of_isWritable (huntyped.mpr (isWritable_of_document ht))
  · intro t ht
    obtain ⟨d', hd', hshort, rfl⟩ := document_eq_ok_iff.mp ht
    -- the pipeline that the document holds in the place of the record has its fields
    obtain ⟨qs, rest, hqs, hbefore, hrest⟩ := exists_append_of_forall₂ (hd ▸ hd'.pipelines)
    obtain ⟨q, rs, hpq, hafter, rfl⟩ := List.forall₂_cons_left_iff.mp hrest
    have hq : q.value = .object record.passedThrough := by
      have hdocument := Pipeline.document_eq_ok_iff.mpr ⟨q, hpq, rfl⟩
      rw [Pipeline.document_of_check hp hplain hwritable] at hdocument
      exact (Except.ok.inj hdocument).symm
    refine ⟨qs.map Pipeline.value, rs.map Pipeline.value, ?_, ?_, d'.value, ?_, rfl,
      fun hproper => ?_⟩
    · rw [List.length_map, hbefore]
    · rw [List.length_map, hafter.length_eq]
    · rw [Description.value, Description.fields, hqs, List.map_append, List.map_cons, hq, hd'.eq]
      rfl
    · exact Json.read_write ((hd'.isDocument_value hproper).mono (by decide)) hshort

/-- A record that gives its name under both names and its account under the own name only. -/
def twiceNamed : Fields :=
  [("name", .text "old"), ("account_id", .text "1"),
    ("owner", .object [("teams", .list [.int 7, .null, .text "ops"])]),
    ("pipelineName", .text "deploy"),
    ("stages", .list [.object [("name", .text "Source"), ("actions", .list [.object []])]])]

/-- The pipeline that this record is, with a further field for the own name. -/
def twiceNamedPipeline : Pipeline where
  name := "deploy"
  region := ""
  accountId := "1"
  stages := [[("name", .text "Source"), ("actions", .list [.object []])]]
  createdAt := none
  updatedAt := none
  extras := [("name", .text "old"),
    ("owner", .object [("teams", .list [.int 7, .null, .text "ops"])])]

theorem document_passes_through_twiceNamed :
    twiceNamed.passedThrough = [("pipelineName", .text "deploy"), ("region", .text ""),
      ("accountId", .text "1"),
      ("stages", .list [.object [("name", .text "Source"), ("actions", .list [.object []])]]),
      ("createdAt", .null), ("updatedAt", .null), ("name", .text "old"),
      ("owner", .object [("teams", .list [.int 7, .null, .text "ops"])])] ∧
    ∃ t, document { unsettled with pipelines := unsettled.pipelines ++ [twiceNamedPipeline] } =
      .ok t ∧ ∃ vs ws : List Value, vs.length = 1 ∧ ws.length = 0 ∧ ∃ v : Value,
        v = .object [("name", .text "shop"), ("uri", .text ""),
          ("environments", .list (unsettled.environments.map EnvironmentView.document)),
          ("services", .list []),
          ("pipelines", .list (vs ++ .object twiceNamed.passedThrough :: ws))] ∧
        t = Json.write v ++ "\n" ∧ Json.read t = .ok v := by
  have hwritable : ∀ v ∈ twiceNamedPipeline.untyped, v.IsWritable := by
    intro v hv
    have hv : v ∈ [.text "Source", .list [.object []], .text "old",
      .object [("teams", .list [.int 7, .null, .text "ops"])]] := hv
    simp only [List.mem_cons, List.not_mem_nil, or_false] at hv
    obtain rfl | rfl | rfl | rfl := hv <;>
      exact Value.isWritable_of_documented rfl (by decide +kernel)
  have hproper : Description.IsProper
      { unsettled with pipelines := unsettled.pipelines ++ [twiceNamedPipeline] } := by
    rw [Description.IsProper, List.forall_mem_append]
    exact ⟨List.forall_mem_singleton.mpr ⟨by decide, by decide, by decide⟩,
      List.forall_mem_singleton.mpr ⟨by decide, by decide, by decide⟩⟩
  have hcheck : Pipeline.check (.object twiceNamed) = .ok twiceNamedPipeline := rfl
  obtain ⟨hiff, hwritten⟩ := document_passes_through hcheck (by decide) hwritable
    (d := { unsettled with pipelines := unsettled.pipelines ++ [twiceNamedPipeline] }) rfl
  have hdocument : ∃ t, document { unsettled with pipelines := unsettled.pipelines ++ [] } =
    .ok t := ⟨_, rfl⟩
  obtain ⟨t, ht⟩ := hiff.mpr hdocument
  obtain ⟨vs, ws, hvs, hws, v, hv, htext, hread⟩ := hwritten t ht
  exact ⟨rfl, t, ht, vs, ws, hvs, hws, v, hv, htext, hread hproper⟩

end Report

end AppReport
