import AppReport.Proofs.ReadBack
import AppReport.Proofs.Views

/-!
# Descriptions read back

The document of a description holds another description (`Description.HeldAs`): the untyped data of
its pipelines have become what documents can hold, and all else is the same. Reading the document
and checking it gives that description, whose reports are those of the first one
(`Report.document_roundtrip`). Where the untyped data hold neither bytes nor a number that is not
finite, both descriptions are the same.

A description that has been checked has each key of an object once, and no further field of a
pipeline has the external name of a known one; these are all descriptions that a check gives
(`Description.isProper_iff`).
-/

namespace AppReport

open Text

/-! ### Untyped data -/

theorem forall₂_exists_of_mem {α β : Type} {R : α → β → Prop} {as : List α} {bs : List β}
    (h : List.Forall₂ R as bs) {b : β} (hb : b ∈ bs) : ∃ a ∈ as, R a b := by
  induction h with
  | nil => cases hb
  | cons hab _ ih =>
    rcases List.mem_cons.mp hb with rfl | hb
    · exact ⟨_, List.mem_cons_self, hab⟩
    · obtain ⟨a, ha, hR⟩ := ih hb
      exact ⟨a, List.mem_cons_of_mem _ ha, hR⟩

theorem eq_of_forall₂ {α : Type} {R : α → α → Prop} {as bs : List α} (h : List.Forall₂ R as bs)
    (heq : ∀ a ∈ as, ∀ b, R a b → b = a) : bs = as := by
  induction h with
  | nil => rfl
  | cons hab _ ih =>
    rw [heq _ List.mem_cons_self _ hab, ih fun a ha => heq a (List.mem_cons_of_mem _ ha)]

/-- If the results of a function are the values of certain things, the results on a list are the
values of a list of these. -/
theorem mapUntilFailure_eq_ok_iff_forall₂ {α β γ : Type} {f : α → Except Failure β} {value : γ → β}
    {R : α → γ → Prop} (h : ∀ {a b}, f a = .ok b ↔ ∃ c, R a c ∧ b = value c) {as : List α}
    {bs : List β} :
    mapUntilFailure f as = .ok bs ↔ ∃ cs : List γ, bs = cs.map value ∧ List.Forall₂ R as cs := by
  rw [mapUntilFailure_eq_ok_iff]
  constructor
  · intro hmap
    induction as generalizing bs with
    | nil =>
      rw [List.map_eq_nil_iff.mp hmap.symm]
      exact ⟨[], rfl, .nil⟩
    | cons a as ih =>
      cases bs with
      | nil => cases hmap
      | cons b bs =>
        obtain ⟨hb, hbs⟩ := List.cons.inj hmap
        obtain ⟨c, hc, rfl⟩ := h.mp hb
        obtain ⟨cs, rfl, hcs⟩ := ih hbs
        exact ⟨c :: cs, rfl, .cons hc hcs⟩
  · rintro ⟨cs, rfl, hcs⟩
    induction hcs with
    | nil => rfl
    | cons hc _ ih => rw [List.map_cons, List.map_cons, List.map_cons, h.mpr ⟨_, hc, rfl⟩, ih]

namespace Value

theorem documentedItems_eq_ok_iff {room : ℕ} {items vs : List Value} :
    documentedItems room items = .ok vs ↔
      List.Forall₂ (fun v w => v.documented room = .ok w) items vs := by
  induction items generalizing vs with
  | nil => cases vs <;> simp [documentedItems]
  | cons v items ih =>
    rw [documentedItems]
    constructor
    · intro h
      split at h
      · cases h
      rename_i w hw
      split at h
      · cases h
      rename_i ws hws
      cases h
      exact .cons hw (ih.mp hws)
    · rintro (_ | ⟨hw, hws⟩)
      rw [hw]
      dsimp only
      rw [ih.mpr hws]

theorem documentedFields_eq_ok_iff {room : ℕ} {fields gs : Fields} :
    documentedFields room fields = .ok gs ↔
      List.Forall₂ (fun f g => f.1 = g.1 ∧ f.2.documented room = .ok g.2) fields gs := by
  induction fields generalizing gs with
  | nil => cases gs <;> simp [documentedFields]
  | cons field fields ih =>
    obtain ⟨key, v⟩ := field
    rw [documentedFields]
    constructor
    · intro h
      split at h
      · cases h
      rename_i w hw
      split at h
      · cases h
      rename_i rest hrest
      cases h
      exact .cons ⟨rfl, hw⟩ (ih.mp hrest)
    · rintro (_ | ⟨⟨hkey, hw⟩, hrest⟩)
      dsimp only at hkey hw
      rw [hw]
      dsimp only
      rw [ih.mpr hrest, hkey]

theorem documented_list_eq_ok_iff {room : ℕ} {items : List Value} {w : Value} :
    (list items).documented room = .ok w ↔ 0 < room ∧ ∃ vs, w = list vs ∧
      List.Forall₂ (fun v w => v.documented (room - 1) = .ok w) items vs := by
  rw [documented]
  by_cases hroom : room = 0
  · simp [hroom]
  · rw [if_neg hroom]
    constructor
    · intro h
      split at h
      · rename_i vs hvs
        cases h
        exact ⟨Nat.pos_of_ne_zero hroom, vs, rfl, documentedItems_eq_ok_iff.mp hvs⟩
      · cases h
    · rintro ⟨-, vs, rfl, hvs⟩
      rw [documentedItems_eq_ok_iff.mpr hvs]

theorem documented_object_eq_ok_iff {room : ℕ} {fields : Fields} {w : Value} :
    (object fields).documented room = .ok w ↔ 0 < room ∧ ∃ gs, w = object gs ∧
      List.Forall₂ (fun f g => f.1 = g.1 ∧ f.2.documented (room - 1) = .ok g.2) fields gs := by
  rw [documented]
  by_cases hroom : room = 0
  · simp [hroom]
  · rw [if_neg hroom]
    constructor
    · intro h
      split at h
      · rename_i gs hgs
        cases h
        exact ⟨Nat.pos_of_ne_zero hroom, gs, rfl, documentedFields_eq_ok_iff.mp hgs⟩
      · cases h
    · rintro ⟨-, gs, rfl, hgs⟩
      rw [documentedFields_eq_ok_iff.mpr hgs]

/-- What a document holds of a value whose objects have each key once is a value that it can hold as
it is. -/
theorem isDocument_of_documented (v : Value) {room : ℕ} {w : Value} (hkeyed : v.isKeyed = true)
    (h : v.documented room = .ok w) : IsDocument room w := by
  induction v using Value.induction generalizing room w with
  | null => cases h; exact isDocument_null room
  | bool b => cases h; exact isDocument_bool room b
  | int n => cases h; exact isDocument_int room n
  | float x =>
    rw [documented, Except.ok.injEq] at h
    subst h
    split
    · rename_i hfinite
      exact ⟨rfl, hfinite, Nat.zero_le room⟩
    · exact isDocument_null room
  | text s => cases h; exact isDocument_text room s
  | bytes b =>
    rw [documented] at h
    split at h
    · cases h
      exact isDocument_text room _
    · cases h
  | list items ih =>
    obtain ⟨hroom, vs, rfl, hvs⟩ := documented_list_eq_ok_iff.mp h
    rw [isKeyed, itemsKeyed_iff] at hkeyed
    refine isDocument_list_iff.mpr ⟨hroom, fun w hw => ?_⟩
    obtain ⟨v, hv, hvw⟩ := forall₂_exists_of_mem hvs hw
    exact ih v hv (hkeyed v hv) hvw
  | object fields ih =>
    obtain ⟨hroom, gs, rfl, hgs⟩ := documented_object_eq_ok_iff.mp h
    rw [isKeyed, Bool.and_eq_true, decide_eq_true_iff, fieldsKeyed_iff] at hkeyed
    -- a document keeps the keys of an object, so that they stay distinct
    have hkeys : fields.map Prod.fst = gs.map Prod.fst := by
      clear h ih hkeyed
      induction hgs with
      | nil => rfl
      | cons hfg _ ih => rw [List.map_cons, List.map_cons, hfg.1, ih]
    refine isDocument_object_iff.mpr ⟨hroom, hkeys ▸ hkeyed.1, fun g hg => ?_⟩
    obtain ⟨f, hf, -, hfg⟩ := forall₂_exists_of_mem hgs hg
    exact ih f hf (hkeyed.2 f hf) hfg

/-- A document holds as it is what it can hold so. -/
theorem documented_of_isDocument (v : Value) {room : ℕ} (h : IsDocument room v) :
    v.documented room = .ok v := by
  induction v using Value.induction generalizing room with
  | null => rfl
  | bool b => rfl
  | int n => rfl
  | float x =>
    have hfinite : x.isFinite = true := h.isPlain
    rw [documented, if_pos hfinite]
  | text s => rfl
  | bytes b => cases h.isPlain
  | list items ih =>
    obtain ⟨hroom, hitems⟩ := isDocument_list_iff.mp h
    refine documented_list_eq_ok_iff.mpr ⟨hroom, items, rfl, ?_⟩
    exact List.forall₂_same.mpr fun v hv => ih v hv (hitems v hv)
  | object fields ih =>
    obtain ⟨hroom, -, hfields⟩ := isDocument_object_iff.mp h
    refine documented_object_eq_ok_iff.mpr ⟨hroom, fields, rfl, ?_⟩
    exact List.forall₂_same.mpr fun f hf => ⟨rfl, ih f hf (hfields f hf)⟩

/-- A value without bytes and with finite numbers is held as it is, if it is held at all. -/
theorem eq_of_documented (v : Value) {room : ℕ} {w : Value} (hplain : v.isPlain = true)
    (h : v.documented room = .ok w) : w = v := by
  induction v using Value.induction generalizing room w with
  | null => cases h; rfl
  | bool b => cases h; rfl
  | int n => cases h; rfl
  | float x =>
    have hfinite : x.isFinite = true := hplain
    rw [documented, if_pos hfinite] at h
    cases h
    rfl
  | text s => cases h; rfl
  | bytes b => cases hplain
  | list items ih =>
    obtain ⟨-, vs, rfl, hvs⟩ := documented_list_eq_ok_iff.mp h
    rw [isPlain, itemsPlain_iff] at hplain
    rw [eq_of_forall₂ hvs fun v hv w hvw => ih v hv (hplain v hv) hvw]
  | object fields ih =>
    obtain ⟨-, gs, rfl, hgs⟩ := documented_object_eq_ok_iff.mp h
    rw [isPlain, fieldsPlain_iff] at hplain
    rw [eq_of_forall₂ hgs fun f hf g hfg => Prod.ext hfg.1.symm (ih f hf (hplain f hf) hfg.2)]

end Value

/-! ### Checks of fields -/

/-- A list that passes its check has an item for each result. -/
theorem Checked.exists_of_list {α : Type} {check : Value → Checked α} {v : Value} {xs : List α}
    (h : Checked.list check v = .ok xs) :
    ∃ items, v = .list items ∧ ∀ x ∈ xs, ∃ item ∈ items, check item = .ok x := by
  cases v with
  | list items =>
    refine ⟨items, rfl, fun x hx => ?_⟩
    have hmem : (.ok x : Checked α) ∈ items.map check :=
      Checked.itemsFrom_eq_ok_iff.mp h ▸ List.mem_map_of_mem hx
    exact List.mem_map.mp hmem
  | _ => cases h

theorem Checked.list_map {α : Type} {check : Value → Checked α} {toValue : α → Value} {xs : List α}
    (h : ∀ x ∈ xs, check (toValue x) = .ok x) :
    Checked.list check (.list (xs.map toValue)) = .ok xs := by
  rw [Checked.list]
  refine Checked.itemsFrom_eq_ok_iff.mpr ?_
  rw [List.map_map]
  exact List.map_congr_left h

/-- A field that is given under its external name has the value that the reader takes it for. -/
theorem FieldName.check_of_get? {α : Type} (field : FieldName) {fields : Fields}
    (default : Option α) {reader : Value → Checked α} {v : Value} {x : α}
    (hv : fields.get? field.external = some v) (hx : reader v = .ok x) :
    field.check fields default reader = .ok x := by
  have hkey : field.keyIn? fields = some field.external := by
    rw [keyIn?, hv]
    rfl
  have hget : fields.getD field.external = v := by
    rw [Fields.getD, hv]
    rfl
  unfold check
  rw [hkey]
  dsimp only
  rw [hget, hx, Checked.inside]

theorem Fields.mem_of_get? {fields : Fields} {key : String} {v : Value}
    (h : fields.get? key = some v) : (key, v) ∈ fields := by
  obtain ⟨before, after, hfields, -⟩ := List.lookup_eq_some_iff.mp h
  rw [hfields]
  exact List.mem_append_right before List.mem_cons_self

/-- The key of a field is its external name if that is given, else its own name if this is. -/
theorem FieldName.keyIn?_eq_some_iff {field : FieldName} {fields : Fields} {key : String} :
    field.keyIn? fields = some key ↔
      key = field.external ∧ (fields.get? field.external).isSome = true ∨
      key = field.name ∧ fields.get? field.external = none ∧
        (fields.get? field.name).isSome = true := by
  rw [keyIn?]
  -- the external name comes first, and the own one only where that is missing
  cases hexternal : fields.get? field.external with
  | some v =>
    constructor
    · intro h
      cases h
      exact Or.inl ⟨rfl, rfl⟩
    · rintro (⟨rfl, -⟩ | ⟨-, hnone, -⟩)
      · rfl
      · cases hnone
  | none =>
    rw [Option.isSome_none, if_neg Bool.false_ne_true]
    constructor
    · intro h
      split at h
      · rename_i hown
        cases h
        exact Or.inr ⟨rfl, rfl, hown⟩
      · cases h
    · rintro (⟨-, hsome⟩ | ⟨rfl, -, hown⟩)
      · cases hsome
      · exact if_pos hown

/-- A field that passes its check has its default, or what the reader makes of a given value. -/
theorem FieldName.check_eq_ok {α : Type} {field : FieldName} {fields : Fields} {default : Option α}
    {reader : Value → Checked α} {x : α} (h : field.check fields default reader = .ok x) :
    default = some x ∨ ∃ key v, (key, v) ∈ fields ∧ reader v = .ok x := by
  unfold check at h
  cases hkey : field.keyIn? fields with
  | none =>
    rw [hkey] at h
    cases default with
    | none => cases h
    | some y =>
      cases h
      exact Or.inl rfl
  | some key =>
    rw [hkey] at h
    -- the key that is chosen is there, by whichever of the two names
    obtain ⟨v, hv⟩ : ∃ v, fields.get? key = some v := by
      rw [← Option.isSome_iff_exists]
      obtain ⟨rfl, hsome⟩ | ⟨rfl, -, hsome⟩ := keyIn?_eq_some_iff.mp hkey
      · exact hsome
      · exact hsome
    have hget : fields.getD key = v := by
      rw [Fields.getD, hv]
      rfl
    dsimp only at h
    rw [hget, Checked.inside_eq_ok_iff] at h
    exact Or.inr ⟨key, v, Fields.mem_of_get? hv, h⟩

/-- A field that is given under its external name is known. -/
theorem Fields.external_not_mem_unknown {fields : Fields} {known : List FieldName}
    {field : String × Value} (h : field ∈ fields.unknown known) :
    field.1 ∉ known.map FieldName.external := by
  rw [unknown, List.mem_filter] at h
  obtain ⟨hmem, hunused⟩ := h
  intro hexternal
  obtain ⟨name, hname, heq⟩ := List.mem_map.mp hexternal
  have hsome : (fields.get? name.external).isSome = true :=
    List.lookup_isSome_iff.mpr ⟨field, hmem, by simp [heq]⟩
  have hkey : name.keyIn? fields = some field.1 :=
    FieldName.keyIn?_eq_some_iff.mpr (Or.inl ⟨heq.symm, hsome⟩)
  have hused : field.1 ∈ known.filterMap fun field => field.keyIn? fields :=
    List.mem_filterMap.mpr ⟨name, hname, hkey⟩
  simp [hused] at hunused

/-! ### Pipelines -/

namespace Pipeline

/-- The names under which documents know the known fields. -/
def externalNames : List String := knownFields.map FieldName.external

/-- The known fields of a pipeline under their external names. -/
def knownValues (p : Pipeline) : Fields :=
  [(nameField.external, .text p.name), (regionField.external, .text p.region),
    (accountField.external, .text p.accountId),
    (stagesField.external, .list (p.stages.map Value.object)),
    (createdField.external, .ofText? p.createdAt), (updatedField.external, .ofText? p.updatedAt)]

/-- All fields of a pipeline, the untyped ones as they are. -/
def value (p : Pipeline) : Value := .object (p.knownValues ++ p.extras)

/-- A pipeline as a check gives it: the untyped data have each key of an object once, and no further
field has the external name of a known one. -/
structure IsProper (p : Pipeline) : Prop where
  stages : ∀ stage ∈ p.stages, (Value.object stage).isKeyed = true
  extras : (Value.object p.extras).isKeyed = true
  unknown : ∀ field ∈ p.extras, field.1 ∉ externalNames

/-- A pipeline whose untyped data hold neither bytes nor a number that is not finite. -/
structure IsPlain (p : Pipeline) : Prop where
  stages : ∀ stage ∈ p.stages, (Value.object stage).isPlain = true
  extras : (Value.object p.extras).isPlain = true

theorem unknown_knownValues_append {p : Pipeline}
    (h : ∀ field ∈ p.extras, field.1 ∉ externalNames) :
    Fields.unknown (p.knownValues ++ p.extras) knownFields = p.extras := by
  have hused : (knownFields.filterMap fun field => field.keyIn? (p.knownValues ++ p.extras)) =
      externalNames := rfl
  rw [Fields.unknown, hused, List.filter_append]
  have hknown : p.knownValues.filter (fun field => !externalNames.contains field.1) = [] := rfl
  rw [hknown, List.nil_append, List.filter_eq_self]
  intro field hfield
  simpa using h field hfield

theorem check_ofText? (s : Option String) : Checked.text? (.ofText? s) = .ok s := by
  cases s <;> rfl

/-- A pipeline as a check gives it is what the check of its fields gives. -/
theorem check_value {p : Pipeline} (h : p.IsProper) : check p.value = .ok p := by
  have hname : nameField.check (p.knownValues ++ p.extras) none Checked.text = .ok p.name :=
    nameField.check_of_get? none rfl rfl
  have hregion : regionField.check (p.knownValues ++ p.extras) (some "") Checked.text =
      .ok p.region := regionField.check_of_get? _ rfl rfl
  have haccount : accountField.check (p.knownValues ++ p.extras) (some "") Checked.text =
      .ok p.accountId := accountField.check_of_get? _ rfl rfl
  have hstages : stagesField.check (p.knownValues ++ p.extras) (some [])
      (Checked.list Checked.object) = .ok p.stages :=
    stagesField.check_of_get? _ rfl (Checked.list_map fun _ _ => rfl)
  have hcreated : createdField.check (p.knownValues ++ p.extras) (some none) Checked.text? =
      .ok p.createdAt := createdField.check_of_get? _ rfl (check_ofText? p.createdAt)
  have hupdated : updatedField.check (p.knownValues ++ p.extras) (some none) Checked.text? =
      .ok p.updatedAt := updatedField.check_of_get? _ rfl (check_ofText? p.updatedAt)
  rw [value, check, hname, hregion, haccount, hstages, hcreated, hupdated,
    unknown_knownValues_append h.unknown]
  rfl

/-- A check of a value whose objects have each key once gives a pipeline of this kind. -/
theorem isProper_of_check {v : Value} {p : Pipeline} (hv : v.isKeyed = true)
    (h : check v = .ok p) : p.IsProper := by
  cases v with
  | object fields =>
    rw [Value.isKeyed, Bool.and_eq_true, decide_eq_true_iff, Value.fieldsKeyed_iff] at hv
    obtain ⟨hnodup, hkeyed⟩ := hv
    rw [check] at h
    split at h
    · rename_i hall
      cases h
      simp only [Checked.both_eq_ok_iff] at hall
      obtain ⟨-, -, -, hstages, -, -⟩ := hall
      refine ⟨fun stage hstage => ?_, ?_, fun field => Fields.external_not_mem_unknown⟩
      · rcases FieldName.check_eq_ok hstages with hnone | ⟨key, v, hmem, hread⟩
        · cases hnone
          cases hstage
        · obtain ⟨items, rfl, hitems⟩ := Checked.exists_of_list hread
          -- a stage is one of the objects in the value of the field
          obtain ⟨item, hitem, hobject⟩ := hitems stage hstage
          have hitemKeyed := Value.itemsKeyed_iff.mp (hkeyed _ hmem) item hitem
          cases item with
          | object fields =>
            cases hobject
            exact hitemKeyed
          | _ => cases hobject
      · -- the further fields are some of those that are checked
        have hsublist : (Fields.unknown fields knownFields).Sublist fields := List.filter_sublist
        dsimp only
        rw [Value.isKeyed, Bool.and_eq_true, decide_eq_true_iff, Value.fieldsKeyed_iff]
        exact ⟨hnodup.sublist (hsublist.map _), fun field hfield =>
          hkeyed field (hsublist.subset hfield)⟩
    · cases h
  | _ => cases h

/-! #### Pipelines in documents -/

/-- A document holds one pipeline as another: its untyped data are what the document holds of those
of the first, and all else is the same. -/
structure HeldAs (p q : Pipeline) : Prop where
  eq : q = { p with stages := q.stages, extras := q.extras }
  stages : List.Forall₂ (fun s t =>
    (Value.object s).documented (deepestInDocument + 1) = .ok (.object t)) p.stages q.stages
  extras : (Value.object p.extras).documented (deepestInDocument + 1) = .ok (.object q.extras)

theorem documentedFields_eq_ok_iff {fields gs : Fields} :
    Value.documentedFields deepestInDocument fields = .ok gs ↔
      (Value.object fields).documented (deepestInDocument + 1) = .ok (.object gs) := by
  rw [Value.documented, if_neg (Nat.succ_ne_zero _), Nat.add_sub_cancel]
  cases Value.documentedFields deepestInDocument fields <;> simp

theorem documentedStage_eq_ok_iff {stage : Fields} {v : Value} :
    documentedStage stage = .ok v ↔ ∃ fields, (Value.object stage).documented
      (deepestInDocument + 1) = .ok (.object fields) ∧ v = .object fields := by
  simp only [← documentedFields_eq_ok_iff]
  rw [documentedStage]
  constructor
  · intro h
    split at h
    · cases h
    · rename_i fields hfields
      cases h
      exact ⟨fields, hfields, rfl⟩
  · rintro ⟨fields, hfields, rfl⟩
    rw [hfields]

/-- The document of a pipeline has all fields of the pipeline that it holds. -/
theorem document_eq_ok_iff {p : Pipeline} {v : Value} :
    p.document = .ok v ↔ ∃ q, p.HeldAs q ∧ v = q.value := by
  rw [document]
  constructor
  · intro h
    split at h
    · cases h
    rename_i stages hstages
    split at h
    · cases h
    rename_i extras hextras
    cases h
    obtain ⟨ts, rfl, hts⟩ :=
      (mapUntilFailure_eq_ok_iff_forall₂ documentedStage_eq_ok_iff).mp hstages
    exact ⟨{ p with stages := ts, extras := extras },
      ⟨rfl, hts, documentedFields_eq_ok_iff.mp hextras⟩, rfl⟩
  · rintro ⟨q, ⟨hq, hstages, hextras⟩, rfl⟩
    rw [(mapUntilFailure_eq_ok_iff_forall₂ documentedStage_eq_ok_iff).mpr ⟨q.stages, rfl, hstages⟩]
    dsimp only
    rw [documentedFields_eq_ok_iff.mpr hextras, value, knownValues, hq]

namespace HeldAs

variable {p q : Pipeline}

theorem isDocument_stages (hp : p.IsProper) (h : p.HeldAs q) : ∀ stage ∈ q.stages,
    Value.IsDocument (deepestInDocument + 1) (.object stage) := by
  intro t ht
  obtain ⟨s, hs, hst⟩ := forall₂_exists_of_mem h.stages ht
  exact Value.isDocument_of_documented _ (hp.stages s hs) hst

theorem isDocument_extras (hp : p.IsProper) (h : p.HeldAs q) :
    Value.IsDocument (deepestInDocument + 1) (.object q.extras) :=
  Value.isDocument_of_documented _ hp.extras h.extras

theorem isProper (hp : p.IsProper) (h : p.HeldAs q) : q.IsProper where
  stages stage hstage := (h.isDocument_stages hp stage hstage).isKeyed
  extras := (h.isDocument_extras hp).isKeyed
  unknown := by
    obtain ⟨-, gs, hgs, hfields⟩ := Value.documented_object_eq_ok_iff.mp h.extras
    cases hgs
    intro g hg
    obtain ⟨f, hf, hkey, -⟩ := forall₂_exists_of_mem hfields hg
    rw [← hkey]
    exact hp.unknown f hf

/-- What a document holds it holds as it is. -/
theorem self (hp : p.IsProper) (h : p.HeldAs q) : q.HeldAs q where
  eq := rfl
  stages := List.forall₂_same.mpr fun stage hstage =>
    Value.documented_of_isDocument _ (h.isDocument_stages hp stage hstage)
  extras := Value.documented_of_isDocument _ (h.isDocument_extras hp)

theorem eq_of_isPlain (hp : p.IsPlain) (h : p.HeldAs q) : q = p := by
  have hstages : q.stages = p.stages := eq_of_forall₂ h.stages fun s hs t hst =>
    Value.object.inj (Value.eq_of_documented _ (hp.stages s hs) hst)
  have hextras : q.extras = p.extras :=
    Value.object.inj (Value.eq_of_documented _ hp.extras h.extras)
  rw [h.eq, hstages, hextras]

end HeldAs

theorem nodup_keys_value {p : Pipeline} (h : p.IsProper) :
    ((p.knownValues ++ p.extras).map Prod.fst).Nodup := by
  have hextras := h.extras
  rw [Value.isKeyed, Bool.and_eq_true, decide_eq_true_iff] at hextras
  have hknown : p.knownValues.map Prod.fst = externalNames := rfl
  rw [List.map_append, hknown, List.nodup_append]
  refine ⟨by decide, hextras.1, ?_⟩
  rintro name hname key hkey rfl
  obtain ⟨field, hfield, rfl⟩ := List.mem_map.mp hkey
  exact h.unknown field hfield hname

theorem isDocument_ofText? (room : ℕ) (s : Option String) :
    Value.IsDocument room (.ofText? s) := by
  cases s with
  | none => exact Value.isDocument_null room
  | some s => exact Value.isDocument_text room s

/-- The fields of a pipeline that a document holds are a value that it can hold as it is. -/
theorem HeldAs.isDocument_value {p q : Pipeline} (hp : p.IsProper) (h : p.HeldAs q) :
    Value.IsDocument (deepestInDocument + 3) q.value := by
  -- a pipeline, the list of its stages and a stage are the containers around the untyped data
  refine Value.isDocument_object_iff.mpr ⟨Nat.succ_pos _, nodup_keys_value (h.isProper hp), ?_⟩
  rw [List.forall_mem_append]
  constructor
  · simp only [knownValues, List.forall_mem_cons]
    refine ⟨Value.isDocument_text _ _, Value.isDocument_text _ _, Value.isDocument_text _ _, ?_,
      isDocument_ofText? _ _, isDocument_ofText? _ _, nofun⟩
    exact Value.isDocument_list_map (h.isDocument_stages hp)
  · obtain ⟨-, -, hextras⟩ := Value.isDocument_object_iff.mp (h.isDocument_extras hp)
    exact fun field hfield => (hextras field hfield).mono (by omega)

/-- All fields of a pipeline have each key of an object once. -/
theorem isKeyed_value {p : Pipeline} (h : p.IsProper) : p.value.isKeyed = true := by
  have hextras := h.extras
  rw [Value.isKeyed, Bool.and_eq_true, Value.fieldsKeyed_iff] at hextras
  rw [value, Value.isKeyed, Bool.and_eq_true, decide_eq_true_iff, Value.fieldsKeyed_iff,
    List.forall_mem_append]
  refine ⟨nodup_keys_value h, ?_, hextras.2⟩
  simp only [knownValues, List.forall_mem_cons]
  refine ⟨rfl, rfl, rfl, ?_, (isDocument_ofText? 0 _).isKeyed, (isDocument_ofText? 0 _).isKeyed,
    List.forall_mem_nil _⟩
  exact Value.isKeyed_list_map h.stages

end Pipeline

/-! ### Descriptions -/

theorem EnvironmentView.check_document (view : EnvironmentView) :
    check view.document = .ok view := rfl

theorem WorkloadView.check_document (view : WorkloadView) : check view.document = .ok view := rfl

theorem EnvironmentView.isDocument_document (room : ℕ) (view : EnvironmentView) :
    Value.IsDocument (room + 1) view.document := by
  refine Value.isDocument_object_iff.mpr ⟨Nat.succ_pos room, (by decide :
    ["name", accountField.external, "region", "prod"].Nodup), ?_⟩
  simp only [List.forall_mem_cons]
  exact ⟨Value.isDocument_text _ _, Value.isDocument_text _ _, Value.isDocument_text _ _,
    Value.isDocument_bool _ _, nofun⟩

theorem WorkloadView.isDocument_document (room : ℕ) (view : WorkloadView) :
    Value.IsDocument (room + 1) view.document := by
  refine Value.isDocument_object_iff.mpr ⟨Nat.succ_pos room, (by decide :
    ["name", "type"].Nodup), ?_⟩
  simp only [List.forall_mem_cons]
  exact ⟨Value.isDocument_text _ _, Value.isDocument_text _ _, nofun⟩

namespace Description

/-- All fields of a description under their external names. -/
def fields (d : Description) : Fields :=
  [("name", .text d.name), ("uri", .text d.uri),
    ("environments", .list (d.environments.map EnvironmentView.document)),
    (servicesField.external, .list (d.services.map WorkloadView.document)),
    ("pipelines", .list (d.pipelines.map Pipeline.value))]

/-- All fields of a description, the untyped data as they are. -/
def value (d : Description) : Value := .object d.fields

/-- A description as a check gives it. -/
def IsProper (d : Description) : Prop := ∀ p ∈ d.pipelines, p.IsProper

/-- A description whose untyped data hold neither bytes nor a number that is not finite. -/
def IsPlain (d : Description) : Prop := ∀ p ∈ d.pipelines, p.IsPlain

/-- A description as a check gives it is what the check of its fields gives. -/
theorem check_value {d : Description} (h : d.IsProper) : check d.value = .ok d := by
  have hname : (FieldName.plain "name").check d.fields none Checked.text = .ok d.name :=
    (FieldName.plain "name").check_of_get? none rfl rfl
  have huri : (FieldName.plain "uri").check d.fields (some "") Checked.text = .ok d.uri :=
    (FieldName.plain "uri").check_of_get? _ rfl rfl
  have henvironments : (FieldName.plain "environments").check d.fields (some [])
      (Checked.list EnvironmentView.check) = .ok d.environments :=
    (FieldName.plain "environments").check_of_get? _ rfl
      (Checked.list_map fun view _ => view.check_document)
  have hservices : servicesField.check d.fields (some []) (Checked.list WorkloadView.check) =
      .ok d.services :=
    servicesField.check_of_get? _ rfl (Checked.list_map fun view _ => view.check_document)
  have hpipelines : (FieldName.plain "pipelines").check d.fields (some [])
      (Checked.list Pipeline.check) = .ok d.pipelines :=
    (FieldName.plain "pipelines").check_of_get? _ rfl
      (Checked.list_map fun p hp => Pipeline.check_value (h p hp))
  have hrest : Fields.forbidUnknown d.fields knownFields = .ok () := rfl
  rw [value, check, hname, huri, henvironments, hservices, hpipelines, hrest]
  rfl

/-- A check of a value whose objects have each key once gives a description of this kind. -/
theorem isProper_of_check {v : Value} {d : Description} (hv : v.isKeyed = true)
    (h : check v = .ok d) : d.IsProper := by
  cases v with
  | object fields =>
    rw [Value.isKeyed, Bool.and_eq_true, Value.fieldsKeyed_iff] at hv
    rw [check] at h
    split at h
    · rename_i hall
      cases h
      simp only [Checked.both_eq_ok_iff] at hall
      obtain ⟨-, -, -, -, hpipelines, -⟩ := hall
      intro p hp
      rcases FieldName.check_eq_ok hpipelines with hnone | ⟨key, v, hmem, hread⟩
      · cases hnone
        cases hp
      · obtain ⟨items, rfl, hitems⟩ := Checked.exists_of_list hread
        obtain ⟨item, hitem, hcheck⟩ := hitems p hp
        exact Pipeline.isProper_of_check (Value.itemsKeyed_iff.mp (hv.2 _ hmem) item hitem) hcheck
    · cases h
  | _ => cases h

theorem nodup_keys_fields (d : Description) : (d.fields.map Prod.fst).Nodup :=
  (by decide : ["name", "uri", "environments", servicesField.external, "pipelines"].Nodup)

/-- The fields of a description have each key of an object once. -/
theorem isKeyed_value {d : Description} (h : d.IsProper) : d.value.isKeyed = true := by
  rw [value, Value.isKeyed, Bool.and_eq_true, decide_eq_true_iff, Value.fieldsKeyed_iff]
  refine ⟨d.nodup_keys_fields, ?_⟩
  simp only [fields, List.forall_mem_cons]
  refine ⟨rfl, rfl, ?_, ?_, ?_, List.forall_mem_nil _⟩
  · exact Value.isKeyed_list_map fun view _ => (view.isDocument_document 0).isKeyed
  · exact Value.isKeyed_list_map fun view _ => (view.isDocument_document 0).isKeyed
  · exact Value.isKeyed_list_map fun p hp => Pipeline.isKeyed_value (h p hp)

/-- These descriptions are all that checks give of values whose objects have each key once. -/
theorem isProper_iff {d : Description} :
    d.IsProper ↔ ∃ v, v.isKeyed = true ∧ check v = .ok d :=
  ⟨fun h => ⟨d.value, isKeyed_value h, check_value h⟩,
    fun ⟨_, hv, hcheck⟩ => isProper_of_check hv hcheck⟩

/-! #### Descriptions in documents -/

/-- A document holds one description as another: the pipelines are what it holds of those of the
first, and all else is the same. -/
structure HeldAs (d d' : Description) : Prop where
  eq : d' = { d with pipelines := d'.pipelines }
  pipelines : List.Forall₂ Pipeline.HeldAs d.pipelines d'.pipelines

/-- The document of a description has all fields of the description that it holds. -/
theorem document_eq_ok_iff {d : Description} {v : Value} :
    d.document = .ok v ↔ ∃ d', d.HeldAs d' ∧ v = d'.value := by
  rw [document]
  constructor
  · intro h
    split at h
    · cases h
    rename_i vs hvs
    cases h
    obtain ⟨qs, rfl, hqs⟩ :=
      (mapUntilFailure_eq_ok_iff_forall₂ Pipeline.document_eq_ok_iff).mp hvs
    exact ⟨{ d with pipelines := qs }, ⟨rfl, hqs⟩, rfl⟩
  · rintro ⟨d', ⟨hd', hpipelines⟩, rfl⟩
    rw [(mapUntilFailure_eq_ok_iff_forall₂ Pipeline.document_eq_ok_iff).mpr
      ⟨d'.pipelines, rfl, hpipelines⟩, value, fields, hd']

namespace HeldAs

variable {d d' : Description}

theorem isProper (hd : d.IsProper) (h : d.HeldAs d') : d'.IsProper := by
  intro q hq
  obtain ⟨p, hp, hpq⟩ := forall₂_exists_of_mem h.pipelines hq
  exact hpq.isProper (hd p hp)

/-- What a document holds it holds as it is. -/
theorem self (hd : d.IsProper) (h : d.HeldAs d') : d'.HeldAs d' where
  eq := rfl
  pipelines := List.forall₂_same.mpr fun q hq => by
    obtain ⟨p, hp, hpq⟩ := forall₂_exists_of_mem h.pipelines hq
    exact hpq.self (hd p hp)

theorem eq_of_isPlain (hd : d.IsPlain) (h : d.HeldAs d') : d' = d := by
  have hpipelines : d'.pipelines = d.pipelines :=
    eq_of_forall₂ h.pipelines fun p hp _ hpq => hpq.eq_of_isPlain (hd p hp)
  rw [h.eq, hpipelines]

/-- The fields of a description that a document holds are a value that it can hold as it is. -/
theorem isDocument_value (hd : d.IsProper) (h : d.HeldAs d') :
    Value.IsDocument (deepestInDocument + 5) d'.value := by
  -- a description and the list of its pipelines are two more containers
  refine Value.isDocument_object_iff.mpr ⟨Nat.succ_pos _, d'.nodup_keys_fields, ?_⟩
  simp only [fields, List.forall_mem_cons]
  refine ⟨Value.isDocument_text _ _, Value.isDocument_text _ _, ?_, ?_, ?_, nofun⟩
  · exact Value.isDocument_list_map fun view _ => view.isDocument_document _
  · exact Value.isDocument_list_map fun view _ => view.isDocument_document _
  · refine Value.isDocument_list_map fun q hq => ?_
    obtain ⟨p, hp, hpq⟩ := forall₂_exists_of_mem h.pipelines hq
    exact hpq.isDocument_value (hd p hp)

/-- The report for readers shows nothing of the untyped data. -/
theorem human_eq (h : d.HeldAs d') : Report.human d' = Report.human d := by
  have hnames : ∀ {ps qs : List Pipeline}, List.Forall₂ Pipeline.HeldAs ps qs →
      qs.map (fun p => Report.cells [p.name]) = ps.map fun p => Report.cells [p.name] := by
    intro ps qs hpipelines
    induction hpipelines with
    | nil => rfl
    | cons hpq _ ih => rw [List.map_cons, List.map_cons, ih, hpq.eq]
  have hlines : Report.humanLines d' = Report.humanLines d := by
    rw [Report.humanLines, Report.humanLines, hnames h.pipelines, h.eq]
    rfl
  rw [Report.human, Report.human, hlines]

end HeldAs

end Description

/-! ### Reports -/

namespace Report

/-- The report for programs is a line with the fields of the description that its document holds. -/
theorem document_eq_ok_iff {d : Description} {t : String} : document d = .ok t ↔
    ∃ d', d.HeldAs d' ∧ d'.value.hasLongInt = false ∧ t = Json.write d'.value ++ "\n" := by
  rw [document, documentLine]
  constructor
  · intro h
    split at h
    · rename_i line hline
      cases h
      split at hline
      · cases hline
      rename_i v hv
      obtain ⟨d', hd', rfl⟩ := Description.document_eq_ok_iff.mp hv
      rw [writeDocument] at hline
      split at hline
      · cases hline
      rename_i hshort
      cases hline
      exact ⟨d', hd', by simpa using hshort, rfl⟩
    · cases h
  · rintro ⟨d', hd', hshort, rfl⟩
    rw [Description.document_eq_ok_iff.mpr ⟨d', hd', rfl⟩]
    dsimp only
    rw [writeDocument, hshort]
    rfl

/-- The report for programs, whatever the texts and the untyped data in it are, is read as a
description whose two reports are the same as those of the description that it was made of. Where
the untyped data hold neither bytes nor a number that is not finite, it is that description. This
holds of every description that a check can give (`Description.isProper_iff`). -/
theorem document_roundtrip {d : Description} (hd : d.IsProper) {t : String}
    (h : document d = .ok t) : ∃ v d', Json.read t = .ok v ∧ Description.ofValue v = .ok d' ∧
      document d' = .ok t ∧ human d' = human d ∧ (d.IsPlain → d' = d) := by
  -- what is read and checked is the description that the document holds
  obtain ⟨d', hd', hshort, rfl⟩ := document_eq_ok_iff.mp h
  have hread : Json.read (Json.write d'.value ++ "\n") = .ok d'.value :=
    Json.read_write ((hd'.isDocument_value hd).mono (by decide)) hshort
  have hchecked : Description.ofValue d'.value = .ok d' := by
    rw [Description.ofValue, Description.check_value (hd'.isProper hd)]
  exact ⟨d'.value, d', hread, hchecked, document_eq_ok_iff.mpr ⟨d', hd'.self hd, hshort, rfl⟩,
    hd'.human_eq, fun hplain => hd'.eq_of_isPlain hplain⟩

/-- A description with a pipeline whose untyped data hold bytes and a number that is none. -/
def unsettled : Description where
  name := "shop"
  uri := ""
  environments := [⟨"test", "1", "eu-west-1", false⟩]
  services := []
  pipelines := [{
    name := "deploy"
    region := ""
    accountId := "1"
    stages := [[("name", .text "Source"), ("digest", .bytes [0x68, 0x69])]]
    createdAt := none
    updatedAt := none
    extras := [("load", .list [.float .nan, .null])] }]

theorem document_roundtrip_unsettled : unsettled.IsProper ∧ ∃ t, document unsettled = .ok t ∧
    ∃ v d', Json.read t = .ok v ∧ Description.ofValue v = .ok d' ∧ document d' = .ok t ∧
      human d' = human unsettled ∧ (unsettled.IsPlain → d' = unsettled) := by
  have hproper : unsettled.IsProper := by
    intro p hp
    rw [List.mem_singleton.mp hp]
    exact ⟨by decide, by decide, by decide⟩
  have hdocument : ∃ t, document unsettled = .ok t := ⟨_, rfl⟩
  obtain ⟨t, ht⟩ := hdocument
  exact ⟨hproper, t, ht, document_roundtrip hproper ht⟩

end Report

end AppReport
