import AppReport.Proofs.Decoding
import AppReport.Proofs.Roundtrip

/-!
# What the report for programs can hold

The typed part of a description can always be written. An untyped value of a pipeline can be
written if its containers do not nest too deep, its bytes are those of texts and its integers have
no more digits than are written (`Value.IsWritable`). The report for programs exists exactly if all
untyped values of all pipelines can be written; otherwise it is a failure to write the document of
the application, and its cause is what one of these values cannot be written for
(`Report.document_succeeds_iff`).

Depth and bytes are found out when the document is built (`Value.documented_eq_error`), and long
integers when it is written, after that (`Value.hasLongInt_of_documented`).
-/

namespace AppReport

open Number Text

/-! ### Numbers of digits -/

/-- A number has at most `k` digits if it is below the `k`-th power of ten. -/
theorem Number.length_digits_le_iff {n k : ℕ} (hk : 0 < k) :
    (digits n).length ≤ k ↔ n < Nat.pow 10 k := by
  refine ⟨fun h => ?_, length_digits_le hk⟩
  clear hk
  induction n using Nat.strongRecOn generalizing k with
  | _ n ih =>
    by_cases hn : n < 10
    · rw [digits_of_lt n hn] at h
      have hpow : 10 ^ 1 ≤ 10 ^ k := Nat.pow_le_pow_right (by omega) h
      exact Nat.lt_of_lt_of_le hn hpow
    · rw [digits_eq_append n (by omega), List.length_append, List.length_singleton] at h
      obtain ⟨k, rfl⟩ : ∃ j, k = j + 1 := ⟨k - 1, by omega⟩
      have htenth : n / 10 < Nat.pow 10 k := ih (n / 10) (by omega) (by omega)
      exact (Nat.div_lt_iff_lt_mul (by omega)).mp htenth

/-! ### Related lists -/

theorem exists_of_forall₂_of_mem {α β : Type} {R : α → β → Prop} {as : List α} {bs : List β}
    (h : List.Forall₂ R as bs) {a : α} (ha : a ∈ as) : ∃ b ∈ bs, R a b :=
  forall₂_exists_of_mem (R := fun b a => R a b) h.flip ha

/-- What holds of related things together holds of all of a list if it holds of all of a related
list. -/
theorem forall_mem_iff_of_forall₂ {α β : Type} {R : α → β → Prop} {P : α → Prop} {Q : β → Prop}
    {as : List α} {bs : List β} (h : List.Forall₂ R as bs)
    (hiff : ∀ a ∈ as, ∀ b, R a b → (Q b ↔ P a)) : (∀ b ∈ bs, Q b) ↔ ∀ a ∈ as, P a := by
  constructor
  · intro hbs a ha
    obtain ⟨b, hb, hab⟩ := exists_of_forall₂_of_mem h ha
    exact (hiff a ha b hab).mp (hbs b hb)
  · intro has b hb
    obtain ⟨a, ha, hab⟩ := forall₂_exists_of_mem h hb
    exact (hiff a ha b hab).mpr (has a ha)

/-! ### Parts of values -/

namespace Value

/-- The parts of a value: the value itself, the parts of its items, and the parts of the values of
its fields. -/
inductive IsPart (part : Value) : Value → Prop
  | self : IsPart part part
  | item {items : List Value} {v : Value} : v ∈ items → IsPart part v → IsPart part (list items)
  | field {fields : Fields} {field : String × Value} :
    field ∈ fields → IsPart part field.2 → IsPart part (object fields)

theorem isPart_list_iff {part : Value} {items : List Value} :
    IsPart part (list items) ↔ part = list items ∨ ∃ v ∈ items, IsPart part v := by
  constructor
  · rintro (_ | ⟨hmem, hpart⟩ | _)
    · exact Or.inl rfl
    · exact Or.inr ⟨_, hmem, hpart⟩
  · rintro (rfl | ⟨v, hmem, hpart⟩)
    · exact .self
    · exact .item hmem hpart

theorem isPart_object_iff {part : Value} {fields : Fields} :
    IsPart part (object fields) ↔
      part = object fields ∨ ∃ field ∈ fields, IsPart part field.2 := by
  constructor
  · rintro (_ | _ | ⟨hmem, hpart⟩)
    · exact Or.inl rfl
    · exact Or.inr ⟨_, hmem, hpart⟩
  · rintro (rfl | ⟨field, hmem, hpart⟩)
    · exact .self
    · exact .field hmem hpart

/-- An untyped value that the report for programs can hold. -/
structure IsWritable (v : Value) : Prop where
  depth_le : v.depth ≤ deepestInDocument
  bytes : ∀ b, IsPart (.bytes b) v → ∃ cs, encode cs = b
  ints : ∀ n, IsPart (.int n) v → (digits n.natAbs).length ≤ maxDigits

/-- What an untyped value cannot be written for, and the failure that tells it. -/
inductive Unwritable (v : Value) : Failure → Prop
  | depth : deepestInDocument < v.depth → Unwritable v .documentTooDeep
  | bytes {b : List UInt8} {flaw : Flaw} : IsPart (.bytes b) v → flaw? b = some flaw →
    Unwritable v (.bytesNotText b flaw.first)
  | int {n : ℤ} : IsPart (.int n) v → maxDigits < (digits n.natAbs).length → Unwritable v .longInt

/-- Every failure to write an untyped value is one of the value of an argument. -/
theorem Unwritable.isKind {v : Value} {cause : Failure} (h : v.Unwritable cause) :
    cause.isKind FaultKind.isValue = true := by
  cases h <;> rfl

theorem Unwritable.not_isWritable {v : Value} {cause : Failure} (h : v.Unwritable cause) :
    ¬ v.IsWritable := by
  rintro ⟨hdepth, hbytes, hints⟩
  cases h with
  | depth hdeep => omega
  | bytes hpart hflaw =>
    have hsome := isSome_decode?_iff.mpr (hbytes _ hpart)
    rw [(flaw?_eq_none_iff _).mpr hsome] at hflaw
    cases hflaw
  | int hpart hlong =>
    have hshort := hints _ hpart
    omega

/-! ### Long integers -/

theorem hasLongInt_eq_false_iff (v : Value) : v.hasLongInt = false ↔
    ∀ n, IsPart (int n) v → (digits n.natAbs).length ≤ maxDigits := by
  induction v using Value.induction with
  | int n =>
    -- too long is a matter of the number in the reader, and of its digits in the statement
    have hlength := length_digits_le_iff (n := n.natAbs) (k := maxDigits) (by decide)
    rw [hasLongInt, decide_eq_false_iff_not, Nat.not_le, ← hlength]
    constructor
    · rintro h m (_ | _ | _)
      exact h
    · exact fun h => h n .self
  | list items ih =>
    rw [hasLongInt, anyLongInt_eq_false_iff]
    simp only [isPart_list_iff, reduceCtorEq, false_or, forall_exists_index, and_imp]
    constructor
    · exact fun h n v hv => (ih v hv).mp (h v hv) n
    · exact fun h v hv => (ih v hv).mpr fun n => h n v hv
  | object fields ih =>
    rw [hasLongInt, anyLongIntField_eq_false_iff]
    simp only [isPart_object_iff, reduceCtorEq, false_or, forall_exists_index, and_imp]
    constructor
    · exact fun h n field hfield => (ih field hfield).mp (h field hfield) n
    · exact fun h field hfield => (ih field hfield).mpr fun n => h n field hfield
  | _ =>
    refine ⟨fun _ n hpart => ?_, fun _ => rfl⟩
    cases hpart

/-- A document holds the integers of a value as they are. -/
theorem hasLongInt_of_documented (v : Value) {room : ℕ} {w : Value}
    (h : v.documented room = .ok w) : w.hasLongInt = false ↔ v.hasLongInt = false := by
  induction v using Value.induction generalizing room w with
  | float x =>
    rw [documented, Except.ok.injEq] at h
    rw [← h]
    split <;> rfl
  | bytes b =>
    rw [documented] at h
    split at h
    · cases h
      rfl
    · cases h
  | list items ih =>
    obtain ⟨-, ws, rfl, hws⟩ := documented_list_eq_ok_iff.mp h
    rw [hasLongInt, hasLongInt, anyLongInt_eq_false_iff, anyLongInt_eq_false_iff]
    exact forall_mem_iff_of_forall₂ hws fun v hv w hvw => ih v hv hvw
  | object fields ih =>
    obtain ⟨-, gs, rfl, hgs⟩ := documented_object_eq_ok_iff.mp h
    rw [hasLongInt, hasLongInt, anyLongIntField_eq_false_iff, anyLongIntField_eq_false_iff]
    exact forall_mem_iff_of_forall₂ hgs fun f hf g hfg => ih f hf hfg.2
  | _ =>
    cases h
    rfl

/-! ### Depth and bytes -/

theorem documentedItems_eq_error {room : ℕ} {items : List Value} {f : Failure}
    (h : documentedItems room items = .error f) : ∃ v ∈ items, v.documented room = .error f := by
  induction items with
  | nil => cases h
  | cons v items ih =>
    rw [documentedItems] at h
    split at h
    · rename_i hv
      cases h
      exact ⟨v, List.mem_cons_self, hv⟩
    split at h
    · rename_i hrest
      cases h
      obtain ⟨w, hw, hfailed⟩ := ih hrest
      exact ⟨w, List.mem_cons_of_mem v hw, hfailed⟩
    · cases h

theorem documentedFields_eq_error {room : ℕ} {fields : Fields} {f : Failure}
    (h : documentedFields room fields = .error f) :
    ∃ field ∈ fields, field.2.documented room = .error f := by
  induction fields with
  | nil => cases h
  | cons field fields ih =>
    obtain ⟨key, v⟩ := field
    rw [documentedFields] at h
    split at h
    · rename_i hv
      cases h
      exact ⟨(key, v), List.mem_cons_self, hv⟩
    split at h
    · rename_i hrest
      cases h
      obtain ⟨field, hfield, hfailed⟩ := ih hrest
      exact ⟨field, List.mem_cons_of_mem _ hfield, hfailed⟩
    · cases h

/-- What a document holds does not nest too deep for it, and its bytes are those of texts. -/
theorem depth_le_of_documented (v : Value) {room : ℕ} {w : Value} (h : v.documented room = .ok w) :
    v.depth ≤ room ∧ ∀ b, IsPart (.bytes b) v → ∃ cs, encode cs = b := by
  -- the room goes down by one in each container, and so does the depth
  induction v using Value.induction generalizing room w with
  | bytes b =>
    rw [documented] at h
    split at h
    · rename_i cs hcs
      refine ⟨Nat.zero_le room, ?_⟩
      rintro _ (_ | _ | _)
      exact ⟨cs, decode?_eq_some_iff.mp (decodeOrFlaw_eq_ok_iff.mp hcs)⟩
    · cases h
  | list items ih =>
    obtain ⟨hroom, ws, -, hws⟩ := documented_list_eq_ok_iff.mp h
    have hitems : ∀ v ∈ items, v.depth ≤ room - 1 ∧
        ∀ b, IsPart (.bytes b) v → ∃ cs, encode cs = b := by
      intro v hv
      obtain ⟨w, -, hvw⟩ := exists_of_forall₂_of_mem hws hv
      exact ih v hv hvw
    have hdepths : itemsDepth items ≤ room - 1 :=
      itemsDepth_le_iff.mpr fun v hv => (hitems v hv).1
    refine ⟨by rw [depth]; omega, fun b hpart => ?_⟩
    obtain hself | ⟨v, hv, hpart⟩ := isPart_list_iff.mp hpart
    · cases hself
    · exact (hitems v hv).2 b hpart
  | object fields ih =>
    obtain ⟨hroom, gs, -, hgs⟩ := documented_object_eq_ok_iff.mp h
    have hfields : ∀ field ∈ fields, field.2.depth ≤ room - 1 ∧
        ∀ b, IsPart (.bytes b) field.2 → ∃ cs, encode cs = b := by
      intro field hfield
      obtain ⟨g, -, -, hvw⟩ := exists_of_forall₂_of_mem hgs hfield
      exact ih field hfield hvw
    have hdepths : fieldsDepth fields ≤ room - 1 :=
      fieldsDepth_le_iff.mpr fun field hfield => (hfields field hfield).1
    refine ⟨by rw [depth]; omega, fun b hpart => ?_⟩
    obtain hself | ⟨field, hfield, hpart⟩ := isPart_object_iff.mp hpart
    · cases hself
    · exact (hfields field hfield).2 b hpart
  | _ =>
    refine ⟨Nat.zero_le room, fun b hpart => ?_⟩
    cases hpart

/-- A document does not hold what nests too deep for it, and bytes that are no text. -/
theorem documented_eq_error (v : Value) {room : ℕ} {f : Failure}
    (h : v.documented room = .error f) : room < v.depth ∧ f = .documentTooDeep ∨
      ∃ b flaw, IsPart (.bytes b) v ∧ flaw? b = some flaw ∧ f = .bytesNotText b flaw.first := by
  induction v using Value.induction generalizing room f with
  | bytes b =>
    rw [documented, decodeOrFlaw] at h
    cases hflaw : flaw? b with
    | none =>
      rw [hflaw] at h
      cases h
    | some flaw =>
      rw [hflaw] at h
      cases h
      exact Or.inr ⟨b, flaw, .self, hflaw, rfl⟩
  | list items ih =>
    rw [documented] at h
    rw [depth]
    split at h
    · cases h
      exact Or.inl ⟨by omega, rfl⟩
    split at h
    · cases h
    rename_i hitems
    cases h
    -- an item that nests too deep for the room inside makes the list too deep for the room
    obtain ⟨v, hv, hfailed⟩ := documentedItems_eq_error hitems
    have hle : v.depth ≤ itemsDepth items := itemsDepth_le_iff.mp le_rfl v hv
    obtain ⟨hdeep, rfl⟩ | ⟨b, flaw, hpart, hflaw⟩ := ih v hv hfailed
    · exact Or.inl ⟨by omega, rfl⟩
    · exact Or.inr ⟨b, flaw, .item hv hpart, hflaw⟩
  | object fields ih =>
    rw [documented] at h
    rw [depth]
    split at h
    · cases h
      exact Or.inl ⟨by omega, rfl⟩
    split at h
    · cases h
    rename_i hfields
    cases h
    obtain ⟨field, hfield, hfailed⟩ := documentedFields_eq_error hfields
    have hle : field.2.depth ≤ fieldsDepth fields := fieldsDepth_le_iff.mp le_rfl field hfield
    obtain ⟨hdeep, rfl⟩ | ⟨b, flaw, hpart, hflaw⟩ := ih field hfield hfailed
    · exact Or.inl ⟨by omega, rfl⟩
    · exact Or.inr ⟨b, flaw, .field hfield hpart, hflaw⟩
  | _ => cases h

/-- The failure to hold an untyped value tells what it cannot be written for. -/
theorem unwritable_of_documented {v : Value} {f : Failure}
    (h : v.documented deepestInDocument = .error f) : v.Unwritable f := by
  obtain ⟨hdeep, rfl⟩ | ⟨b, flaw, hpart, hflaw, rfl⟩ := documented_eq_error v h
  · exact .depth hdeep
  · exact .bytes hpart hflaw

/-- An untyped value that documents hold can be written if it has no long integer. -/
theorem isWritable_of_documented {v w : Value} (h : v.documented deepestInDocument = .ok w)
    (hshort : v.hasLongInt = false) : v.IsWritable := by
  obtain ⟨hdepth, hbytes⟩ := depth_le_of_documented v h
  exact ⟨hdepth, hbytes, (hasLongInt_eq_false_iff v).mp hshort⟩

theorem unwritable_of_hasLongInt {v : Value} (h : v.hasLongInt ≠ false) :
    v.Unwritable .longInt := by
  rw [ne_eq, hasLongInt_eq_false_iff] at h
  push Not at h
  obtain ⟨n, hpart, hlong⟩ := h
  exact .int hpart hlong

end Value

/-! ### Pipelines -/

namespace Pipeline

/-- The untyped values of a pipeline: those in its stages and those of its further fields. -/
def untyped (p : Pipeline) : List Value :=
  p.stages.flatMap (fun stage => stage.map Prod.snd) ++ p.extras.map Prod.snd

theorem forall_mem_untyped {p : Pipeline} {P : Value → Prop} : (∀ v ∈ p.untyped, P v) ↔
    (∀ stage ∈ p.stages, ∀ field ∈ stage, P field.2) ∧ ∀ field ∈ p.extras, P field.2 := by
  rw [untyped, List.forall_mem_append, List.forall_mem_map]
  refine and_congr ?_ Iff.rfl
  constructor
  · intro h stage hstage field hfield
    exact h field.2 (List.mem_flatMap.mpr ⟨stage, hstage, List.mem_map_of_mem hfield⟩)
  · intro h v hv
    obtain ⟨stage, hstage, hv⟩ := List.mem_flatMap.mp hv
    obtain ⟨field, hfield, rfl⟩ := List.mem_map.mp hv
    exact h stage hstage field hfield

/-- A pipeline is written with a long integer if one is in its untyped values. -/
theorem hasLongInt_value_eq_false_iff {p : Pipeline} :
    p.value.hasLongInt = false ↔ ∀ v ∈ p.untyped, v.hasLongInt = false := by
  have htext : ∀ s : Option String, (Value.ofText? s).hasLongInt = false := by
    rintro (_ | _) <;> rfl
  rw [value, Value.hasLongInt, Value.anyLongIntField_eq_false_iff, List.forall_mem_append,
    forall_mem_untyped]
  refine and_congr ?_ Iff.rfl
  simp only [knownValues, List.forall_mem_cons]
  constructor
  · rintro ⟨-, -, -, hstages, -⟩ stage hstage
    have hstage := Value.anyLongInt_eq_false_iff.mp hstages _ (List.mem_map_of_mem hstage)
    exact Value.anyLongIntField_eq_false_iff.mp hstage
  · intro hstages
    refine ⟨rfl, rfl, rfl, ?_, htext _, htext _, List.forall_mem_nil _⟩
    refine Value.anyLongInt_eq_false_iff.mpr (List.forall_mem_map.mpr fun stage hstage => ?_)
    exact Value.anyLongIntField_eq_false_iff.mpr (hstages stage hstage)

/-- A document holds every untyped value of a pipeline that it holds. -/
theorem HeldAs.exists_documented {p q : Pipeline} (h : p.HeldAs q) :
    ∀ v ∈ p.untyped, ∃ w, v.documented deepestInDocument = .ok w := by
  have hfields : ∀ {fields gs : Fields},
      (Value.object fields).documented (deepestInDocument + 1) = .ok (.object gs) →
      ∀ field ∈ fields, ∃ w, field.2.documented deepestInDocument = .ok w := by
    intro fields gs hgs field hfield
    obtain ⟨-, _, -, hgs⟩ := Value.documented_object_eq_ok_iff.mp hgs
    obtain ⟨g, -, -, hg⟩ := exists_of_forall₂_of_mem hgs hfield
    exact ⟨g.2, hg⟩
  refine forall_mem_untyped.mpr ⟨fun stage hstage => ?_, hfields h.extras⟩
  obtain ⟨t, -, ht⟩ := exists_of_forall₂_of_mem h.stages hstage
  exact hfields ht

/-- A document holds the integers of a pipeline as they are. -/
theorem HeldAs.hasLongInt_value {p q : Pipeline} (h : p.HeldAs q) :
    q.value.hasLongInt = false ↔ p.value.hasLongInt = false := by
  have hobject : ∀ {fields gs : Fields},
      (Value.object fields).documented (deepestInDocument + 1) = .ok (.object gs) →
      ((∀ g ∈ gs, g.2.hasLongInt = false) ↔ ∀ f ∈ fields, f.2.hasLongInt = false) := by
    intro fields gs hgs
    have hlong := Value.hasLongInt_of_documented _ hgs
    rwa [Value.hasLongInt, Value.hasLongInt, Value.anyLongIntField_eq_false_iff,
      Value.anyLongIntField_eq_false_iff] at hlong
  rw [hasLongInt_value_eq_false_iff, hasLongInt_value_eq_false_iff, forall_mem_untyped,
    forall_mem_untyped]
  refine and_congr ?_ (hobject h.extras)
  exact forall_mem_iff_of_forall₂ h.stages fun s _ t hst => hobject hst

/-- A document fails to hold a pipeline where it fails to hold one of its untyped values. -/
theorem document_eq_error {p : Pipeline} {f : Failure} (h : p.document = .error f) :
    ∃ v ∈ p.untyped, v.documented deepestInDocument = .error f := by
  rw [document] at h
  split at h
  · rename_i hstages
    cases h
    obtain ⟨stage, hstage, hfailed⟩ := mapUntilFailure_eq_error hstages
    rw [documentedStage] at hfailed
    split at hfailed
    · rename_i hfields
      cases hfailed
      obtain ⟨field, hfield, hfailed⟩ := Value.documentedFields_eq_error hfields
      refine ⟨field.2, List.mem_append_left _ ?_, hfailed⟩
      exact List.mem_flatMap.mpr ⟨stage, hstage, List.mem_map_of_mem hfield⟩
    · cases hfailed
  split at h
  · rename_i hextras
    cases h
    obtain ⟨field, hfield, hfailed⟩ := Value.documentedFields_eq_error hextras
    exact ⟨field.2, List.mem_append_right _ (List.mem_map_of_mem hfield), hfailed⟩
  · cases h

end Pipeline

/-! ### Descriptions -/

namespace Description

/-- The untyped values of a description: those of its pipelines. -/
def untyped (d : Description) : List Value := d.pipelines.flatMap Pipeline.untyped

theorem hasLongInt_value_eq_false_iff {d : Description} :
    d.value.hasLongInt = false ↔ ∀ p ∈ d.pipelines, p.value.hasLongInt = false := by
  have henvironments : ∀ views : List EnvironmentView,
      (Value.list (views.map EnvironmentView.document)).hasLongInt = false := fun views =>
    Value.anyLongInt_eq_false_iff.mpr (List.forall_mem_map.mpr fun _ _ => rfl)
  have hservices : ∀ views : List WorkloadView,
      (Value.list (views.map WorkloadView.document)).hasLongInt = false := fun views =>
    Value.anyLongInt_eq_false_iff.mpr (List.forall_mem_map.mpr fun _ _ => rfl)
  rw [value, Value.hasLongInt, Value.anyLongIntField_eq_false_iff]
  simp only [fields, List.forall_mem_cons]
  constructor
  · rintro ⟨-, -, -, -, hpipelines, -⟩
    exact List.forall_mem_map.mp (Value.anyLongInt_eq_false_iff.mp hpipelines)
  · intro hpipelines
    exact ⟨rfl, rfl, henvironments _, hservices _,
      Value.anyLongInt_eq_false_iff.mpr (List.forall_mem_map.mpr hpipelines),
      List.forall_mem_nil _⟩

/-- A document holds the integers of a description as they are. -/
theorem HeldAs.hasLongInt_value {d d' : Description} (h : d.HeldAs d') :
    d'.value.hasLongInt = false ↔ ∀ v ∈ d.untyped, v.hasLongInt = false := by
  rw [hasLongInt_value_eq_false_iff, untyped, List.forall_mem_flatMap]
  refine forall_mem_iff_of_forall₂ h.pipelines fun p _ q hpq => ?_
  rw [hpq.hasLongInt_value, Pipeline.hasLongInt_value_eq_false_iff]

/-- A document fails to hold a description where it fails to hold one of its untyped values. -/
theorem document_eq_error {d : Description} {f : Failure} (h : d.document = .error f) :
    ∃ v ∈ d.untyped, v.documented deepestInDocument = .error f := by
  rw [document] at h
  split at h
  · rename_i hpipelines
    cases h
    obtain ⟨p, hp, hfailed⟩ := mapUntilFailure_eq_error hpipelines
    obtain ⟨v, hv, hfailed⟩ := Pipeline.document_eq_error hfailed
    exact ⟨v, List.mem_flatMap.mpr ⟨p, hp, hv⟩, hfailed⟩
  · cases h

/-- A document holds every untyped value of a description that it holds. -/
theorem HeldAs.exists_documented {d d' : Description} (h : d.HeldAs d') :
    ∀ v ∈ d.untyped, ∃ w, v.documented deepestInDocument = .ok w := by
  intro v hv
  obtain ⟨p, hp, hv⟩ := List.mem_flatMap.mp hv
  obtain ⟨q, -, hpq⟩ := exists_of_forall₂_of_mem h.pipelines hp
  exact hpq.exists_documented v hv

end Description

/-! ### Reports -/

namespace Report

/-- A line of a report that cannot be written tells what an untyped value cannot be written for. -/
theorem documentLine_eq_error {d : Description} {cause : Failure}
    (h : documentLine d = .error cause) : ∃ v ∈ d.untyped, v.Unwritable cause := by
  rw [documentLine] at h
  split at h
  · rename_i hdocument
    cases h
    obtain ⟨v, hv, hfailed⟩ := Description.document_eq_error hdocument
    exact ⟨v, hv, Value.unwritable_of_documented hfailed⟩
  · -- the document is there, so only a long integer is left to fail for
    rename_i w hdocument
    obtain ⟨d', hd', rfl⟩ := Description.document_eq_ok_iff.mp hdocument
    rw [writeDocument] at h
    split at h
    · rename_i hlong
      cases h
      have hsome : ¬ ∀ v ∈ d.untyped, v.hasLongInt = false := by
        rw [← hd'.hasLongInt_value, hlong]
        decide
      push Not at hsome
      obtain ⟨v, hv, hlong⟩ := hsome
      exact ⟨v, hv, Value.unwritable_of_hasLongInt hlong⟩
    · cases h

/-- What a written report holds can be written. -/
theorem isWritable_of_document {d : Description} {t : String} (h : document d = .ok t) :
    ∀ v ∈ d.untyped, v.IsWritable := by
  obtain ⟨d', hd', hshort, -⟩ := document_eq_ok_iff.mp h
  intro v hv
  obtain ⟨w, hw⟩ := hd'.exists_documented v hv
  exact Value.isWritable_of_documented hw (hd'.hasLongInt_value.mp hshort v hv)

/-- A report that cannot be written is a failure to write the document of the application, and
tells what an untyped value cannot be written for. -/
theorem document_eq_error {d : Description} {f : Failure} (h : document d = .error f) :
    ∃ cause, f = .step .renderError documentOperation (.text d.name) cause ∧
      ∃ v ∈ d.untyped, v.Unwritable cause := by
  rw [document] at h
  split at h
  · cases h
  · rename_i cause hline
    cases h
    exact ⟨cause, rfl, documentLine_eq_error hline⟩

theorem exists_document_of_isWritable {d : Description} (h : ∀ v ∈ d.untyped, v.IsWritable) :
    ∃ t, document d = .ok t := by
  cases hdocument : document d with
  | ok t => exact ⟨t, rfl⟩
  | error f =>
    obtain ⟨cause, -, v, hv, hcause⟩ := document_eq_error hdocument
    exact absurd (h v hv) hcause.not_isWritable

/-- The report for programs exists exactly if all untyped values of the description can be written.
Otherwise it is a failure to write the document of the application, for a fault of the value of an
argument, which tells what one of these values cannot be written for. -/
theorem document_succeeds_iff (d : Description) :
    ((∃ t, document d = .ok t) ↔ ∀ v ∈ d.untyped, v.IsWritable) ∧
      ((¬ ∀ v ∈ d.untyped, v.IsWritable) → ∃ cause,
        document d = .error (.step .renderError documentOperation (.text d.name) cause) ∧
          cause.isKind FaultKind.isValue = true ∧ ∃ v ∈ d.untyped, v.Unwritable cause) := by
  refine ⟨⟨?_, exists_document_of_isWritable⟩, fun hnot => ?_⟩
  · rintro ⟨t, ht⟩
    exact isWritable_of_document ht
  · cases hdocument : document d with
    | ok t => exact absurd (isWritable_of_document hdocument) hnot
    | error f =>
      obtain ⟨cause, rfl, v, hv, hcause⟩ := document_eq_error hdocument
      exact ⟨cause, rfl, hcause.isKind, v, hv, hcause⟩

end Report

end AppReport
