import AppReport.Proofs.Overflow
import AppReport.Proofs.Overrides
import AppReport.Proofs.Roundtrip
import AppReport.Proofs.Tags

/-!
# Settings and their defaults

A setting that is a number is what its own value is converted to, and the default where there is no
conversion (`Settings.ownNumber`). That is so whatever else the document holds, and whatever the
value is, but for two kinds of value for which the conversion is an overflow: an integer beyond the
floating-point numbers, and an infinity where an integer is wanted (`Settings.numberOf_spec`). No
default stands in for these, so that all settings of the same section are lost with the one
(`Settings.directory_fails_iff`, `Settings.fall_back`).
-/

namespace AppReport

open Number

/-! ### Conversions -/

namespace Value

/-- An integer whose nearest floating-point number is infinite. -/
def IsTooGreat (v : Value) : Prop :=
  ∃ n : ℤ, v = int n ∧ Binary64.overflowThreshold ≤ (n.natAbs : ℚ)

/-- One of the two infinities. -/
def IsInfinite (v : Value) : Prop := ∃ negative, v = float (.infinite negative)

/-- A conversion overflows for certain values, and fails for others as for a value or a type that is
of no use. -/
structure OverflowsAt {α : Type} (convert : Value → Except Failure α) (P : Value → Prop) :
    Prop where
  overflow : ∀ v, P v → ∃ f, convert v = .error f ∧ f.kind? = some .overflow
  other : ∀ v, ¬ P v → ∀ f, convert v = .error f →
    f.kind? = some .typeMismatch ∨ f.kind? = some .value

theorem nearest_of_isFinite {n : ℤ} (h : (Binary64.ofInt n).isFinite = true) :
    nearest n = .ok (.ofInt n) := by
  unfold nearest
  cases hx : Binary64.ofInt n with
  | finite => rfl
  | infinite =>
    rw [hx] at h
    cases h
  | nan => rfl

theorem overflowsAt_toBinary64 : OverflowsAt toBinary64 IsTooGreat where
  overflow := by
    rintro _ ⟨n, rfl, hn⟩
    have hinfinite : Binary64.ofInt n = .infinite (decide (n < 0)) := by
      rw [Binary64.ofInt_eq_nearest]
      exact Binary64.nearest_of_le_threshold _ hn
    rw [toBinary64, nearest, hinfinite]
    exact ⟨_, rfl, rfl⟩
  other := by
    intro v hv f hf
    -- nulls and texts that are no number fall back; only an integer can be too great
    unfold toBinary64 at hf
    split at hf
    · cases hf
    · rename_i n
      have hfinite : (Binary64.ofInt n).isFinite = true :=
        Binary64.isFinite_ofInt_iff.mpr (not_le.mp fun hn => hv ⟨n, rfl, hn⟩)
      rw [nearest_of_isFinite hfinite] at hf
      cases hf
    · rename_i b
      have hfinite : (Binary64.ofInt (ofBool b)).isFinite = true := by cases b <;> decide
      rw [nearest_of_isFinite hfinite] at hf
      cases hf
    · split at hf
      · cases hf
      · cases hf
        exact Or.inr rfl
    · cases hf
      exact Or.inl rfl

theorem overflowsAt_toInteger : OverflowsAt toInteger IsInfinite where
  overflow := by
    rintro _ ⟨negative, rfl⟩
    exact ⟨_, rfl, rfl⟩
  other := by
    intro v hv f hf
    unfold toInteger at hf
    split at hf
    · rename_i x
      cases x with
      | finite => cases hf
      | infinite negative => exact absurd ⟨negative, rfl⟩ hv
      | nan =>
        cases hf
        exact Or.inr rfl
    · cases hf
    · cases hf
    · split at hf
      · cases hf
      · cases hf
        exact Or.inr rfl
    · cases hf
      exact Or.inl rfl

end Value

namespace Settings

variable {user : User} {files : Files} {config : Option String} {settings : Fields}

/-! ### One number -/

section

variable {α : Type} {convert : Value → Except Failure α} {P : Value → Prop} {fields : Fields}
  {name : String} {default : α}

/-- The number that a setting gives: what its own value is converted to, or else the default. -/
def ownNumber (convert : Value → Except Failure α) (fields : Fields) (name : String) (default : α) :
    α :=
  match fields.get? name with
  | none => default
  | some v => (convert v).toOption.getD default

/-- A setting with a value of a kind. -/
def HasValue (P : Value → Prop) (fields : Fields) (name : String) : Prop :=
  ∃ v, fields.get? name = some v ∧ P v

theorem orDefault_error {f : Failure}
    (h : f.kind? = some .typeMismatch ∨ f.kind? = some .value) :
    orDefault default (.error f) = .ok default := by
  rw [orDefault, Failure.isKind, Failure.isKind, if_pos]
  rcases h with h | h <;> rw [h] <;> rfl

theorem orDefault_overflow {f : Failure} (h : f.kind? = some .overflow) :
    orDefault default (.error f) = .error f := by
  rw [orDefault, Failure.isKind, Failure.isKind, h]
  rfl

theorem numberOf_of_get? {v : Value} (hget : fields.get? name = some v) :
    numberOf convert fields name default = orDefault default (convert v) := by
  rw [numberOf, hget]

/-- A number is that of its own value or the default, unless its conversion overflows. -/
theorem numberOf_spec (h : Value.OverflowsAt convert P) (fields : Fields) (name : String)
    (default : α) :
    (HasValue P fields name →
      ∃ f, numberOf convert fields name default = .error f ∧ f.kind? = some .overflow) ∧
    (¬ HasValue P fields name →
      numberOf convert fields name default = .ok (ownNumber convert fields name default)) := by
  constructor
  · rintro ⟨v, hget, hv⟩
    obtain ⟨f, hf, hkind⟩ := h.overflow v hv
    rw [numberOf_of_get? hget, hf, orDefault_overflow hkind]
    exact ⟨f, rfl, hkind⟩
  · intro hnot
    cases hget : fields.get? name with
    | none => rw [numberOf, ownNumber, hget]
    | some v =>
      -- no overflow, so that the only failures left are those that fall back
      have hv : ¬ P v := fun hv => hnot ⟨v, hget, hv⟩
      rw [numberOf_of_get? hget, ownNumber, hget]
      dsimp only
      cases hconvert : convert v with
      | ok a => rfl
      | error f =>
        rw [orDefault_error (h.other v hv f hconvert)]
        rfl

end

/-! ### The readings of the document -/

theorem storeOptions_of_load (hload : load user files config = .ok (.object settings)) :
    storeOptions user files config =
      .ok ⟨switchOf (sectionOf settings "db") "enable_wal",
        switchOf (sectionOf settings "db") "foreign_keys"⟩ := by
  rw [storeOptions, fields_of_load hload]

theorem storeTimeout_of_load (hload : load user files config = .ok (.object settings)) :
    storeTimeout user files config =
      numberOf Value.toBinary64 settings "db_timeout_seconds" defaultStoreTimeout := by
  rw [storeTimeout, fields_of_load hload]

/-- The settings of the directory are lost where one of its numbers overflows. -/
def DirectoryOverflows (settings : Fields) : Prop :=
  HasValue Value.IsTooGreat (sectionOf settings "pipeline_directory") "timeout_seconds" ∨
    HasValue Value.IsInfinite (sectionOf settings "pipeline_directory") "page_size"

/-- The settings of the directory, each from its own value. -/
def ownDirectory (settings : Fields) : DirectorySettings where
  baseUrl := addressOf (sectionOf settings "pipeline_directory")
  timeout := ownNumber Value.toBinary64 (sectionOf settings "pipeline_directory") "timeout_seconds"
    defaultDirectory.timeout
  pageSize := ownNumber Value.toInteger (sectionOf settings "pipeline_directory") "page_size"
    defaultDirectory.pageSize

theorem directory_of_overflows (hload : load user files config = .ok (.object settings))
    (h : DirectoryOverflows settings) :
    ∃ f, directory user files config = .error f ∧ f.kind? = some .overflow := by
  have htimeout := numberOf_spec Value.overflowsAt_toBinary64
    (sectionOf settings "pipeline_directory") "timeout_seconds" defaultDirectory.timeout
  have hpage := numberOf_spec Value.overflowsAt_toInteger
    (sectionOf settings "pipeline_directory") "page_size" defaultDirectory.pageSize
  rw [directory, fields_of_load hload]
  dsimp only
  by_cases hgreat : HasValue Value.IsTooGreat (sectionOf settings "pipeline_directory")
      "timeout_seconds"
  · obtain ⟨f, hf, hkind⟩ := htimeout.1 hgreat
    rw [hf]
    exact ⟨f, rfl, hkind⟩
  · obtain ⟨f, hf, hkind⟩ := hpage.1 (h.resolve_left hgreat)
    rw [htimeout.2 hgreat, hf]
    exact ⟨f, rfl, hkind⟩

theorem directory_of_not_overflows (hload : load user files config = .ok (.object settings))
    (h : ¬ DirectoryOverflows settings) :
    directory user files config = .ok (ownDirectory settings) := by
  rw [DirectoryOverflows, not_or] at h
  rw [directory, fields_of_load hload]
  dsimp only
  rw [(numberOf_spec Value.overflowsAt_toBinary64 _ _ _).2 h.1,
    (numberOf_spec Value.overflowsAt_toInteger _ _ _).2 h.2]
  rfl

/-- The settings of the directory are its own ones, if there are any. -/
theorem directory_eq_ok (hload : load user files config = .ok (.object settings))
    {d : DirectorySettings} (h : directory user files config = .ok d) :
    d = ownDirectory settings := by
  by_cases hoverflow : DirectoryOverflows settings
  · obtain ⟨f, hf, -⟩ := directory_of_overflows hload hoverflow
    rw [h] at hf
    cases hf
  · rw [directory_of_not_overflows hload hoverflow] at h
    exact (Except.ok.inj h).symm

/-- A document that is loaded is within the bounds of the reader. -/
theorem isBounded_of_load {v : Value} (hload : load user files config = .ok v) :
    v.IsBounded Json.deepest := by
  unfold load at hload
  split at hload
  · cases hload
  split at hload
  · cases hload
  · cases hload
    exact ⟨Nat.le_of_ble_eq_true rfl, rfl⟩
  · rename_i p _ _
    unfold Tree.readDocument at hload
    split at hload
    · cases hload
    · rename_i s _
      cases hread : Json.read s with
      | ok v' =>
        rw [hread] at hload
        cases hload
        exact Json.isBounded_of_read hread
      | error e =>
        rw [hread] at hload
        cases hload

theorem isBounded_of_get? {room : ℕ} {fields : Fields} {name : String} {v : Value}
    (h : (Value.object fields).IsBounded (room + 1)) (hget : fields.get? name = some v) :
    v.IsBounded room :=
  Value.isBounded_object_iff.mp h _ (Fields.mem_of_get? hget)

/-- An address that is set has a text, whatever it is. -/
theorem shown?_address (hload : load user files config = .ok (.object settings)) {v : Value}
    (hget : (sectionOf settings "pipeline_directory").get? "base_url" = some v) :
    v.shown? = .ok v.shown := by
  have hdocument : (Value.object settings).IsBounded (Json.deepest - 1 + 1) :=
    isBounded_of_load hload
  unfold sectionOf at hget
  split at hget
  · rename_i part hpart
    have hsection : settings.get? "pipeline_directory" = some (.object part) := by
      unfold Fields.getD at hpart
      cases hfound : settings.get? "pipeline_directory" with
      | none =>
        rw [hfound] at hpart
        cases hpart
      | some w =>
        rw [hfound] at hpart
        exact congrArg some hpart
    have hpart : (Value.object part).IsBounded (Json.deepest - 2 + 1) :=
      isBounded_of_get? hdocument hsection
    exact Value.shown?_of_isBounded ((isBounded_of_get? hpart hget).mono (by omega))
  · cases hget

/-! ### All readings -/

/-- What two documents give for a name depends on nothing but what they hold for it. -/
theorem ownNumber_congr {α : Type} {fields fields' : Fields} {name : String}
    (h : fields.get? name = fields'.get? name) (convert : Value → Except Failure α) (default : α) :
    ownNumber convert fields name default = ownNumber convert fields' name default := by
  rw [ownNumber, ownNumber, h]

/-- The settings in a document that is an object, whatever it holds. The switches of the store are
always read. The time to wait for the store is the number of its own value or the default, unless
that value is an integer beyond the floating-point numbers; then it is an overflow. The settings of
the directory are read unless its time is such an integer or its size of pages is infinite, and each
of them is then that of its own value or the default, where an address has a text whatever it is;
otherwise they are all lost in an overflow. So two documents with the same value for a setting give
the same for it, whatever they hold for others, as long as they give anything. -/
theorem fall_back (user : User) (files : Files) (config : Option String) (settings : Fields)
    (hload : load user files config = .ok (.object settings)) :
    storeOptions user files config =
      .ok ⟨switchOf (sectionOf settings "db") "enable_wal",
        switchOf (sectionOf settings "db") "foreign_keys"⟩ ∧
    (¬ HasValue Value.IsTooGreat settings "db_timeout_seconds" →
      storeTimeout user files config = .ok
        (ownNumber Value.toBinary64 settings "db_timeout_seconds" defaultStoreTimeout)) ∧
    (HasValue Value.IsTooGreat settings "db_timeout_seconds" →
      ∃ f, storeTimeout user files config = .error f ∧ f.kind? = some .overflow) ∧
    (¬ DirectoryOverflows settings →
      directory user files config = .ok (ownDirectory settings)) ∧
    (DirectoryOverflows settings →
      ∃ f, directory user files config = .error f ∧ f.kind? = some .overflow) ∧
    (∀ v, (sectionOf settings "pipeline_directory").get? "base_url" = some v →
      v.shown? = .ok v.shown) ∧
    ∀ (files' : Files) (settings' : Fields), load user files' config = .ok (.object settings') →
      (settings.get? "db_timeout_seconds" = settings'.get? "db_timeout_seconds" →
        storeTimeout user files config = storeTimeout user files' config) ∧
      ∀ d d', directory user files config = .ok d → directory user files' config = .ok d' →
        let part := sectionOf settings "pipeline_directory"
        let part' := sectionOf settings' "pipeline_directory"
        (part.get? "base_url" = part'.get? "base_url" → d.baseUrl = d'.baseUrl) ∧
        (part.get? "timeout_seconds" = part'.get? "timeout_seconds" → d.timeout = d'.timeout) ∧
        (part.get? "page_size" = part'.get? "page_size" → d.pageSize = d'.pageSize) := by
  have htimeout := numberOf_spec Value.overflowsAt_toBinary64 settings "db_timeout_seconds"
    defaultStoreTimeout
  rw [← storeTimeout_of_load hload] at htimeout
  refine ⟨storeOptions_of_load hload, htimeout.2, htimeout.1, directory_of_not_overflows hload,
    directory_of_overflows hload, fun v => shown?_address hload, ?_⟩
  intro files' settings' hload'
  -- two files of settings with the same value for one key, whatever else they hold
  constructor
  · intro hsame
    rw [storeTimeout_of_load hload, storeTimeout_of_load hload', numberOf, numberOf, hsame]
  · intro d d' hd hd'
    rw [directory_eq_ok hload hd, directory_eq_ok hload' hd']
    refine ⟨fun hsame => ?_, fun hsame => ownNumber_congr hsame _ _,
      fun hsame => ownNumber_congr hsame _ _⟩
    show addressOf _ = addressOf _
    rw [addressOf, addressOf, hsame]

/-- A document with a time and a size of pages that are no numbers. -/
def wordySettings : Files :=
  documentFiles ("\x7b\"pipeline_directory\": " ++
    "\x7b\"timeout_seconds\": \"soon\", \"page_size\": null\x7d\x7d")

theorem fall_back_wordySettings :
    load workingUser wordySettings (some "/work/c.json") =
      .ok (.object [("pipeline_directory",
        .object [("timeout_seconds", .text "soon"), ("page_size", .null)])]) ∧
    directory workingUser wordySettings (some "/work/c.json") = .ok defaultDirectory := by
  have hload : load workingUser wordySettings (some "/work/c.json") =
      .ok (.object [("pipeline_directory",
        .object [("timeout_seconds", .text "soon"), ("page_size", .null)])]) := rfl
  obtain ⟨-, -, -, hdirectory, -⟩ :=
    fall_back workingUser wordySettings (some "/work/c.json") _ hload
  refine ⟨hload, hdirectory ?_⟩
  rintro (⟨v, hv, n, rfl, -⟩ | ⟨v, hv, negative, rfl⟩)
  · cases hv
  · cases hv

/-- A document in which the size of pages is infinite, next to a time that is a number. -/
def endlessPages : Files :=
  documentFiles ("\x7b\"pipeline_directory\": " ++
    "\x7b\"timeout_seconds\": 5, \"page_size\": Infinity\x7d\x7d")

/-- A size of pages that cannot be converted spoils the time that is set beside it. -/
theorem directory_endlessPages :
    load workingUser endlessPages (some "/work/c.json") =
      .ok (.object [("pipeline_directory",
        .object [("timeout_seconds", .int 5), ("page_size", .float (.infinite false))])]) ∧
    directory workingUser endlessPages (some "/work/c.json") =
      .error (.of .overflow "cannot convert float infinity to integer") := ⟨rfl, rfl⟩

end Settings

end AppReport
