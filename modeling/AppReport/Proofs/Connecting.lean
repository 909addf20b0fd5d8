import AppReport.Proofs.Overflow
import AppReport.Proofs.Overrides
import AppReport.Proofs.Parents
import AppReport.Proofs.StoredTables

/-!
# Opening a database that is there

What a path leads to if that is a database can be opened, and nothing is made for it
(`Connection.prepare_of_holds`): the file is there, it holds a database, and so its switches can be
set. All that is left to fail is the time to wait, which is counted in thousandths of a second. They
are beyond the floating-point numbers for some times that the settings give
(`Binary64.HasThousandths`), and these are exactly the times with which a database is not opened
(`Connection.connect_usable`). Such a failure is one of a number and none of the database.
-/

namespace AppReport

open Number AppReport.Tree

/-! ### Thousandths of a second -/

namespace Number

/-- A finite number of which the thousandfold is finite. -/
def Binary64.HasThousandths (x : Binary64) : Prop :=
  ∃ negative m e h, x = .finite negative m e h ∧ (m : ℚ) * 2 ^ e * 1000 < overflowThreshold

theorem Binary64.isFinite_scale_thousand_iff {x : Binary64} :
    (x.scale 1000).isFinite = true ↔ x.HasThousandths := by
  rw [isFinite_scale_iff, HasThousandths, Nat.cast_ofNat]

end Number

theorem Value.truncated_of_isFinite {x : Binary64} (h : x.isFinite = true) :
    ∃ n, truncated x = .ok n := by
  cases x with
  | finite => exact ⟨_, rfl⟩
  | infinite => cases h
  | nan => cases h

theorem Value.truncated_of_not_isFinite {x : Binary64} (h : ¬ x.isFinite = true) :
    ∃ f, truncated x = .error f ∧ (f.kind? = some .overflow ∨ f.kind? = some .value) := by
  cases x with
  | finite => exact absurd rfl h
  | infinite => exact ⟨_, rfl, Or.inl rfl⟩
  | nan => exact ⟨_, rfl, Or.inr rfl⟩

namespace Connection

variable {user : User} {explicit : Option Path} {options : OpenOptions} {files : Files} {p : Path}
  {place : Place} {t : Tables} {x : Binary64}

/-! ### The steps of opening -/

/-- Nothing is made for a database that is there. -/
theorem prepare_of_holds (h : HoldsTablesAt files p place t) (hnames : p.names ≠ [])
    (mustExist : Bool) : prepare files p mustExist = .ok files := by
  obtain ⟨content, d, hfind, -, -⟩ := h
  cases mustExist with
  | true =>
    have hfile : files.isFile? p = .ok true := by rw [isFile?, hfind]
    rw [prepare, if_pos rfl, hfile]
  | false =>
    rw [prepare, if_neg Bool.false_ne_true]
    exact ensureDirectories_parent hnames hfind

/-- Where there is a document, all switches are read. -/
theorem exists_switchesOf (hset : Settings.storeTimeout user files options.config = .ok x)
    (htimeout : options.timeout = none ∨ options.timeout = some (.fraction x)) :
    ∃ writeAhead foreignKeys, switchesOf user files options =
      .ok ⟨.fraction x, writeAhead, foreignKeys⟩ := by
  have htime : timeoutOf user files options = .ok (.fraction x) := by
    rcases htimeout with h | h
    · rw [timeoutOf, h, hset]
      rfl
    · rw [timeoutOf, h]
  obtain ⟨set, hoptions⟩ : ∃ set, Settings.storeOptions user files options.config = .ok set := by
    rw [Settings.storeTimeout] at hset
    rw [Settings.storeOptions]
    cases hfields : Settings.fields user files options.config with
    | error f =>
      rw [hfields] at hset
      cases hset
    | ok settings => exact ⟨_, rfl⟩
  rw [switchesOf, htime]
  dsimp only
  split
  · exact ⟨_, _, rfl⟩
  · rw [hoptions]
    exact ⟨_, _, rfl⟩

/-- The switches of a database that can be used can be set. -/
theorem exists_apply {c : Connection} {d : Database} (hd : c.database files = .ok d)
    (writeAhead foreignKeys : Bool) (milliseconds : Option Int) :
    ∃ c', (c.apply files writeAhead foreignKeys milliseconds).1 = .ok c' := by
  unfold apply turnToWriteAhead
  rw [hd]
  cases writeAhead <;> exact ⟨_, rfl⟩

/-- With a time that can be counted, the database is opened. It has the tables that the path leads
to, or none if the path stands for memory. -/
theorem openWith_of_hasThousandths (h : HoldsTablesAt files p place t) (hx : x.HasThousandths)
    (writeAhead foreignKeys : Bool) :
    ∃ c files', openWith files p ⟨.fraction x, writeAhead, foreignKeys⟩ = (.ok c, files') ∧
      (c.tables files').1 = .ok (if p.text = memoryName then .empty else t) := by
  obtain ⟨n, hn⟩ := Value.truncated_of_isFinite (Binary64.isFinite_scale_thousand_iff.mpr hx)
  have hmilliseconds : (Seconds.fraction x).milliseconds = .ok n := hn
  unfold openWith
  dsimp only [Seconds.toBinary64]
  rw [hmilliseconds]
  -- a database in memory is empty, whatever is at the path
  by_cases hp : p.text = memoryName
  · have hopen : openAt files p = (.ok .memory, files) := by rw [openAt, if_pos hp]
    have hmemory : (⟨.memory, false, 0⟩ : Connection).database files = .ok .empty := rfl
    obtain ⟨c, hc⟩ := exists_apply hmemory writeAhead foreignKeys (some n)
    have hmedium := medium_apply files ⟨.memory, false, 0⟩ writeAhead foreignKeys (some n) c hc
    rw [hopen, if_pos hp]
    refine ⟨c, _, Prod.ext hc rfl, ?_⟩
    rw [tables, database, hmedium]
    rfl
  · have hopen := openAt_of_holds h hp
    obtain ⟨d, hd, -⟩ := database_of_holds (c := ⟨.file place, false, 0⟩) h rfl
    obtain ⟨c, hc⟩ := exists_apply hd writeAhead foreignKeys (some n)
    obtain ⟨hkept, hmedium⟩ := apply_spec (c := ⟨.file place, false, 0⟩) h rfl writeAhead
      foreignKeys (some n)
    rw [hopen, if_neg hp]
    exact ⟨c, _, Prod.ext hc rfl, (tables_spec hkept (hmedium c hc)).1⟩

/-- With any other time, opening fails as the conversion of the time does. -/
theorem openWith_of_not_hasThousandths (h : HoldsTablesAt files p place t)
    (hx : ¬ x.HasThousandths) (writeAhead foreignKeys : Bool) :
    ∃ f, (openWith files p ⟨.fraction x, writeAhead, foreignKeys⟩).1 = .error f ∧
      (f.kind? = some .overflow ∨ f.kind? = some .value) := by
  obtain ⟨f, hf, hkind⟩ := Value.truncated_of_not_isFinite
    (fun hfinite => hx (Binary64.isFinite_scale_thousand_iff.mp hfinite))
  have hmilliseconds : (Seconds.fraction x).milliseconds = .error f := hf
  unfold openWith
  dsimp only [Seconds.toBinary64]
  rw [hmilliseconds]
  by_cases hp : p.text = memoryName
  · have hopen : openAt files p = (.ok .memory, files) := by rw [openAt, if_pos hp]
    rw [hopen]
    exact ⟨f, rfl, hkind⟩
  · rw [openAt_of_holds h hp]
    exact ⟨f, rfl, hkind⟩

/-! ### Opening -/

theorem connect_eq_openWith (hpath : pathOf user files explicit options = .ok p)
    (h : HoldsTablesAt files p place t) (hnames : p.names ≠ []) {switches : Switches}
    (hswitches : switchesOf user files options = .ok switches) :
    connect user explicit options files = openWith files p switches := by
  rw [connect, hpath]
  dsimp only
  rw [prepare_of_holds h hnames]
  dsimp only
  rw [hswitches]

/-- Opening a database that is there, with the time to wait that the settings give and with any
switches; the path has a name, since without one it is that of a directory. If the thousandths of
the time are finite, the database is opened and its tables can be used. If they are not, opening
fails, and with a failure of a number, which is none of the database. -/
theorem connect_usable (user : User) (explicit : Option Path) (options : OpenOptions)
    (files : Files) (p : Path) (t : Tables) (x : Binary64)
    (hpath : pathOf user files explicit options = .ok p) (hnames : p.names ≠ [])
    (htables : files.HoldsTables p t)
    (hset : Settings.storeTimeout user files options.config = .ok x)
    (htimeout : options.timeout = none ∨ options.timeout = some (.fraction x)) :
    (x.HasThousandths → ∃ c files', connect user explicit options files = (.ok c, files') ∧
      (c.tables files').1 = .ok (if p.text = memoryName then .empty else t)) ∧
    (¬ x.HasThousandths → ∃ f, (connect user explicit options files).1 = .error f ∧
      (f.kind? = some .overflow ∨ f.kind? = some .value)) := by
  obtain ⟨place, h⟩ := holdsTables_iff.mp htables
  obtain ⟨writeAhead, foreignKeys, hswitches⟩ := exists_switchesOf hset htimeout
  rw [connect_eq_openWith hpath h hnames hswitches]
  exact ⟨fun hx => openWith_of_hasThousandths h hx writeAhead foreignKeys,
    fun hx => openWith_of_not_hasThousandths h hx writeAhead foreignKeys⟩

/-- A directory with a document of settings and an empty database. -/
def storeFiles (document : String) : Files where
  entries := (["work", "store.db"], .file (.database .empty)) ::
    (Settings.documentFiles document).entries
  current := ["work"]

/-- Everything but the document is left to the settings. -/
def settingsOptions : OpenOptions := ⟨none, none, none, false, some "/work/c.json"⟩

/-- The path of the database. -/
def workStore : Path := ⟨.top, ["work", "store.db"]⟩

theorem holdsTables_storeFiles (document : String) :
    (storeFiles document).HoldsTables workStore .empty :=
  ⟨.database .empty, .empty, rfl, rfl, rfl⟩

theorem connect_usable_unset :
    (storeFiles "\x7b\x7d").HoldsTables workStore .empty ∧
    Settings.storeTimeout Settings.workingUser (storeFiles "\x7b\x7d") (some "/work/c.json") =
      .ok (.ofInt 30) ∧
    ∃ c files', connect Settings.workingUser (some workStore) settingsOptions
      (storeFiles "\x7b\x7d") = (.ok c, files') ∧ (c.tables files').1 = .ok .empty := by
  have hset : Settings.storeTimeout Settings.workingUser (storeFiles "\x7b\x7d")
      (some "/work/c.json") = .ok (.ofInt 30) := rfl
  have hx : (Binary64.ofInt 30).HasThousandths :=
    Binary64.isFinite_scale_thousand_iff.mp (by decide)
  have htables := holdsTables_storeFiles "\x7b\x7d"
  obtain ⟨c, files', hconnect, hused⟩ := (connect_usable Settings.workingUser (some workStore)
    settingsOptions (storeFiles "\x7b\x7d") workStore .empty (.ofInt 30) rfl (by decide) htables
    hset (Or.inl rfl)).1 hx
  exact ⟨htables, hset, c, files', hconnect, hused⟩

/-- A database is not opened where the settings give no end to the time to wait for it, and the
failure is none of the database. -/
theorem connect_endless :
    (storeFiles "\x7b\"db_timeout_seconds\": Infinity\x7d").HoldsTables workStore .empty ∧
    Settings.storeTimeout Settings.workingUser
      (storeFiles "\x7b\"db_timeout_seconds\": Infinity\x7d") (some "/work/c.json") =
        .ok (.infinite false) ∧
    (connect Settings.workingUser (some workStore) settingsOptions
      (storeFiles "\x7b\"db_timeout_seconds\": Infinity\x7d")).1 =
        .error (.of .overflow "cannot convert float infinity to integer") :=
  ⟨holdsTables_storeFiles _, rfl, rfl⟩

end Connection

end AppReport
