import AppReport.Store.ConfigStore

/-!
# How opening a store fails

To open a store is to read settings, to look for a file, to make directories and to use a database.
Each of these has failures of its own, and all of them are of a kind that belongs to settings, files
or databases (`FaultKind.isOpening`): nothing that opens a store fails for want of an application
(`ConfigStore.isOpening_tables`).
-/

namespace AppReport

/-- The kinds of faults that settings, files and databases have. -/
def FaultKind.isOpening : FaultKind → Bool
  | runtime | operatingSystem | value | overflow | typeMismatch | missingAttribute | recursion
  | malformedDocument | undecodable | fileExists | isDirectory | notDirectory | tableOperation
  | tableFormat | database => true
  | _ => false

/-- Whatever fails in an outcome is a matter of settings, files or databases. -/
def IsOpening {α : Type} (outcome : Except Failure α) : Prop :=
  ∀ f, outcome = .error f → f.isKind FaultKind.isOpening = true

section

variable {α β : Type} {f : Failure} {outcome : Except Failure α}

theorem isOpening_ok (a : α) : IsOpening (.ok a : Except Failure α) := nofun

theorem isOpening_error (h : f.isKind FaultKind.isOpening = true) :
    IsOpening (.error f : Except Failure α) := by
  rintro _ ⟨⟩
  exact h

/-- A stage that hands on the failure of another one fails as that one does. -/
theorem IsOpening.error (h : IsOpening outcome) (hf : outcome = .error f) :
    IsOpening (.error f : Except Failure β) := isOpening_error (h f hf)

/-- What is made of a result does not fail. -/
theorem IsOpening.map (h : IsOpening outcome) (g : α → β) : IsOpening (outcome.map g) := by
  cases outcome with
  | error f => exact h.error rfl
  | ok a => exact isOpening_ok (g a)

end

/-! ### Files -/

variable {files : Files} {p : Path} {user : User} {explicit : Option String}

/-- Each fault of a file is one of opening. -/
theorem FileFault.isOpening_failure (fault : FileFault) (p : Path) :
    (fault.failure p).isKind FaultKind.isOpening = true := by
  cases fault <;> rfl

theorem Path.isOpening_expandHome (homes : Path.Homes) (p : Path) :
    IsOpening (p.expandHome homes) := by
  unfold expandHome
  split
  · split
    · split
      · exact isOpening_error rfl
      · exact isOpening_ok _
    · exact isOpening_ok _
  · exact isOpening_ok _

namespace Tree

theorem isOpening_exists? : IsOpening (files.exists? p) := by
  unfold exists?
  split
  · exact isOpening_ok _
  · exact isOpening_error (FileFault.isOpening_failure _ p)
  · exact isOpening_ok _

theorem isOpening_isFile? : IsOpening (files.isFile? p) := by
  unfold isFile?
  split
  · exact isOpening_ok _
  · exact isOpening_error (FileFault.isOpening_failure _ p)
  · exact isOpening_ok _

theorem isOpening_content : IsOpening (files.content p) := by
  unfold content
  split
  · exact isOpening_ok _
  · exact isOpening_error (FileFault.isOpening_failure _ p)
  · exact isOpening_error (FileFault.isOpening_failure _ p)

theorem isOpening_resolve : IsOpening (files.resolve p) := by
  unfold resolve
  split
  · exact isOpening_error (FileFault.isOpening_failure _ p)
  · dsimp only
    split
    · exact isOpening_error rfl
    · exact isOpening_ok _

/-- Directories are made from the outside in, and each of them may fail. -/
theorem isOpening_ensureDirectoriesWithin (names : List String) :
    IsOpening (files.ensureDirectoriesWithin p names) := by
  induction names generalizing p with
  | nil =>
    unfold ensureDirectoriesWithin
    split
    · exact isOpening_ok _
    · exact isOpening_error (FileFault.isOpening_failure _ p)
  | cons name names ih =>
    unfold ensureDirectoriesWithin
    split
    · exact isOpening_ok _
    · -- the directory that this one lies in is made first
      split
      · rename_i hparent
        exact ih.error hparent
      · split
        · exact isOpening_ok _
        · exact isOpening_error (FileFault.isOpening_failure _ p)
    · exact isOpening_error (FileFault.isOpening_failure _ p)

end Tree

/-- Bytes that encode no text are a fault of opening, and so is a database that is read as one. -/
theorem Content.isOpening_text (content : Content) : IsOpening content.text := by
  cases content with
  | bytes b =>
    refine IsOpening.map ?_ _
    unfold Failure.decoded
    cases Text.decodeOrFlaw b with
    | error flaw => exact isOpening_error rfl
    | ok cs => exact isOpening_ok cs
  | database d => exact isOpening_error rfl

/-- A document that is not there, is no text or cannot be read is a fault of opening. -/
theorem Tree.isOpening_readDocument : IsOpening (files.readDocument p) := by
  unfold readDocument
  split
  · rename_i hread
    unfold readText at hread
    split at hread
    · rename_i hcontent
      cases hread
      exact isOpening_content.error hcontent
    · exact (Content.isOpening_text _).error hread
  · rename_i s _
    cases Json.read s with
    | error e => cases e <;> exact isOpening_error rfl
    | ok v => exact isOpening_ok v

/-! ### Settings -/

namespace Settings

/-- A path of settings fails only for want of a home directory. -/
theorem isOpening_path : IsOpening (path user explicit) := by
  unfold path
  split
  · exact Path.isOpening_expandHome _ _
  · split
    · exact isOpening_ok _
    · exact Path.isOpening_expandHome _ _

/-- Settings that cannot be read are a fault of opening; settings that are not there are not. -/
theorem isOpening_load : IsOpening (load user files explicit) := by
  unfold load
  split
  · rename_i hpath
    exact isOpening_path.error hpath
  · split
    · rename_i hexists
      exact Tree.isOpening_exists?.error hexists
    · exact isOpening_ok _
    · exact Tree.isOpening_readDocument

/-- Settings that are no object are a fault of opening. -/
theorem isOpening_fields : IsOpening (fields user files explicit) := by
  unfold fields
  split
  · rename_i hload
    exact isOpening_load.error hload
  · unfold Value.fieldsOrFail
    split
    · exact isOpening_ok _
    · exact isOpening_error rfl

theorem isOpening_storeText (directory : Path) (paths : Fields) :
    IsOpening (storeText directory paths) := by
  unfold storeText
  split
  · exact isOpening_ok _
  · exact isOpening_ok _
  · exact isOpening_error rfl

/-- The path of the store fails with the settings, with a home directory or with a link. -/
theorem isOpening_storePath : IsOpening (storePath user files explicit) := by
  -- one split for each stage; a stage that fails hands its failure on
  unfold storePath
  split
  · rename_i hfields
    exact isOpening_fields.error hfields
  split
  · rename_i hpath
    exact isOpening_path.error hpath
  split
  · rename_i htext
    exact (isOpening_storeText _ _).error htext
  split
  · rename_i hhome
    exact (Path.isOpening_expandHome _ _).error hhome
  split
  · exact isOpening_ok _
  · exact Tree.isOpening_resolve

end Settings

theorem Value.isOpening_nearest (n : Int) : IsOpening (nearest n) := by
  unfold nearest
  split
  · exact isOpening_error rfl
  · exact isOpening_ok _

/-- A number that is not finite has no whole part. -/
theorem Value.isOpening_truncated (x : Number.Binary64) : IsOpening (truncated x) := by
  unfold truncated
  split
  · exact isOpening_ok _
  · split
    · exact isOpening_error rfl
    · exact isOpening_error rfl

/-- What cannot be made a number is a fault of opening. -/
theorem Value.isOpening_toBinary64 (v : Value) : IsOpening v.toBinary64 := by
  unfold toBinary64
  split
  · exact isOpening_ok _
  · exact isOpening_nearest _
  · exact isOpening_nearest _
  · split
    · exact isOpening_ok _
    · exact isOpening_error rfl
  · exact isOpening_error rfl

namespace Settings

/-- The timeout fails with the settings, and where its value is too large for a number. -/
theorem isOpening_storeTimeout : IsOpening (storeTimeout user files explicit) := by
  unfold storeTimeout
  split
  · rename_i hfields
    exact isOpening_fields.error hfields
  · unfold numberOf
    split
    · exact isOpening_ok _
    · unfold orDefault
      split
      · exact isOpening_ok _
      · rename_i hconvert
        split
        · exact isOpening_ok _
        · exact (Value.isOpening_toBinary64 _).error hconvert

theorem isOpening_storeOptions : IsOpening (storeOptions user files explicit) := by
  unfold storeOptions
  split
  · rename_i hfields
    exact isOpening_fields.error hfields
  · exact isOpening_ok _

end Settings

/-! ### Databases -/

namespace Connection

variable {c : Connection} {options : OpenOptions} {path? : Option Path}

/-- A file that holds no database is a fault of opening. -/
theorem isOpening_database : IsOpening (c.database files) := by
  unfold database
  split
  · exact isOpening_ok _
  · split
    · split
      · exact isOpening_ok _
      · exact isOpening_error rfl
    · exact isOpening_error rfl

/-- A failure of the tables becomes one of the database, and any other one stays as it is. -/
theorem isOpening_asDatabase {f : Failure} (doing : String)
    (h : f.isKind FaultKind.isOpening = true) :
    (f.asDatabase doing).isKind FaultKind.isOpening = true := by
  unfold Failure.asDatabase
  split
  · rfl
  · exact h

/-- Switches fail where the database cannot be written ahead. -/
theorem isOpening_apply (writeAhead foreignKeys : Bool) (milliseconds : Option Int) :
    IsOpening (c.apply files writeAhead foreignKeys milliseconds).1 := by
  unfold apply
  split
  · rename_i f hturned
    refine isOpening_error (isOpening_asDatabase _ ?_)
    split at hturned
    · -- of the switches it is only writing ahead that looks into the file
      unfold turnToWriteAhead at hturned
      split at hturned
      · rename_i hdatabase
        cases hturned
        exact isOpening_database f hdatabase
      · cases hturned
    · cases hturned
  · exact isOpening_ok _

/-- A database opens where there is one, and where one can be made. -/
theorem isOpening_openAt : IsOpening (openAt files p).1 := by
  unfold openAt
  split
  · exact isOpening_ok _
  · split
    · exact isOpening_ok _
    · exact isOpening_ok _
    · exact isOpening_error rfl
    · exact isOpening_error rfl

/-- Opening with switches fails with the timeout, with the file or with a switch. -/
theorem isOpening_openWith (switches : Switches) : IsOpening (openWith files p switches).1 := by
  unfold openWith
  split
  · rename_i htimeout
    -- the timeout as a number comes first, and as milliseconds only when the file is open
    unfold Seconds.toBinary64 at htimeout
    split at htimeout
    · exact (Value.isOpening_nearest _).error htimeout
    · cases htimeout
  split
  · rename_i f files' hopen
    refine isOpening_error (isOpening_asDatabase _ ?_)
    have hfails := @isOpening_openAt files p
    rw [hopen] at hfails
    exact hfails f rfl
  split
  · rename_i hmilliseconds
    unfold Seconds.milliseconds at hmilliseconds
    split at hmilliseconds
    · cases hmilliseconds
    · exact (Value.isOpening_truncated _).error hmilliseconds
  · exact isOpening_apply _ _ _

theorem isOpening_pathOf : IsOpening (pathOf user files path? options) := by
  unfold pathOf
  split
  · exact isOpening_ok _
  · exact Settings.isOpening_storePath

theorem isOpening_prepare (mustExist : Bool) : IsOpening (prepare files p mustExist) := by
  unfold prepare
  split
  · split
    · rename_i hfile
      exact Tree.isOpening_isFile?.error hfile
    · exact isOpening_ok _
    · exact isOpening_error rfl
  · exact Tree.isOpening_ensureDirectoriesWithin _

theorem isOpening_switchesOf : IsOpening (switchesOf user files options) := by
  unfold switchesOf
  split
  · rename_i htimeout
    unfold timeoutOf at htimeout
    split at htimeout
    · cases htimeout
    · exact (Settings.isOpening_storeTimeout.map _).error htimeout
  · split
    · exact isOpening_ok _
    · split
      · rename_i hoptions
        exact Settings.isOpening_storeOptions.error hoptions
      · exact isOpening_ok _

/-- A connection fails at the first of its stages that does. -/
theorem isOpening_connect : IsOpening (connect user path? options files).1 := by
  unfold connect
  split
  · rename_i hpath
    exact isOpening_pathOf.error hpath
  split
  · rename_i hprepare
    exact (isOpening_prepare _).error hprepare
  split
  · rename_i hswitches
    exact isOpening_switchesOf.error hswitches
  · exact isOpening_openWith _

/-- Tables can be read of a database, and of nothing else. -/
theorem isOpening_tables : IsOpening (c.tables files).1 := by
  unfold tables
  split
  · rename_i hdatabase
    exact isOpening_database.error hdatabase
  · exact isOpening_ok _

end Connection

/-- Whatever keeps a store from being read is a matter of settings, files or databases. -/
theorem ConfigStore.isOpening_tables (store : ConfigStore) (files : Files) :
    IsOpening (store.tables files).1 := by
  unfold tables
  split
  · rename_i f files' hconnect
    have hfails := @Connection.isOpening_connect files store.user store.options store.path
    rw [hconnect] at hfails
    exact hfails.error rfl
  · exact Connection.isOpening_tables

end AppReport
