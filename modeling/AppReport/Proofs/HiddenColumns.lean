import AppReport.Proofs.Contents
import AppReport.Proofs.Readable
import AppReport.Proofs.Unseen
import AppReport.World

/-!
# Columns that no report shows

An application has an account and a version, and an environment a registry and two roles, which no
view takes over. `World.hide` empties these columns in every database, but for texts that are not
UTF-8: with such a text a row cannot be read, whatever else is asked of it. All calls of a run
answer without the columns as they do with them, but for the fields that come from there
(`World.commutes_hide`), and no description depends on these fields (`Findings.describe_hide`). So
two worlds that differ at most in what can be read of these columns lead to the same outcome and the
same output (`Showing.run_hidden`), and only those: a text that is not UTF-8 in place of nothing is
a failure in place of a report (`Showing.run_malformedVersion`).

The store is opened before it is read, which looks for its file, and may make a new database or
directories; none of this depends on what is in the tables (`Connection.connect_hide`).
-/

namespace AppReport

/-- Where a change of the items is a change of what they give, it is one of all results. -/
theorem mapUntilFailure_map {α β : Type} {f : α → Except Failure β} {h : α → α} {g : β → β}
    (hf : ∀ a, f (h a) = (f a).map g) (as : List α) :
    mapUntilFailure f (as.map h) = (mapUntilFailure f as).map (List.map g) := by
  induction as with
  | nil => rfl
  | cons a as ih =>
    rw [List.map_cons, mapUntilFailure, mapUntilFailure, hf, ih]
    rcases f a with _ | _
    · rfl
    · cases mapUntilFailure f as <;> rfl

/-- What becomes of results all at once becomes of each of them. -/
theorem map_mapUntilFailure {α β γ : Type} (f : α → Except Failure β) (g : β → γ) (as : List α) :
    (mapUntilFailure f as).map (List.map g) = mapUntilFailure (fun a => (f a).map g) as := by
  induction as with
  | nil => rfl
  | cons a as ih =>
    rw [mapUntilFailure, mapUntilFailure, ← ih]
    rcases f a with _ | _
    · rfl
    · cases mapUntilFailure f as <;> rfl

/-! ### Fields -/

namespace Fields

/-- The fields with no value for certain keys. -/
def blank (keys : List String) (fields : Fields) : Fields :=
  fields.map fun (key, v) => (key, if key ∈ keys then .null else v)

/-- Under hidden keys stands nothing, and under all others what stood there. -/
theorem get?_blank (keys : List String) (fields : Fields) (key : String) :
    (fields.blank keys).get? key =
      (fields.get? key).map fun v => if key ∈ keys then .null else v := by
  induction fields with
  | nil => rfl
  | cons field fields ih =>
    obtain ⟨k, v⟩ := field
    simp only [get?, blank, List.map_cons, List.lookup_cons] at ih ⊢
    by_cases hkey : key = k
    · simp [hkey]
    · simpa [beq_false_of_ne hkey] using ih

theorem getD_blank (keys : List String) (fields : Fields) (key : String) :
    (fields.blank keys).getD key = if key ∈ keys then .null else fields.getD key := by
  rw [getD, getD, get?_blank]
  cases fields.get? key <;> split <;> rfl

end Fields

/-! ### Rows and records -/

/-- The keys of the fields of an application that no report shows. -/
def Application.hiddenKeys : List String := ["account_id", "version"]

/-- The keys of the fields of an environment that no report shows. -/
def Environment.hiddenKeys : List String :=
  ["registry_url", "execution_role_arn", "manager_role_arn"]

/-- What is left of a hidden column: a text that is not UTF-8, and otherwise nothing. -/
def hiddenColumn (c : Option Stored) : Option Stored :=
  match c with
  | some (.malformed b h) => some (.malformed b h)
  | _ => none

/-- The row without what can be read of its hidden columns. -/
def ApplicationRow.hide (r : ApplicationRow) : ApplicationRow :=
  { r with accountId := hiddenColumn r.accountId, version := hiddenColumn r.version }

/-- The row without what can be read of its hidden columns. -/
def EnvironmentRow.hide (r : EnvironmentRow) : EnvironmentRow :=
  { r with
    registryUrl := hiddenColumn r.registryUrl
    executionRole := hiddenColumn r.executionRole
    managerRole := hiddenColumn r.managerRole }

/-- The record without its hidden fields. -/
def Application.hide (a : Application) : Application :=
  { a with accountId := .text "", version := .null }

/-- The record without its hidden fields. -/
def Environment.hide (e : Environment) : Environment :=
  { e with registryUrl := .null, executionRole := .null, managerRole := .null }

theorem storedValue_hiddenColumn (c : Option Stored) : storedValue (hiddenColumn c) = .null := by
  rcases c with _ | (s | b | ⟨b, h⟩) <;> rfl

/-- Hiding a column does not make it readable. -/
theorem malformed?_hiddenColumn (c : Option Stored) :
    (hiddenColumn c).bind Stored.malformed? = c.bind Stored.malformed? := by
  rcases c with _ | (s | b | ⟨b, h⟩) <;> rfl

/-- A row is read without hidden columns as it is with them, but for the fields of these columns. -/
theorem ApplicationRow.read_hide (r : ApplicationRow) :
    r.hide.read = r.read.map (Fields.blank Application.hiddenKeys) := by
  have hmalformed : r.hide.malformed? = r.malformed? := by
    simp only [malformed?, hide, malformed?_hiddenColumn]
  have hfields : r.hide.toFields = Fields.blank Application.hiddenKeys r.toFields := by
    simp [toFields, hide, storedValue_hiddenColumn, Fields.blank, Application.hiddenKeys]
  rw [read, read, hmalformed, hfields]
  cases r.malformed? <;> rfl

/-- A row is read without hidden columns as it is with them, but for the fields of these columns. -/
theorem EnvironmentRow.read_hide (app : Stored) (r : EnvironmentRow) :
    r.hide.read app = (r.read app).map (Fields.blank Environment.hiddenKeys) := by
  have hmalformed : r.hide.malformed? app = r.malformed? app := by
    simp only [malformed?, hide, malformed?_hiddenColumn]
  have hfields : r.hide.toFields app = Fields.blank Environment.hiddenKeys (r.toFields app) := by
    simp [toFields, hide, storedValue_hiddenColumn, Fields.blank, Environment.hiddenKeys]
  rw [read, read, hmalformed, hfields]
  cases r.malformed? app <;> rfl

theorem Application.ofRow_blank (row : Fields) :
    ofRow (row.blank hiddenKeys) = (ofRow row).map hide := by
  have hname : (row.blank hiddenKeys).get? "name" = row.get? "name" := by
    simp [Fields.get?_blank, hiddenKeys]
  have hdomain : (row.blank hiddenKeys).getD "domain" = row.getD "domain" := by
    simp [Fields.getD_blank, hiddenKeys]
  have htags : (row.blank hiddenKeys).getD "tags" = row.getD "tags" := by
    simp [Fields.getD_blank, hiddenKeys]
  have haccount : (row.blank hiddenKeys).getD "account_id" = .null := by
    simp [Fields.getD_blank, hiddenKeys]
  have hversion : (row.blank hiddenKeys).getD "version" = .null := by
    simp [Fields.getD_blank, hiddenKeys]
  rw [ofRow, ofRow, hname, hdomain, htags, haccount, hversion]
  cases (row.getD "tags").tags <;> rfl

/-- The record of a row without hidden columns is that of the row, without hidden fields. -/
theorem Environment.ofRow_blank (row : Fields) :
    ofRow (row.blank hiddenKeys) = (ofRow row).hide := by
  simp [ofRow, hide, Fields.getD_blank, Fields.get?_blank, hiddenKeys]

/-! ### Databases -/

/-- The tables without their hidden columns. -/
def Tables.hide (t : Tables) : Tables where
  applications := ⟨t.applications.rows.map ApplicationRow.hide, t.applications.lastId⟩
  environments := ⟨t.environments.rows.map EnvironmentRow.hide, t.environments.lastId⟩
  workloads := t.workloads
  ids_nodup := by
    rw [List.map_map]
    exact t.ids_nodup
  names_nodup := by
    rw [List.map_map]
    exact t.names_nodup

namespace Tables

variable (t : Tables) (name : Stored)

/-- The application of a name is found by its name, which is not hidden. -/
theorem application?_hide : t.hide.application? name =
    (t.application? name).map ApplicationRow.hide := by
  rw [application?, application?, hide]
  exact List.find?_map

theorem applicationRows_hide : t.hide.applicationRows =
    t.applicationRows.map ApplicationRow.hide := by
  rw [applicationRows, applicationRows, List.map_mergeSort]
  · rfl
  · intros
    rfl

/-- The rows of a listing are found by what is not hidden. -/
theorem environmentRows_hide : t.hide.environmentRows name =
    (t.environmentRows name).map EnvironmentRow.hide := by
  rw [environmentRows, environmentRows, application?_hide]
  cases t.application? name with
  | none => rfl
  | some app =>
    -- rows are picked by the ids of their applications, and ordered by their own
    have hpicked : (t.hide.environments.rows.filter fun r => r.app = app.id) =
        (t.environments.rows.filter fun r => r.app = app.id).map EnvironmentRow.hide :=
      List.filter_map
    refine (congrArg (List.mergeSort · _) hpicked).trans (Eq.symm ?_)
    exact List.map_mergeSort fun _ _ _ _ => rfl

theorem workloadRows_hide : t.hide.workloadRows name = t.workloadRows name := by
  rw [workloadRows, workloadRows, application?_hide]
  cases t.application? name <;> rfl

end Tables

/-- The database without its hidden columns. -/
def Database.hide (d : Database) : Database := { d with tables := d.tables.hide }

/-- The content without hidden columns. -/
def Content.hide : Content → Content
  | bytes b => bytes b
  | database d => database d.hide

theorem Content.database?_hide (content : Content) :
    content.hide.database? = content.database?.map Database.hide := by
  rcases content with (_ | ⟨b, rest⟩) | d <;> rfl

/-- What a file holds as a text does not change with the tables in databases. -/
theorem Content.text_hide (content : Content) : content.hide.text = content.text := by
  cases content <;> rfl

/-- The files without hidden columns. -/
def Tree.hide (files : Files) : Files := files.map Content.hide

variable (user : User) (files : Files)

/-- Documents are read as before. -/
theorem Tree.readDocument_hide (p : Path) : files.hide.readDocument p = files.readDocument p := by
  rw [readDocument, readDocument, readText, readText, hide, content_map]
  cases files.content p with
  | error e => rfl
  | ok content =>
    dsimp only [Except.map]
    rw [Content.text_hide]

/-! ### Settings -/

namespace Settings

variable (explicit : Option String)

/-- Settings are read as before, and with them all that depends on them. -/
theorem load_hide : load user files.hide explicit = load user files explicit := by
  simp only [load, Tree.readDocument_hide]
  simp only [Tree.hide, Tree.exists?_map]

theorem fields_hide : fields user files.hide explicit = fields user files explicit := by
  rw [fields, fields, load_hide]

theorem storePath_hide : storePath user files.hide explicit = storePath user files explicit := by
  simp only [storePath, fields_hide]
  simp only [Tree.hide, Tree.resolve_map]

theorem storeTimeout_hide :
    storeTimeout user files.hide explicit = storeTimeout user files explicit := by
  rw [storeTimeout, storeTimeout, fields_hide]

theorem storeOptions_hide :
    storeOptions user files.hide explicit = storeOptions user files explicit := by
  rw [storeOptions, storeOptions, fields_hide]

end Settings

/-! ### Connections -/

namespace Connection

/-- What an action on files gives, with another result and without hidden columns. -/
def concealed {α : Type} (g : α → α) (done : Except Failure α × Files) : Except Failure α × Files :=
  (done.1.map g, done.2.hide)

variable (c : Connection) (d : Database) (explicit : Option Path) (options : OpenOptions) (p : Path)

/-- A connection is to the database without hidden columns. -/
theorem database_hide : c.database files.hide = (c.database files).map Database.hide := by
  rw [database, database]
  cases c.medium with
  | memory => rfl
  | file place =>
    dsimp only
    rw [Tree.hide, Tree.at?_map]
    rcases files.at? place with _ | _ | content | _
    · rfl
    · rfl
    · dsimp only [Option.map, Entry.map]
      rw [Content.database?_hide]
      cases content.database? <;> rfl
    · rfl

theorem putDatabase_hide :
    c.putDatabase files.hide d.hide = (c.putDatabase files d).hide := by
  rw [putDatabase, putDatabase]
  cases c.medium with
  | memory => rfl
  | file place => exact (Tree.put_map Content.hide files place (.file (.database d))).symm

/-- A database is written ahead whatever its columns hold. -/
theorem turnToWriteAhead_hide :
    c.turnToWriteAhead files.hide = (c.turnToWriteAhead files).map Tree.hide := by
  rw [turnToWriteAhead, turnToWriteAhead, database_hide]
  cases c.database files with
  | error e => rfl
  | ok d => exact congrArg Except.ok (putDatabase_hide files c { d with writesAhead := true })

theorem tables_hide : c.tables files.hide = concealed Tables.hide (c.tables files) := by
  rw [tables, tables, database_hide]
  cases c.database files with
  | error e => rfl
  | ok d => exact congrArg (Except.ok d.tables.hide, ·) (putDatabase_hide files c d)

theorem apply_hide (writeAhead foreignKeys : Bool) (milliseconds : Option Int) :
    c.apply files.hide writeAhead foreignKeys milliseconds =
      concealed id (c.apply files writeAhead foreignKeys milliseconds) := by
  rw [apply, apply, turnToWriteAhead_hide]
  cases writeAhead with
  | false => rfl
  | true =>
    -- to write ahead is kept in the database, beside the tables
    rw [if_pos rfl, if_pos rfl]
    cases c.turnToWriteAhead files <;> rfl

theorem openAt_hide : openAt files.hide p = concealed id (openAt files p) := by
  rw [openAt, openAt]
  split
  · rfl
  · rw [Tree.hide, Tree.walk_map]
    cases files.walk false p with
    | found place e => cases e <;> rfl
    | vacant place =>
      have hput := Tree.put_map Content.hide files place (.file (.bytes []))
      exact congrArg (Except.ok _, ·) hput.symm
    | failed fault => cases fault <;> rfl
    | atLink directory target rest => rfl

/-- A database opens as before: nobody looks into its tables. -/
theorem openWith_hide (switches : Switches) :
    openWith files.hide p switches = concealed id (openWith files p switches) := by
  rw [openWith, openWith, openAt_hide]
  cases switches.timeout.toBinary64 with
  | error e => rfl
  | ok x =>
    rcases openAt files p with ⟨e | medium, files⟩
    · rfl
    · dsimp only [concealed, Except.map]
      cases switches.timeout.milliseconds with
      | error e => rfl
      | ok milliseconds => exact apply_hide files _ _ _ _

theorem pathOf_hide :
    pathOf user files.hide explicit options = pathOf user files explicit options := by
  simp only [pathOf, Settings.storePath_hide]

/-- The same directories are made for a store. -/
theorem prepare_hide (mustExist : Bool) :
    prepare files.hide p mustExist = (prepare files p mustExist).map Tree.hide := by
  rw [prepare, prepare, Tree.hide, Tree.isFile?_map, Tree.ensureDirectories_map]
  split
  · rcases files.isFile? p with _ | _ | _ <;> rfl
  · rfl

theorem switchesOf_hide : switchesOf user files.hide options = switchesOf user files options := by
  simp only [switchesOf, timeoutOf, Settings.storeTimeout_hide, Settings.storeOptions_hide]

/-- A database is opened in the same way without hidden columns. -/
theorem connect_hide : connect user explicit options files.hide =
    concealed id (connect user explicit options files) := by
  rw [connect, connect, pathOf_hide]
  cases pathOf user files explicit options with
  | error e => rfl
  | ok p =>
    dsimp only
    rw [prepare_hide]
    cases prepare files p options.mustExist with
    | error e => rfl
    | ok files =>
      dsimp only [Except.map]
      rw [switchesOf_hide]
      cases switchesOf user files options with
      | error e => rfl
      | ok switches => exact openWith_hide files p switches

end Connection

/-! ### The store -/

namespace ConfigStore

open Connection (concealed)

variable (store : ConfigStore) (name : Value)

theorem tables_hide : store.tables files.hide = concealed Tables.hide (store.tables files) := by
  rw [tables, tables, Connection.connect_hide]
  rcases Connection.connect store.user store.path store.options files with ⟨e | c, files⟩
  · rfl
  · exact Connection.tables_hide files c

/-- A search gives what it gives without hidden columns, if what is read from the tables does. -/
theorem search_hide {α : Type} (g : α → α) (read : Tables → Option Stored → α)
    (hread : ∀ t found, read t.hide found = g (read t found)) :
    store.search name read files.hide = concealed g (store.search name read files) := by
  rw [search, search, tables_hide]
  rcases store.tables files with ⟨e | t, files⟩
  · rfl
  · dsimp only [concealed, Except.map]
    cases searched name with
    | error e => rfl
    | ok found => exact congrArg (Except.ok ·, _) (hread t found)

/-- A look-up gives the application without hidden fields, or fails as before. -/
theorem application_hide : store.application name files.hide =
    concealed Application.hide (store.application name files) := by
  have hsearch := search_hide files store name (Option.map ApplicationRow.hide)
    (fun t found => found.bind t.application?)
    fun t found => by cases found <;> simp [Tables.application?_hide]
  rw [application, application, hsearch]
  rcases store.search name (fun t found => found.bind t.application?) files with
    ⟨e | _ | row, files⟩
  · rfl
  · rfl
  · dsimp only [concealed, Except.map, Option.map]
    rw [ApplicationRow.read_hide]
    cases row.read with
    | error e => rfl
    | ok fields => exact congrArg (·, _) (Application.ofRow_blank fields)

theorem applications_hide : store.applications files.hide =
    concealed (List.map Application.hide) (store.applications files) := by
  rw [applications, applications, tables_hide]
  rcases store.tables files with ⟨e | t, files⟩
  · rfl
  · dsimp only [concealed, Except.map]
    rw [Tables.applicationRows_hide, mapUntilFailure_map fun row => row.read_hide]
    cases mapUntilFailure ApplicationRow.read t.applicationRows with
    | error e => rfl
    | ok rows =>
      exact congrArg (·, _)
        (mapUntilFailure_map (fun fields => Application.ofRow_blank fields) rows)

/-- A listing gives what it gives without hidden columns, if the records of its rows do. -/
theorem listing_hide {α : Type} (g : α → α)
    (rows : Tables → Stored → Except Failure (List Fields)) (ofRow : Fields → α)
    (hrows : ∀ t app, (rows t.hide app).map (List.map ofRow) =
      ((rows t app).map (List.map ofRow)).map (List.map g)) :
    store.listing name rows ofRow files.hide =
      concealed (List.map g) (store.listing name rows ofRow files) := by
  rw [listing, listing, search, search, tables_hide]
  rcases store.tables files with ⟨e | t, files⟩
  · rfl
  · dsimp only [concealed, Except.map]
    rcases searched name with e | _ | app
    · rfl
    · rfl
    · exact congrArg (·, _) (hrows t app)

/-- A listing of environments gives them without hidden fields, or fails as before. -/
theorem environments_hide : store.environments name files.hide =
    concealed (List.map Environment.hide) (store.environments name files) := by
  refine listing_hide files store name _ _ _ fun t app => ?_
  rw [Tables.environmentRows_hide, map_mapUntilFailure, map_mapUntilFailure]
  refine mapUntilFailure_map (fun row => ?_) _
  rw [EnvironmentRow.read_hide]
  cases row.read app with
  | error e => rfl
  | ok fields => exact congrArg Except.ok (Environment.ofRow_blank fields)

/-- No column of a workload is hidden. -/
theorem workloads_hide :
    store.workloads name files.hide = concealed id (store.workloads name files) := by
  rw [← List.map_id_fun]
  refine listing_hide files store name id _ _ fun t app => ?_
  rw [Tables.workloadRows_hide, List.map_id_fun, Except.map_id]
  rfl

end ConfigStore

/-- A selection depends on no more than the names of the applications. -/
theorem Selector.select_hide (listed : Except Failure (List Application))
    (promptText help : String) (entered : List (List Char)) :
    select (listed.map (List.map Application.hide)) promptText help entered =
      select listed promptText help entered := by
  rcases listed with cause | _ | ⟨app, _ | ⟨other, rest⟩⟩
  · rfl
  · rfl
  · rfl
  · -- the choices among several applications are their names
    simp only [Except.map, select, List.map_cons, List.map_map]
    rfl

/-! ### Descriptions -/

/-- The change of what the reads give when there are no hidden columns. -/
def Slot.hide : ResultChange
  | app => Application.hide
  | environments => List.map Environment.hide
  | services => id
  | pipelines => id

/-- No description depends on hidden fields. -/
theorem Findings.describe_hide (found : Findings) :
    (found.map Slot.hide).describe = found.describe := by
  -- of an application only the name and the domain are used, so the views are left
  have hviews : mapUntilFailure EnvironmentView.ofRecord (found.map Slot.hide .environments) =
      mapUntilFailure EnvironmentView.ofRecord (found .environments) := by
    have hview (e : Environment) :
        EnvironmentView.ofRecord e.hide = (EnvironmentView.ofRecord e).map id := by
      rw [Except.map_id]
      rfl
    refine (mapUntilFailure_map hview (found .environments)).trans ?_
    rw [List.map_id_fun, Except.map_id]
    rfl
  rw [describe, describe, hviews]
  rfl

/-! ### Worlds -/

namespace World

/-- The world without hidden columns. -/
def hide (w : World) : World := { w with files := w.files.hide }

variable (w : World)

theorem logAll_hide (now : Log.Context) (records : List Log.Record) :
    w.hide.logAll now records = (w.logAll now records).hide := by
  rw [logAll, logAll]
  induction records generalizing w with
  | nil => rfl
  | cons record rest ih => exact ih (w.log now record)

theorem tell_hide (cs : List Char) : w.hide.tell cs = (w.tell cs).hide := by
  rw [tell, tell]
  split <;> rfl

variable {α : Type} {g : α → α} {read : Files → Except Failure α × Files}

theorem fromStore_hide
    (hread : ∀ files : Files, read files.hide = Connection.concealed g (read files)) :
    w.hide.fromStore read = ((w.fromStore read).1.map g, (w.fromStore read).2.hide) := by
  rw [fromStore, hide, hread]
  rfl

/-- A listing and the records of its trace, of which one tells the number of what is found. -/
theorem listFromStore_hide {g : List α → List α}
    {read : Files → Except Failure (List α) × Files}
    (hread : ∀ files : Files, read files.hide = Connection.concealed g (read files))
    (hlength : ∀ found, (g found).length = found.length) (kind : String) (name : Value)
    (now : Log.Context) : w.hide.listFromStore read kind name now =
      ((w.listFromStore read kind name now).1.map g,
        (w.listFromStore read kind name now).2.hide) := by
  rw [listFromStore, listFromStore, fromStore_hide w hread]
  rcases w.fromStore read with ⟨e | found, w⟩
  · rfl
  · dsimp only [Except.map]
    rw [hlength]
    rfl

/-- The directory answers as before. -/
theorem findPipelines_hide (client : Client) (now : Log.Context) (key : String) (value : Value) :
    w.hide.findPipelines client now key value =
      ((w.findPipelines client now key value).1.map id,
        (w.findPipelines client now key value).2.hide) := by
  have hscript : w.hide.script = w.script := rfl
  rw [findPipelines, findPipelines, hscript]
  rcases client.find key value w.script with ⟨e | found, script⟩ <;> rfl

/-- The same names are offered and the same one is chosen. -/
theorem select_hide (store : ConfigStore) (now : Log.Context) (promptText help : String) :
    w.hide.select store now promptText help =
      ((w.select store now promptText help).1, (w.select store now promptText help).2.hide) := by
  rw [select, select, fromStore_hide w fun files => store.applications_hide files]
  rcases w.fromStore store.applications with ⟨listed, w⟩
  dsimp only
  rw [Selector.select_hide]
  -- the selection is the same, and what it leaves is put into either world
  have hentered (left : List (List Char)) :
      ({ w.hide with entered := left } : World) = hide { w with entered := left } := rfl
  have hleft : w.hide.entered = w.entered := rfl
  rw [hleft, hentered, tell_hide, logAll_hide]

variable (store : ConfigStore) (client : Client)

/-- All calls answer without hidden columns as they do with them, up to the fields of these columns
in what the reads give. -/
theorem commutes_hide : (around store client).Commutes hide Slot.hide where
  application now name w :=
    fromStore_hide (w.log now (ConfigStore.searchTrace name))
      fun files => store.application_hide files name
  environments now name w :=
    listFromStore_hide w (fun files => store.environments_hide files name)
      (fun _ => List.length_map _) _ name now
  services now name w :=
    listFromStore_hide w (fun files => store.workloads_hide files name) (fun _ => rfl) _ name now
  pipelines now key value w := findPipelines_hide w client now key value
  select now promptText help w := select_hide w store now promptText help
  write _ _ := rfl
  log _ _ _ := rfl
  schedule _ := rfl

/-- A way to select an application that goes by nothing in hidden columns. -/
def IsBlind (select : Log.Context → String → String → World → Except Failure Value × World) :
    Prop :=
  ∀ now promptText help w, select now promptText help (hide w) =
    ((select now promptText help w).1, (select now promptText help w).2.hide)

end World

/-! ### Runs -/

namespace Showing

/-- Runs that begin in two worlds lead to the same outcome, the same calls and the same output, and
to worlds that differ in hidden columns at most. -/
structure RunsAlike (around : Surroundings World) (begun : World → Showing World) (w w' : World) :
    Prop where
  outcome : (run around (begun w)).1 = (run around (begun w')).1
  calls : (run around (begun w)).2.session.calls = (run around (begun w')).2.session.calls
  output : (run around (begun w)).2.session.world.output =
    (run around (begun w')).2.session.world.output
  world : (run around (begun w)).2.session.world.hide =
    (run around (begun w')).2.session.world.hide

/-- Where all calls answer without hidden columns as with them, worlds that differ in these columns
at most lead to the same. -/
theorem runsAlike_of_commutes {around : Surroundings World} (h : around.Commutes .hide Slot.hide)
    (resolution : Resolution) (asJson : Bool) (calls : List Call) {w w' : World}
    (hsame : w.hide = w'.hide) :
    RunsAlike around (fun w => ⟨resolution, asJson, ⟨w, calls⟩⟩) w w' := by
  have hrun (w : World) := h.run Findings.describe_hide ⟨resolution, asJson, ⟨w, calls⟩⟩
  have hbegun : Showing.map World.hide ⟨resolution, asJson, ⟨w, calls⟩⟩ =
      Showing.map World.hide ⟨resolution, asJson, ⟨w', calls⟩⟩ := by
    simp only [Showing.map, Session.map, hsame]
  -- both runs end, without hidden columns, as the one does that begins without them
  have hends := (hrun w).symm.trans ((congrArg (run around) hbegun).trans (hrun w'))
  obtain ⟨houtcome, hshowing⟩ := Prod.ext_iff.mp hends
  exact {
    outcome := houtcome
    calls := congrArg (fun w => w.session.calls) hshowing
    output := congrArg (fun w => w.session.world.output) hshowing
    world := congrArg (fun w => w.session.world) hshowing }

/-- Two worlds that differ at most in what can be read of the account and the version of
applications and of the registry and the roles of environments lead to the same outcome and the same
output, whatever is to be shown and in which form, whatever the directory answers, and however a
name is selected. -/
theorem run_hidden (store : ConfigStore) (client : Client) (resolution : Resolution)
    (asJson : Bool) (calls : List Call) {w w' : World} (h : w.hide = w'.hide) :
    RunsAlike (World.around store client) (fun w => ⟨resolution, asJson, ⟨w, calls⟩⟩) w w' ∧
    ∀ select, World.IsBlind select → RunsAlike { World.around store client with select }
      (fun w => ⟨resolution, asJson, ⟨w, calls⟩⟩) w w' := by
  have hcommutes := World.commutes_hide store client
  refine ⟨runsAlike_of_commutes hcommutes resolution asJson calls h, fun select hselect => ?_⟩
  have hother : { World.around store client with select }.Commutes .hide Slot.hide :=
    { hcommutes with select := hselect }
  exact runsAlike_of_commutes hother resolution asJson calls h

/-- An application and an environment whose hidden columns hold something. -/
def oneEnvironment (s : Option Stored) : Tables where
  applications := ⟨[⟨1, .text "my-app", s, none, s, none⟩], 1⟩
  environments := ⟨[⟨1, 1, .text "test", none, none, .integer 1, s, s, s⟩], 1⟩
  workloads := .empty
  ids_nodup := List.pairwise_singleton _ _
  names_nodup := List.pairwise_singleton _ _

/-- A world with these tables in its only file. -/
def worldHiding (s : Option Stored) : World where
  files := ⟨[(["store.db"], .file (.database ⟨false, oneEnvironment s⟩))], []⟩
  script := ⟨[.reply 200 none none (Text.encode "\x7b\"pipelines\": []\x7d".toList)], []⟩
  registry := .empty
  entered := []
  output := ""
  messages := []

/-- The store in this file. -/
def onlyStore : ConfigStore where
  user := ⟨"/root", [], none⟩
  path := some ⟨.top, ["store.db"]⟩
  options := ⟨some (.whole 1), some true, some true, false, none⟩

/-- A selection of a single application that asks nobody. -/
def selectFixed (_ : Log.Context) (_ _ : String) (w : World) : Except Failure Value × World :=
  (.ok (.text "my-app"), w)

theorem run_hidden_worldHiding :
    let around := World.around onlyStore (.ofUrl "http://p.test" (.int 1) (.int 50))
    let begun : World → Showing World := fun w => ⟨.unresolved, true, ⟨w, []⟩⟩
    let bytes : Stored := .bytes [0]
    ((worldHiding (some bytes)).hide = (worldHiding none).hide ∧ World.IsBlind selectFixed) ∧
      RunsAlike around begun (worldHiding (some bytes)) (worldHiding none) ∧
      RunsAlike { around with select := selectFixed } begun (worldHiding (some bytes))
        (worldHiding none) ∧
      (run around (begun (worldHiding none))).1.isOk = true := by
  intro around begun bytes
  have hsame : (worldHiding (some bytes)).hide = (worldHiding none).hide := rfl
  have hblind : World.IsBlind selectFixed := fun _ _ _ _ => rfl
  have halike := run_hidden onlyStore (.ofUrl "http://p.test" (.int 1) (.int 50)) .unresolved true
    [] hsame
  exact ⟨⟨hsame, hblind⟩, halike.1, halike.2 selectFixed hblind, by decide +kernel⟩

/-- The tables `oneEnvironment none`, in which the version of the application is a text that is not
UTF-8. -/
def malformedVersion : Tables :=
  { oneEnvironment none with
    applications :=
      ⟨[⟨1, .text "my-app", none, none, some (.malformed [0xff] decode?_ff), none⟩], 1⟩
    ids_nodup := List.pairwise_singleton _ _
    names_nodup := List.pairwise_singleton _ _ }

/-- The world `worldHiding none` with these tables. -/
def worldMalformed : World :=
  { worldHiding none with
    files := ⟨[(["store.db"], .file (.database ⟨false, malformedVersion⟩))], []⟩ }

/-- With this text in a hidden column there is a failure in place of the report that there is
without it. -/
theorem run_malformedVersion :
    let around := World.around onlyStore (.ofUrl "http://p.test" (.int 1) (.int 50))
    let begun : World → Showing World := fun w => ⟨.supplied (.text "my-app"), true, ⟨w, []⟩⟩
    (run around (begun (worldHiding none))).1.isOk = true ∧
      (run around (begun worldMalformed)).1.isOk = false := by
  decide +kernel

end Showing

end AppReport
