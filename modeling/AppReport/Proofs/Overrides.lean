import AppReport.Proofs.Contents
import AppReport.Proofs.Spelling

/-!
# Options over settings

An option of a command takes the place of a setting. What the setting of the address is makes no
difference then. The path of the store that is set is worked out all the same, before the option is
looked at: settings for which this succeeds, or fails in the same way, are alike, but where it fails
the command does, whatever the option is (`Settings.build_overridden`). It fails for every value
that is no text (`Settings.storePath_of_other`).

A setting is read from a section, and the other sections do not depend on it
(`Settings.DifferOnlyIn`). The document is read from a file, and a path is resolved without regard
to what the files hold (`Tree.resolve_map`).
-/

namespace AppReport

/-- Rows of fields that agree on every name but one. -/
def Fields.AgreeBut (key : String) (fields fields' : Fields) : Prop :=
  ∀ other, other ≠ key → fields.get? other = fields'.get? other

namespace Settings

open Number Text

/-- Documents that differ in one setting of a section at most. -/
structure DifferOnlyIn (part key : String) (settings settings' : Fields) : Prop where
  outside : settings.AgreeBut part settings'
  inside : (sectionOf settings part).AgreeBut key (sectionOf settings' part)

variable {user : User} {files files' : Files} {config : Option String}
  {settings settings' : Fields}

/-! ### Sections -/

theorem sectionOf_congr {part : String} (h : settings.AgreeBut part settings') {name : String}
    (hname : name ≠ part) : sectionOf settings name = sectionOf settings' name := by
  rw [sectionOf, sectionOf, Fields.getD, Fields.getD, h name hname]

theorem numberOf_congr {α : Type} {key : String} (h : settings.AgreeBut key settings')
    (convert : Value → Except Failure α) {name : String} (hname : name ≠ key) (default : α) :
    numberOf convert settings name default = numberOf convert settings' name default := by
  rw [numberOf, numberOf, h name hname]

theorem fields_of_load (hload : load user files config = .ok (.object settings)) :
    fields user files config = .ok settings := by
  rw [fields, hload]
  rfl

/-- Settings are found at a path. -/
theorem exists_path_of_load {v : Value} (hload : load user files config = .ok v) :
    ∃ document, path user config = .ok document := by
  cases hpath : path user config with
  | ok document => exact ⟨document, rfl⟩
  | error e =>
    rw [load, hpath] at hload
    cases hload

/-! ### What a setting does not reach -/

section Readings

variable (hload : load user files config = .ok (.object settings))
  (hload' : load user files' config = .ok (.object settings'))

include hload hload'

/-- Where the sections agree, the path of the store is the same. -/
theorem storePath_congr (hshape : files.map (fun _ => ()) = files'.map fun _ => ())
    (hpaths : sectionOf settings "paths" = sectionOf settings' "paths") :
    storePath user files config = storePath user files' config := by
  have hresolve (p : Path) : files.resolve p = files'.resolve p := by
    rw [← Tree.resolve_map (fun _ => ()) files, hshape, Tree.resolve_map]
  rw [storePath, storePath, fields_of_load hload, fields_of_load hload']
  simp only [hpaths, hresolve]

theorem directory_congr
    (hpart : sectionOf settings "pipeline_directory" = sectionOf settings' "pipeline_directory") :
    directory user files config = directory user files' config := by
  rw [directory, directory, fields_of_load hload, fields_of_load hload']
  simp only [hpart]

theorem storeTimeout_congr {part : String} (h : settings.AgreeBut part settings')
    (hpart : "db_timeout_seconds" ≠ part) :
    storeTimeout user files config = storeTimeout user files' config := by
  rw [storeTimeout, storeTimeout, fields_of_load hload, fields_of_load hload']
  exact numberOf_congr h _ hpart _

theorem storeOptions_congr (hpart : sectionOf settings "db" = sectionOf settings' "db") :
    storeOptions user files config = storeOptions user files' config := by
  rw [storeOptions, storeOptions, fields_of_load hload, fields_of_load hload']
  simp only [hpart]

/-- The address is the only part of the directory that its setting gives. -/
theorem directory_withAddress
    (h : (sectionOf settings "pipeline_directory").AgreeBut "base_url"
      (sectionOf settings' "pipeline_directory")) (url : String) :
    ((directory user files config).map fun d => { d with baseUrl := url }) =
      (directory user files' config).map fun d => { d with baseUrl := url } := by
  rw [directory, directory, fields_of_load hload, fields_of_load hload']
  dsimp only
  rw [numberOf_congr h _ (by decide), numberOf_congr h Value.toInteger (by decide)]
  cases numberOf Value.toBinary64 (sectionOf settings' "pipeline_directory") "timeout_seconds"
    defaultDirectory.timeout with
  | error e => rfl
  | ok timeout =>
    dsimp only
    cases numberOf Value.toInteger (sectionOf settings' "pipeline_directory") "page_size"
      defaultDirectory.pageSize <;> rfl

end Readings

/-! ### The path of the store -/

/-- A value that is no text is no path. -/
theorem storePath_of_other (hload : load user files config = .ok (.object settings)) {v : Value}
    (hnamed : namedStore? settings = some v) (hv : ∀ text, v ≠ .text text) :
    storePath user files config = .error (.of .typeMismatch
      ("expected str, bytes or os.PathLike object, not " ++ v.kindName)) := by
  obtain ⟨document, hpath⟩ := exists_path_of_load hload
  have htext : storeText document.parent (sectionOf settings "paths") = .error (.of .typeMismatch
      ("expected str, bytes or os.PathLike object, not " ++ v.kindName)) := by
    rw [storeText, ← namedStore?, hnamed]
    cases v with
    | text s => exact absurd rfl (hv s)
    | _ => rfl
  rw [storePath, fields_of_load hload, hpath]
  dsimp only
  rw [htext]

/-! ### Options -/

open CommandSettings

/-- What a command works with, put together from the settings one after the other. -/
theorem build_eq (user : User) (files : Files) (store url config : Option String) :
    build user files store url config =
      (storePath user files config).bind fun configured =>
      (storeOf user store configured).bind fun store =>
      ((directory user files config).map fun d =>
        { d with baseUrl := url.getD d.baseUrl }).bind fun directory =>
      (storeTimeout user files config).bind fun storeTimeout =>
      (storeOptions user files config).bind fun storeOptions =>
      (configOf user config).bind fun config =>
        .ok { store, storeTimeout, storeOptions, config, directory } := by
  rw [build]
  cases storePath user files config with
  | error f => rfl
  | ok configured =>
    cases hstore : storeOf user store configured with
    | error f => simp only [bind, Except.bind, hstore]
    | ok store =>
      cases hdirectory : directory user files config with
      | error f => simp only [bind, Except.bind, hstore, Except.map]
      | ok d => simp only [bind, Except.bind, hstore, Except.map]; rfl

theorem build_of_storePath_eq_error {f : Failure} (h : storePath user files config = .error f)
    (store url : Option String) : build user files store url config = .error f := by
  rw [build, h]
  rfl

/-- Settings of two documents with the same options. An explicit address hides the setting of the
address. An explicit path of the store hides the setting of the path as far as it can be worked
out; if it cannot, this is the failure of the command, with an explicit path or without, and it
cannot for a value that is no text. -/
theorem build_overridden (user : User) (files files' : Files) (config : Option String)
    (settings settings' : Fields) (hload : load user files config = .ok (.object settings))
    (hload' : load user files' config = .ok (.object settings')) :
    (DifferOnlyIn "pipeline_directory" "base_url" settings settings' →
      files.map (fun _ => ()) = files'.map (fun _ => ()) → ∀ store url,
      build user files store (some url) config = build user files' store (some url) config) ∧
    (DifferOnlyIn "paths" "store_path" settings settings' →
      (∀ f, storePath user files config = .error f ↔ storePath user files' config = .error f) →
      ∀ store url,
      build user files (some store) url config = build user files' (some store) url config) ∧
    (∀ f, storePath user files config = .error f → ∀ store url,
      build user files store url config = .error f) ∧
    (∀ v, namedStore? settings = some v → (∀ text, v ≠ .text text) → ∀ store url,
      build user files store url config = .error (.of .typeMismatch
        ("expected str, bytes or os.PathLike object, not " ++ v.kindName))) := by
  refine ⟨?_, ?_, fun f => build_of_storePath_eq_error, fun v hnamed hv =>
    build_of_storePath_eq_error (storePath_of_other hload hnamed hv)⟩
  · intro hdiffer hshape store url
    have hpaths : sectionOf settings "paths" = sectionOf settings' "paths" :=
      sectionOf_congr hdiffer.outside (by decide)
    have hdb : sectionOf settings "db" = sectionOf settings' "db" :=
      sectionOf_congr hdiffer.outside (by decide)
    have hdirectory := directory_withAddress hload hload' hdiffer.inside url
    rw [build_eq, build_eq, storePath_congr hload hload' hshape hpaths,
      storeTimeout_congr hload hload' hdiffer.outside (by decide),
      storeOptions_congr hload hload' hdb]
    simp only [Option.getD_some, hdirectory]
  · intro hdiffer hfails store url
    have hdb : sectionOf settings "db" = sectionOf settings' "db" :=
      sectionOf_congr hdiffer.outside (by decide)
    have hpart : sectionOf settings "pipeline_directory" =
        sectionOf settings' "pipeline_directory" := sectionOf_congr hdiffer.outside (by decide)
    rw [build_eq, build_eq, directory_congr hload hload' hpart,
      storeTimeout_congr hload hload' hdiffer.outside (by decide),
      storeOptions_congr hload hload' hdb]
    cases hconfigured : storePath user files config with
    | error f => rw [(hfails f).mp hconfigured]
    | ok configured =>
      -- which path has been worked out does not matter any more
      cases hconfigured' : storePath user files' config with
      | error f => cases ((hfails f).mpr hconfigured').symm.trans hconfigured
      | ok configured' => rfl

/-- A directory with a document of settings. -/
def documentFiles (document : String) : Files where
  entries := [(["work"], .directory), (["work", "c.json"], .file (.bytes (encode document.toList)))]
  current := ["work"]

/-- A document in which nothing is set. -/
def unset : Files := documentFiles "\x7b\x7d"

/-- A document in which the address is no text. -/
def numberedAddress : Files :=
  documentFiles "\x7b\"pipeline_directory\": \x7b\"base_url\": 7\x7d\x7d"

/-- A document in which the path of the store is no text. -/
def numberedStore : Files := documentFiles "\x7b\"paths\": \x7b\"store_path\": 7\x7d\x7d"

theorem build_overridden_numberedAddress :
    load workingUser numberedAddress (some "/work/c.json") =
      .ok (.object [("pipeline_directory", .object [("base_url", .int 7)])]) ∧
    load workingUser unset (some "/work/c.json") = .ok (.object []) ∧
    build workingUser numberedAddress none (some "http://other:8080") (some "/work/c.json") =
      build workingUser unset none (some "http://other:8080") (some "/work/c.json") := by
  have hload : load workingUser numberedAddress (some "/work/c.json") =
      .ok (.object [("pipeline_directory", .object [("base_url", .int 7)])]) := rfl
  have hload' : load workingUser unset (some "/work/c.json") = .ok (.object []) := rfl
  have hdiffer : DifferOnlyIn "pipeline_directory" "base_url"
      [("pipeline_directory", .object [("base_url", .int 7)])] [] := by
    constructor
    · intro other hother
      simp [Fields.get?, hother]
    · intro other hother
      simp [sectionOf, Fields.getD, Fields.get?, hother]
  exact ⟨hload, hload', (build_overridden workingUser _ _ _ _ _ hload hload').1 hdiffer rfl none
    "http://other:8080"⟩

/-- With a setting of the path of the store that is no text, a command with an explicit path fails;
without the setting, it does not. -/
theorem build_depends_on_storePath :
    load workingUser numberedStore (some "/work/c.json") =
      .ok (.object [("paths", .object [("store_path", .int 7)])]) ∧
    load workingUser unset (some "/work/c.json") = .ok (.object []) ∧
    DifferOnlyIn "paths" "store_path" [("paths", .object [("store_path", .int 7)])] [] ∧
    build workingUser numberedStore (some "/x/other.db") none (some "/work/c.json") =
      .error (.of .typeMismatch "expected str, bytes or os.PathLike object, not int") ∧
    ∃ c, build workingUser unset (some "/x/other.db") none (some "/work/c.json") = .ok c ∧
      c.store = ⟨.top, ["x", "other.db"]⟩ := by
  refine ⟨rfl, rfl, ⟨?_, ?_⟩, rfl, _, rfl, rfl⟩
  · intro other hother
    simp [Fields.get?, hother]
  · intro other hother
    simp [sectionOf, Fields.getD, Fields.get?, hother]

end Settings

end AppReport
