import AppReport.Settings

/-!
# Relative and absolute paths of the settings

A relative path leads from the directory where one is to the same place as the absolute path that
goes through this directory (`Tree.walk_fromCurrent`, `Tree.resolve_fromCurrent`). So the document
of settings is the same for both, and a path of the store that it names is the same too. The default
path of the store is not: it lies beside the document for the absolute spelling, but for the
relative one the directory of the document is entered a second time
(`Settings.storePath_spellings`).
-/

namespace AppReport

open Text

namespace Path

/-- The characters of a path other than slashes and dots are those of its names. -/
theorem mem_text_iff {c : Char} (hslash : c ≠ '/') (hdot : c ≠ '.') (p : Path) :
    c ∈ p.text.toList ↔ ∃ name ∈ p.names, c ∈ name.toList := by
  have hanchor : c ∉ p.anchor.text.toList := by
    cases p.anchor <;> simp [Anchor.text, hslash]
  have hjoined : c ∈ (p.anchor.text ++ "/".intercalate p.names).toList ↔
      ∃ name ∈ p.names, c ∈ name.toList := by
    rw [String.toList_append, List.mem_append, or_iff_right hanchor, toList_intercalate_names,
      mem_joinWith_iff hslash]
    constructor
    · rintro ⟨piece, hpiece, hmem⟩
      obtain ⟨name, hname, rfl⟩ := List.mem_map.mp hpiece
      exact ⟨name, hname, hmem⟩
    · rintro ⟨name, hname, hmem⟩
      exact ⟨name.toList, List.mem_map_of_mem hname, hmem⟩
  rw [text]
  by_cases hempty : p.anchor.text ++ "/".intercalate p.names = ""
  · rw [if_pos hempty, ← hjoined, hempty]
    simp [hdot]
  · rw [if_neg hempty, hjoined]

/-- A path of which all names begin with the directory where one is takes no more room than the path
through this directory. -/
theorem utf8ByteSize_text_le (place names : List String) :
    (text ⟨.here, names⟩).utf8ByteSize ≤ (text ⟨.top, place ++ names⟩).utf8ByteSize := by
  have htop : text ⟨.top, place ++ names⟩ = "/" ++ "/".intercalate (place ++ names) := by
    rw [text, if_neg]
    · rfl
    · intro h
      have := congrArg String.utf8ByteSize h
      simp [Anchor.text, String.utf8ByteSize_append] at this
  -- a path that is empty is written as a dot, so that the names are compared first
  have hjoined : ("/".intercalate names).utf8ByteSize ≤
      ("/".intercalate (place ++ names)).utf8ByteSize := by
    by_cases hplace : place = []
    · subst hplace
      exact Nat.le_refl _
    by_cases hnames : names = []
    · rw [hnames]
      exact Nat.zero_le _
    · rw [String.intercalate_append_of_ne_nil hplace hnames, String.utf8ByteSize_append]
      omega
  rw [htop, String.utf8ByteSize_append, text]
  by_cases hempty : Anchor.here.text ++ "/".intercalate names = ""
  · rw [if_pos hempty]
    exact Nat.le_add_right 1 _
  · rw [if_neg hempty]
    show ("" ++ "/".intercalate names).utf8ByteSize ≤ _
    rw [String.empty_append]
    omega

end Path

namespace Tree

variable {α : Type} {t : Tree α}

/-! ### The directory where one is -/

/-- The directory where one is exists, and its place is a row of proper names through
directories. -/
structure Settled (t : Tree α) : Prop where
  directory : ∀ place, place <+: t.current → t.at? place = some .directory
  name : ∀ name ∈ t.current, Path.IsName name ∧ name ≠ ".." ∧ '\x00' ∉ name.toList ∧
    name.utf8ByteSize ≤ maxName

theorem Settled.of_single {name : String} (hcurrent : t.current = [name])
    (hat : t.at? [name] = some .directory)
    (hname : Path.IsName name ∧ name ≠ ".." ∧ '\x00' ∉ name.toList ∧
      name.utf8ByteSize ≤ maxName) : t.Settled where
  directory place hplace := by
    obtain rfl | rfl : place = [] ∨ place = [name] := by
      simpa [hcurrent, List.prefix_cons_iff] using hplace
    · rfl
    · exact hat
  name other hother := by
    rw [hcurrent, List.mem_singleton] at hother
    exact hother ▸ hname

/-- A relative path as it is seen from the root. -/
def fromCurrent (t : Tree α) (p : Path) : Path := (⟨.top, t.current⟩ : Path).join p

theorem fromCurrent_eq (t : Tree α) {p : Path} (h : p.anchor = .here) :
    t.fromCurrent p = ⟨.top, t.current ++ p.names⟩ := by
  simp [fromCurrent, Path.join, Path.isAbsolute, h]

/-- A name that leads on into a directory. -/
structure LeadsOn (t : Tree α) (directory : Place) (name : String) : Prop where
  here : t.isDirectoryAt directory = true
  there : t.at? (directory ++ [name]) = some .directory
  ordinary : ¬ (name = "" ∨ name = ".")
  forward : name ≠ ".."
  short : ¬ maxName < name.utf8ByteSize

theorem Settled.leadsOn (h : t.Settled) {before after : Place} {name : String}
    (hcurrent : t.current = before ++ name :: after) : t.LeadsOn before name := by
  have hplace : before ++ [name] <+: t.current := ⟨after, by simp [hcurrent]⟩
  obtain ⟨⟨hempty, hdot, -⟩, hforward, -, hshort⟩ := h.name name (by simp [hcurrent])
  have hhere : t.at? before = some .directory :=
    h.directory before ((List.prefix_append before [name]).trans hplace)
  exact {
    here := by rw [isDirectoryAt, hhere]
    there := h.directory _ hplace
    ordinary := by simp [hempty, hdot]
    forward := hforward
    short := Nat.not_lt.mpr hshort }

theorem walkNames_leadsOn {directory : Place} {name : String} (h : t.LeadsOn directory name)
    (last : Bool) (rest : List String) :
    t.walkNames last directory (name :: rest) =
      t.walkNames last (directory ++ [name]) rest := by
  rw [walkNames, h.here, Bool.not_true, if_neg Bool.false_ne_true, if_neg h.ordinary,
    if_neg h.forward, if_neg h.short, h.there]

theorem resolveNames_leadsOn {directory : Place} {name : String} (h : t.LeadsOn directory name)
    (depth : Nat) (within : List Place) (rest : List String) :
    t.resolveNames depth within directory (name :: rest) =
      t.resolveNames depth within (directory ++ [name]) rest := by
  rw [resolveNames, if_neg h.ordinary, if_neg h.forward]
  simp only [h.there]

/-- What takes the names of the directory where one is one by one comes to this directory. -/
theorem Settled.skip {β : Type} (h : t.Settled) (step : Place → List String → β)
    (hstep : ∀ {directory name}, t.LeadsOn directory name → ∀ rest,
      step directory (name :: rest) = step (directory ++ [name]) rest)
    (names : List String) : step [] (t.current ++ names) = step t.current names := by
  suffices hfrom : ∀ after before : Place, t.current = before ++ after →
        step before (after ++ names) = step t.current names from hfrom t.current [] rfl
  -- the induction is on the names of the directory that are still ahead
  intro after
  induction after with
  | nil =>
    intro before hcurrent
    rw [List.append_nil] at hcurrent
    rw [hcurrent, List.nil_append]
  | cons name after ih =>
    intro before hcurrent
    rw [List.cons_append, hstep (h.leadsOn hcurrent)]
    exact ih (before ++ [name]) (by simp [hcurrent])

theorem walkLinks_fromCurrent (h : t.Settled) (last : Bool) (links : Nat) (names : List String) :
    t.walkLinks last links [] (t.current ++ names) = t.walkLinks last links t.current names := by
  rw [walkLinks, walkLinks, h.skip (t.walkNames last)
    fun hleads rest => walkNames_leadsOn hleads last rest]

theorem contains_fromCurrent (h : t.Settled) {p : Path} (hp : p.anchor = .here) :
    (t.fromCurrent p).text.toList.contains '\x00' = p.text.toList.contains '\x00' := by
  rw [Bool.eq_iff_iff, List.contains_iff_mem, List.contains_iff_mem,
    Path.mem_text_iff (by decide) (by decide), Path.mem_text_iff (by decide) (by decide),
    t.fromCurrent_eq hp]
  constructor
  · rintro ⟨name, hname, hmem⟩
    rcases List.mem_append.mp hname with hname | hname
    · exact absurd hmem (h.name name hname).2.2.1
    · exact ⟨name, hname, hmem⟩
  · rintro ⟨name, hname, hmem⟩
    exact ⟨name, List.mem_append_right _ hname, hmem⟩

/-- A walk along a relative path ends where the walk along the absolute one ends. -/
theorem walk_fromCurrent (h : t.Settled) {p : Path} (hp : p.anchor = .here)
    (hsize : (t.fromCurrent p).text.utf8ByteSize ≤ maxPath) (last : Bool) :
    t.walk last (t.fromCurrent p) = t.walk last p := by
  have hless := Path.utf8ByteSize_text_le t.current p.names
  have hpath : (⟨.here, p.names⟩ : Path) = p := by rw [← hp]
  rw [hpath, ← t.fromCurrent_eq hp] at hless
  rw [walk, walk, contains_fromCurrent h hp, if_neg (by omega : ¬ maxPath < p.text.utf8ByteSize),
    if_neg (Nat.not_lt.mpr hsize)]
  congr 1
  have hstart : t.startAt p = t.current := by simp [startAt, Path.isAbsolute, hp]
  rw [hstart, t.fromCurrent_eq hp]
  exact walkLinks_fromCurrent h last maxLinks p.names

/-- A relative path denotes the same place as the absolute one. -/
theorem resolve_fromCurrent (h : t.Settled) {p : Path} (hp : p.anchor = .here) :
    t.resolve (t.fromCurrent p) = t.resolve p := by
  have hstart : t.startAt p = t.current := by simp [startAt, Path.isAbsolute, hp]
  have hplace : t.resolveNames t.entries.length [] [] (t.current ++ p.names) =
      t.resolveNames t.entries.length [] t.current p.names :=
    h.skip (t.resolveNames t.entries.length [])
      (fun hleads rest => resolveNames_leadsOn hleads _ _ rest) p.names
  rw [resolve, resolve, contains_fromCurrent h hp, hstart]
  split
  · rfl
  · have htop : t.startAt (t.fromCurrent p) = [] := by
      rw [t.fromCurrent_eq hp]
      rfl
    rw [htop, t.fromCurrent_eq hp]
    simp only [hplace]

/-- What exists at a relative path exists at the absolute one. -/
theorem find_fromCurrent (h : t.Settled) {p : Path} (hp : p.anchor = .here)
    (hsize : (t.fromCurrent p).text.utf8ByteSize ≤ maxPath) :
    t.find (t.fromCurrent p) = t.find p := by
  rw [find, find, walk_fromCurrent h hp hsize]

theorem exists?_of_find {p p' : Path} (hfind : t.find p' = t.find p) {b : Bool}
    (h : t.exists? p = .ok b) : t.exists? p' = .ok b := by
  rw [exists?] at h ⊢
  rw [hfind]
  split at h
  · exact h
  · cases h
  · exact h

theorem content_of_find {p p' : Path} (hfind : t.find p' = t.find p) {content : α}
    (h : t.content p = .ok content) : t.content p' = .ok content := by
  rw [Tree.content] at h ⊢
  rw [hfind]
  split at h
  · exact h
  · cases h
  · cases h

/-- The directory where one is, seen from itself, is a directory. -/
theorem find_here (h : t.Settled) {p : Path} (hp : p.anchor = .here) (hnames : p.names = []) :
    t.find p = .ok (t.current, .directory) := by
  obtain ⟨anchor, names⟩ := p
  subst hp hnames
  have hfound : t.walkNames false t.current [] = .found t.current .directory := by
    rw [walkNames, h.directory t.current (List.prefix_refl _)]
  have hwalk : t.walk false ⟨.here, []⟩ = .found t.current .directory := by
    rw [walk, if_neg (by decide), if_neg (by decide)]
    show t.walkLinks false maxLinks t.current [] = _
    rw [walkLinks, hfound]
  rw [find, hwalk]

end Tree

namespace Settings

/-- A path that is seen from the directory where one is: it begins neither at the root nor at the
home of a user. -/
def IsRelative (p : Path) : Prop :=
  p.anchor = .here ∧ ∀ name ∈ p.names.head?, name.toList.head? ≠ some '~'

instance (p : Path) : Decidable (IsRelative p) :=
  inferInstanceAs (Decidable (_ ∧ ∀ name ∈ p.names.head?, name.toList.head? ≠ some '~'))

/-- The path of the store that settings name, if they do. -/
def namedStore? (settings : Fields) : Option Value := (sectionOf settings "paths").get? "store_path"

/-- The path of the store that a text names in a document of settings in a directory. -/
def storeAt (user : User) (files : Files) (directory : Path) (text : String) :
    Except Failure Path :=
  match (Path.ofText text).expandHome user.homes with
  | .error e => .error e
  | .ok p => if p.isAbsolute then .ok p else files.resolve (directory.join p)

variable {user : User} {files : Files}

theorem expandHome_of_isRelative {p : Path} (h : IsRelative p) (homes : Path.Homes) :
    p.expandHome homes = .ok p := by
  rw [Path.expandHome]
  split
  · rename_i first rest _ hnames
    split
    · -- the first name would be that of a home
      rename_i hfirst
      exact absurd (by rw [hfirst]; rfl) (h.2 first (by rw [hnames]; rfl))
    · rfl
  · rfl

theorem expandHome_of_top (names : List String) (homes : Path.Homes) :
    (⟨.top, names⟩ : Path).expandHome homes = .ok ⟨.top, names⟩ := rfl

/-- The text of the absolute path denotes it. -/
theorem ofText_fromCurrent (h : files.Settled) (s : String) :
    Path.ofText (files.fromCurrent (.ofText s)).text = files.fromCurrent (.ofText s) := by
  refine Path.ofText_text fun name hname => ?_
  by_cases hs : (Path.ofText s).isAbsolute = true
  · rw [Tree.fromCurrent, Path.join_of_isAbsolute hs] at hname
    exact Path.isName_of_mem_ofText hname
  · rw [Tree.fromCurrent, Path.join, if_neg hs] at hname
    rcases List.mem_append.mp hname with hname | hname
    · exact (h.name name hname).1
    · exact Path.isName_of_mem_ofText hname

theorem path_fromCurrent (user : User) (h : files.Settled) {s : String}
    (hs : IsRelative (.ofText s)) :
    path user (some (files.fromCurrent (.ofText s)).text) =
      .ok (files.fromCurrent (.ofText s)) := by
  rw [path, ofText_fromCurrent h, files.fromCurrent_eq hs.1, expandHome_of_top]

theorem readDocument_of_find {p p' : Path} (hfind : files.find p' = files.find p) {v : Value}
    (h : files.readDocument p = .ok v) : files.readDocument p' = .ok v := by
  rw [Tree.readDocument, Tree.readText] at h ⊢
  cases hcontent : files.content p with
  | error f =>
    rw [hcontent] at h
    cases h
  | ok content =>
    rw [hcontent] at h
    rw [Tree.content_of_find hfind hcontent]
    exact h

/-- Where settings are read from a relative path, they are read from the absolute one. -/
theorem load_fromCurrent (h : files.Settled) {s : String} (hs : IsRelative (.ofText s))
    (hsize : (files.fromCurrent (.ofText s)).text.utf8ByteSize ≤ Tree.maxPath) {v : Value}
    (hload : load user files (some s) = .ok v) :
    load user files (some (files.fromCurrent (.ofText s)).text) = .ok v := by
  have hfind := Tree.find_fromCurrent h hs.1 hsize
  have habsolute := path_fromCurrent user h hs
  have hrelative : path user (some s) = .ok (.ofText s) := expandHome_of_isRelative hs _
  rw [load, hrelative] at hload
  rw [load, habsolute]
  dsimp only at hload ⊢
  split at hload
  · cases hload
  · rename_i hexists
    rw [Tree.exists?_of_find hfind hexists]
    exact hload
  · rename_i hexists
    rw [Tree.exists?_of_find hfind hexists]
    exact readDocument_of_find hfind hload

/-- The document is not the directory where one is. -/
theorem names_ne_nil_of_load (h : files.Settled) {s : String} (hs : IsRelative (.ofText s))
    {v : Value} (hload : load user files (some s) = .ok v) : (Path.ofText s).names ≠ [] := by
  intro hnames
  have hrelative : path user (some s) = .ok (.ofText s) := expandHome_of_isRelative hs _
  have hfind := Tree.find_here h hs.1 hnames
  have hexists : files.exists? (.ofText s) = .ok true := by rw [Tree.exists?, hfind]
  have hcontent : files.content (.ofText s) =
      .error (FileFault.isDirectory.failure (.ofText s)) := by
    rw [Tree.content, hfind]
  rw [load, hrelative] at hload
  dsimp only at hload
  rw [hexists] at hload
  dsimp only at hload
  rw [Tree.readDocument, Tree.readText, hcontent] at hload
  cases hload

/-! ### The path of the store -/

theorem storePath_of_named {explicit : Option String} {document : Path} {settings : Fields}
    {text : String} (hload : load user files explicit = .ok (.object settings))
    (hpath : path user explicit = .ok document)
    (hnamed : namedStore? settings = some (.text text)) :
    storePath user files explicit = storeAt user files document.parent text := by
  have hfields : fields user files explicit = .ok settings := by
    rw [fields, hload]
    rfl
  have htext : storeText document.parent (sectionOf settings "paths") = .ok (.ofText text) := by
    rw [storeText, ← namedStore?, hnamed]
  rw [storePath, hfields, hpath]
  dsimp only
  rw [htext]
  rfl

theorem storePath_of_unnamed {explicit : Option String} {document : Path} {settings : Fields}
    (hload : load user files explicit = .ok (.object settings))
    (hpath : path user explicit = .ok document) (hnamed : namedStore? settings = none)
    (hhome : (document.parent.child "store.db").expandHome user.homes =
      .ok (document.parent.child "store.db")) :
    storePath user files explicit =
      if document.isAbsolute then .ok (document.parent.child "store.db")
      else files.resolve (document.parent.join (document.parent.child "store.db")) := by
  have hfields : fields user files explicit = .ok settings := by
    rw [fields, hload]
    rfl
  have htext : storeText document.parent (sectionOf settings "paths") =
      .ok (document.parent.child "store.db") := by
    rw [storeText, ← namedStore?, hnamed]
  rw [storePath, hfields, hpath]
  dsimp only
  rw [htext]
  dsimp only
  rw [hhome]
  rfl

/-- What is seen from the directory of a relative path is seen from the directory of the absolute
one. -/
theorem resolve_join_parent (h : files.Settled) {document : Path}
    (hdocument : document.anchor = .here) (hnames : document.names ≠ []) {p : Path}
    (hp : ¬ p.isAbsolute = true) :
    files.resolve ((files.fromCurrent document).parent.join p) =
      files.resolve (document.parent.join p) := by
  have hrelative : (document.parent.join p).anchor = .here := by
    rw [Path.join, if_neg hp]
    exact hdocument
  rw [← Tree.resolve_fromCurrent h hrelative, files.fromCurrent_eq hrelative,
    files.fromCurrent_eq hdocument]
  simp [Path.join, Path.parent, hp, List.dropLast_append_of_ne_nil hnames]

theorem isRelative_store {document : Path} (h : IsRelative document) :
    IsRelative (document.parent.child "store.db") := by
  refine ⟨h.1, fun name hname => ?_⟩
  obtain ⟨anchor, names⟩ := document
  rcases names with _ | ⟨first, _ | ⟨second, rest⟩⟩
  · cases hname
    decide
  · cases hname
    decide
  · cases hname
    exact h.2 _ rfl

/-- Let settings be read from a relative path, and let the absolute path through the directory where
one is be no longer than paths can be. A path of the store that the settings name is then the same
for both: seen from the directory of the document, unless it is absolute. Without one, the absolute
path gives `store.db` in this directory, but the relative one leads through the directory once more,
which makes no difference where the document lies in the directory where one is. -/
theorem storePath_spellings (user : User) (files : Files) (h : files.Settled) (s : String)
    (hs : IsRelative (.ofText s))
    (hsize : (files.fromCurrent (.ofText s)).text.utf8ByteSize ≤ Tree.maxPath)
    (settings : Fields) (hload : load user files (some s) = .ok (.object settings)) :
    (∀ text, namedStore? settings = some (.text text) →
      storePath user files (some s) =
        storeAt user files (files.fromCurrent (.ofText s)).parent text ∧
      storePath user files (some (files.fromCurrent (.ofText s)).text) =
        storeAt user files (files.fromCurrent (.ofText s)).parent text) ∧
    (namedStore? settings = none →
      storePath user files (some (files.fromCurrent (.ofText s)).text) =
        .ok ((files.fromCurrent (.ofText s)).parent.child "store.db") ∧
      storePath user files (some s) = files.resolve
        (((files.fromCurrent (.ofText s)).parent.join (Path.ofText s).parent).child "store.db") ∧
      ((Path.ofText s).parent.names = [] → storePath user files (some s) =
        files.resolve ((files.fromCurrent (.ofText s)).parent.child "store.db"))) := by
  have hrelative : path user (some s) = .ok (.ofText s) := expandHome_of_isRelative hs _
  have habsolute := path_fromCurrent user h hs
  have hloadAbsolute := load_fromCurrent h hs hsize hload
  have hnames := names_ne_nil_of_load h hs hload
  constructor
  · -- a path that is named is seen from the directory of the document, and both lead there
    intro text hnamed
    refine ⟨?_, storePath_of_named hloadAbsolute habsolute hnamed⟩
    rw [storePath_of_named hload hrelative hnamed, storeAt, storeAt]
    cases (Path.ofText text).expandHome user.homes with
    | error e => rfl
    | ok p =>
      dsimp only
      by_cases hp : p.isAbsolute = true
      · rw [if_pos hp, if_pos hp]
      · rw [if_neg hp, if_neg hp, resolve_join_parent h hs.1 hnames hp]
  · -- the default has this directory in it, so that a relative one is entered twice
    intro hnamed
    have hstore := isRelative_store hs
    have hhere : ¬ (Path.ofText s).isAbsolute = true := by simp [Path.isAbsolute, hs.1]
    have hparent : ¬ (Path.ofText s).parent.isAbsolute = true := hhere
    have hchild : ¬ ((Path.ofText s).parent.child "store.db").isAbsolute = true := hhere
    have htwice : storePath user files (some s) = files.resolve
        (((files.fromCurrent (.ofText s)).parent.join (Path.ofText s).parent).child
          "store.db") := by
      rw [storePath_of_unnamed hload hrelative hnamed (expandHome_of_isRelative hstore _),
        if_neg hhere, ← resolve_join_parent h hs.1 hnames hchild, Path.join_child hparent]
    refine ⟨?_, htwice, fun hroot => ?_⟩
    · rw [storePath_of_unnamed hloadAbsolute habsolute hnamed, if_pos]
      · rw [files.fromCurrent_eq hs.1]
        rfl
      · rw [files.fromCurrent_eq hs.1]
        rfl
    · -- a document that lies where one is has a directory without names
      rw [htwice, Path.join, if_neg hparent, hroot, List.append_nil]

/-- A user in a directory of their own. -/
def workingUser : User := ⟨"/root", [], none⟩

/-- A directory with settings in a directory below it, which name a store. -/
def workingFiles : Files where
  entries := [(["work"], .directory), (["work", "conf"], .directory),
    (["work", "conf", "config.json"], .file (.bytes (encode
      "\x7b\"paths\": \x7b\"store_path\": \"data/../apps.db\"\x7d\x7d".toList)))]
  current := ["work"]

/-- What these settings are. -/
def workingSettings : Fields := [("paths", .object [("store_path", .text "data/../apps.db")])]

theorem storePath_spellings_working :
    workingFiles.Settled ∧ IsRelative (.ofText "conf//config.json") ∧
    (workingFiles.fromCurrent (.ofText "conf//config.json")).text.utf8ByteSize ≤ Tree.maxPath ∧
    load workingUser workingFiles (some "conf//config.json") = .ok (.object workingSettings) ∧
    (∀ text, namedStore? workingSettings = some (.text text) →
      storePath workingUser workingFiles (some "conf//config.json") =
        storeAt workingUser workingFiles
          (workingFiles.fromCurrent (.ofText "conf//config.json")).parent text ∧
      storePath workingUser workingFiles
          (some (workingFiles.fromCurrent (.ofText "conf//config.json")).text) =
        storeAt workingUser workingFiles
          (workingFiles.fromCurrent (.ofText "conf//config.json")).parent text) ∧
    (namedStore? workingSettings = none →
      storePath workingUser workingFiles
          (some (workingFiles.fromCurrent (.ofText "conf//config.json")).text) =
        .ok ((workingFiles.fromCurrent (.ofText "conf//config.json")).parent.child "store.db") ∧
      storePath workingUser workingFiles (some "conf//config.json") = workingFiles.resolve
        (((workingFiles.fromCurrent (.ofText "conf//config.json")).parent.join
          (Path.ofText "conf//config.json").parent).child "store.db") ∧
      ((Path.ofText "conf//config.json").parent.names = [] →
        storePath workingUser workingFiles (some "conf//config.json") = workingFiles.resolve
          ((workingFiles.fromCurrent (.ofText "conf//config.json")).parent.child "store.db"))) := by
  have hsettled : workingFiles.Settled :=
    Tree.Settled.of_single rfl rfl (by decide)
  have hsize : (workingFiles.fromCurrent (.ofText "conf//config.json")).text.utf8ByteSize ≤
      Tree.maxPath := by decide +kernel
  have hload : load workingUser workingFiles (some "conf//config.json") =
      .ok (.object workingSettings) := rfl
  exact ⟨hsettled, by decide, hsize, hload, storePath_spellings workingUser workingFiles hsettled
    "conf//config.json" (by decide) hsize workingSettings hload⟩

/-- The same directory without anything in it. -/
def emptyDirectory : Files := ⟨[(["work"], .directory)], ["work"]⟩

/-- Settings that name no store put it into different directories, as they are found at a relative
or at an absolute path. -/
theorem storePath_depends_on_spelling :
    emptyDirectory.Settled ∧ IsRelative (.ofText "conf/config.json") ∧
    (emptyDirectory.fromCurrent (.ofText "conf/config.json")).text = "/work/conf/config.json" ∧
    load workingUser emptyDirectory (some "conf/config.json") = .ok (.object []) ∧
    storePath workingUser emptyDirectory (some "conf/config.json") =
      .ok ⟨.top, ["work", "conf", "conf", "store.db"]⟩ ∧
    storePath workingUser emptyDirectory (some "/work/conf/config.json") =
      .ok ⟨.top, ["work", "conf", "store.db"]⟩ := by
  have hplace : emptyDirectory.resolveNames emptyDirectory.entries.length []
      (emptyDirectory.startAt ⟨.here, ["conf", "conf", "store.db"]⟩) ["conf", "conf", "store.db"] =
        (["work", "conf", "conf", "store.db"], true) := by
    simp [Tree.resolveNames, emptyDirectory, Tree.at?, List.lookup_cons, Tree.startAt,
      Path.isAbsolute]
  have hresolve : emptyDirectory.resolve ⟨.here, ["conf", "conf", "store.db"]⟩ =
      .ok ⟨.top, ["work", "conf", "conf", "store.db"]⟩ := by
    rw [Tree.resolve, if_neg (by decide)]
    dsimp only
    rw [hplace]
    rfl
  refine ⟨Tree.Settled.of_single rfl rfl (by decide), by decide, by decide +kernel, rfl, ?_, rfl⟩
  rw [storePath_of_unnamed rfl rfl rfl rfl]
  exact hresolve

end Settings

end AppReport
