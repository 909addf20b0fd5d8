import AppReport.Proofs.Visited
import AppReport.Workspace
import Mathlib.Data.List.Induction

/-!
# The nearest workspace

The search for a workspace looks at one path after the other, from the place where it starts up to
the root, and what it finds first counts (`Workspace.search_eq_iff`). So the file of the nearest
workspace is that of the deepest directory where such a file is, followed through links, and there
is none exactly where there is none in any of these directories (`Workspace.file?_nearest`).
Directories below the start or beside the way up make no difference.

A path may also be one that cannot be looked at, since a name on its way, which may be that of a
link, is too long. The search does not pass over such a path: it fails there, although no file is
found at it (`Workspace.file?_longLink`).
-/

namespace AppReport.Workspace

open Text

/-- The file of the workspace in the directory at a place. -/
def fileAt (place : Place) : Path := fileIn ⟨.top, place⟩

variable {files : Files}

/-! ### One path -/

/-- A path leads to a file, through links or without. -/
def LeadsToFile (files : Files) (p : Path) : Prop :=
  ∃ place content, files.find p = .ok (place, .file content)

/-- A path that cannot be looked at. -/
def IsTooLong (files : Files) (p : Path) : Prop := files.find p = .error .nameTooLong

/-- A path that the search leaves behind: it can be looked at, and it leads to no file. -/
def IsPassed (files : Files) (p : Path) : Prop := ¬ LeadsToFile files p ∧ ¬ IsTooLong files p

/-- What is found at a path. -/
def look (files : Files) (p : Path) : Except Failure (Option Path) :=
  match files.isFile? p with
  | .error e => .error e
  | .ok true => .ok (some p)
  | .ok false => .ok none

theorem look_of_leadsToFile {p : Path} (h : LeadsToFile files p) :
    look files p = .ok (some p) := by
  obtain ⟨place, content, hfind⟩ := h
  rw [look, Tree.isFile?, hfind]

theorem look_of_isTooLong {p : Path} (h : IsTooLong files p) :
    look files p = .error (FileFault.nameTooLong.failure p) := by
  rw [look, Tree.isFile?, h]

theorem look_of_isPassed {p : Path} (h : IsPassed files p) : look files p = .ok none := by
  have hfile : files.isFile? p = .ok false := by
    unfold Tree.isFile?
    split
    · rename_i place content hfind
      exact absurd ⟨place, content, hfind⟩ h.1
    · rename_i hfind
      exact absurd hfind h.2
    · rfl
  rw [look, hfile]

/-- A path leads to a file, cannot be looked at, or is left behind. -/
theorem look_cases (files : Files) (p : Path) :
    LeadsToFile files p ∨ IsTooLong files p ∨ IsPassed files p := by
  by_cases hfile : LeadsToFile files p
  · exact Or.inl hfile
  by_cases hlong : IsTooLong files p
  · exact Or.inr (Or.inl hlong)
  · exact Or.inr (Or.inr ⟨hfile, hlong⟩)

/-- What is found at a path, and when. -/
theorem look_eq_iff {p : Path} {r : Except Failure (Option Path)} : look files p = r ↔
    LeadsToFile files p ∧ r = .ok (some p) ∨
    IsTooLong files p ∧ r = .error (FileFault.nameTooLong.failure p) ∨
    IsPassed files p ∧ r = .ok none := by
  constructor
  · rintro rfl
    rcases look_cases files p with hfile | hlong | hpassed
    · exact Or.inl ⟨hfile, look_of_leadsToFile hfile⟩
    · exact Or.inr (Or.inl ⟨hlong, look_of_isTooLong hlong⟩)
    · exact Or.inr (Or.inr ⟨hpassed, look_of_isPassed hpassed⟩)
  · rintro (⟨hfile, rfl⟩ | ⟨hlong, rfl⟩ | ⟨hpassed, rfl⟩)
    · exact look_of_leadsToFile hfile
    · exact look_of_isTooLong hlong
    · exact look_of_isPassed hpassed

theorem look_eq_some_iff {p q : Path} :
    look files p = .ok (some q) ↔ LeadsToFile files p ∧ q = p := by
  simp [look_eq_iff]

theorem look_eq_error_iff {p : Path} {e : Failure} :
    look files p = .error e ↔ IsTooLong files p ∧ e = FileFault.nameTooLong.failure p := by
  simp [look_eq_iff]

theorem look_eq_none_iff {p : Path} : look files p = .ok none ↔ IsPassed files p := by
  simp [look_eq_iff]

/-! ### The way up -/

/-- What is found at or above a place. -/
def search (files : Files) (place : Place) : Except Failure (Option Path) :=
  firstFile files ((above place.reverse).map fileIn)

theorem firstFile_cons (files : Files) (p : Path) (rest : List Path) :
    firstFile files (p :: rest) =
      match look files p with
      | .ok none => firstFile files rest
      | found => found := by
  rw [firstFile, look]
  cases files.isFile? p with
  | error e => rfl
  | ok b => cases b <;> rfl

theorem search_nil (files : Files) : search files [] = look files (fileAt []) := by
  show firstFile files [fileAt []] = look files (fileAt [])
  rw [firstFile_cons]
  split
  · rename_i h
    rw [h]
    rfl
  · rfl

theorem search_concat (files : Files) (place : Place) (name : String) :
    search files (place ++ [name]) =
      match look files (fileAt (place ++ [name])) with
      | .ok none => search files place
      | found => found := by
  have habove : above (place ++ [name]).reverse =
      ⟨.top, place ++ [name]⟩ :: above place.reverse := by
    rw [List.reverse_append, List.reverse_singleton, List.singleton_append, above,
      List.reverse_cons, List.reverse_reverse]
  rw [search, habove, List.map_cons, firstFile_cons]
  rfl

theorem file?_eq_search {start p : Path} (h : files.resolve start = .ok p) :
    file? files start = search files p.names := by
  rw [file?, h]
  rfl

/-- A place at or above the start of the search, where all that comes before it is left behind. -/
structure IsReached (files : Files) (start place : Place) : Prop where
  above : place <+: start
  passed : ∀ nearer, place <+: nearer → nearer <+: start → nearer ≠ place →
    IsPassed files (fileAt nearer)

theorem isReached_self (files : Files) (start : Place) : IsReached files start start where
  above := List.prefix_refl _
  passed _ hbelow habove hne :=
    absurd (habove.eq_of_length_le hbelow.length_le) hne

/-- From one name further down, one more path is left behind. -/
theorem isReached_concat_iff {start place : Place} {name : String} :
    IsReached files (start ++ [name]) place ↔
      place = start ++ [name] ∨
        IsReached files start place ∧ IsPassed files (fileAt (start ++ [name])) := by
  constructor
  · rintro ⟨habove, hpassed⟩
    rcases List.prefix_concat_iff.mp habove with rfl | habove
    · exact Or.inl rfl
    · have hbelow : place <+: start ++ [name] := habove.trans (List.prefix_append _ _)
      have hne : start ++ [name] ≠ place := by
        rintro rfl
        have hlength := habove.length_le
        rw [List.length_append, List.length_singleton] at hlength
        omega
      refine Or.inr ⟨⟨habove, fun nearer hfrom hto => ?_⟩, ?_⟩
      · exact hpassed nearer hfrom (hto.trans (List.prefix_append _ _))
      · exact hpassed (start ++ [name]) hbelow (List.prefix_refl _) hne
  · rintro (rfl | ⟨⟨habove, hpassed⟩, hlast⟩)
    · exact isReached_self files _
    · refine ⟨habove.trans (List.prefix_append _ _), fun nearer hfrom hto hne => ?_⟩
      rcases List.prefix_concat_iff.mp hto with rfl | hto
      · exact hlast
      · exact hpassed nearer hfrom hto hne

/-- What the search finds is what is found at a path that it reaches. -/
theorem search_eq_iff {r : Except Failure (Option Path)} (hr : r ≠ .ok none) (start : Place) :
    search files start = r ↔
      ∃ place, IsReached files start place ∧ look files (fileAt place) = r := by
  induction start using List.reverseRecOn with
  | nil =>
    rw [search_nil]
    constructor
    · exact fun h => ⟨[], isReached_self files [], h⟩
    · rintro ⟨place, hreached, h⟩
      rw [List.prefix_nil.mp hreached.above] at h
      exact h
  | append_singleton start name ih =>
    rw [search_concat]
    rcases Classical.em (look files (fileAt (start ++ [name])) = .ok none) with hnone | hsome
    · -- the path is left behind, and the search goes on above it
      have hpassed := look_eq_none_iff.mp hnone
      rw [hnone]
      refine ih.trans ⟨?_, ?_⟩
      · rintro ⟨place, hreached, h⟩
        exact ⟨place, isReached_concat_iff.mpr (Or.inr ⟨hreached, hpassed⟩), h⟩
      · rintro ⟨place, hreached, h⟩
        rcases isReached_concat_iff.mp hreached with rfl | ⟨hreached, -⟩
        · exact absurd (h.symm.trans hnone) hr
        · exact ⟨place, hreached, h⟩
    · -- the search ends here
      have hends : (match look files (fileAt (start ++ [name])) with
          | .ok none => search files start
          | found => found) = look files (fileAt (start ++ [name])) := by
        split
        · rename_i hnone
          exact absurd hnone hsome
        · rfl
      rw [hends]
      constructor
      · exact fun h => ⟨start ++ [name], isReached_self files _, h⟩
      · rintro ⟨place, hreached, h⟩
        rcases isReached_concat_iff.mp hreached with rfl | ⟨-, hpassed⟩
        · exact h
        · exact absurd (look_of_isPassed hpassed) hsome

/-- Nothing is found exactly if all paths up to the root are left behind. -/
theorem search_eq_none_iff (start : Place) :
    search files start = .ok none ↔ ∀ place, place <+: start → IsPassed files (fileAt place) := by
  -- from the root down, since the search goes up from the last name
  induction start using List.reverseRecOn with
  | nil =>
    rw [search_nil, look_eq_none_iff]
    constructor
    · intro h place habove
      rwa [List.prefix_nil.mp habove]
    · exact fun h => h [] List.nil_prefix
  | append_singleton start name ih =>
    rw [search_concat]
    constructor
    · intro h place habove
      split at h
      · rename_i hnone
        rcases List.prefix_concat_iff.mp habove with rfl | habove
        · exact look_eq_none_iff.mp hnone
        · exact ih.mp h place habove
      · rename_i hsome
        exact absurd h hsome
    · intro h
      rw [look_of_isPassed (h _ (List.prefix_refl _))]
      exact ih.mpr fun place habove => h place (habove.trans (List.prefix_append _ _))

/-! ### What the search depends on -/

theorem look_congr {files' : Files} {p : Path} (h : files'.find p = files.find p) :
    look files' p = look files p := by
  rw [look, look, Tree.isFile?, Tree.isFile?, h]

/-- The search depends on what the paths lead to, and on nothing else. -/
theorem search_congr {files' : Files} {start : Place}
    (h : ∀ place, place <+: start → files'.find (fileAt place) = files.find (fileAt place)) :
    search files' start = search files start := by
  induction start using List.reverseRecOn with
  | nil => rw [search_nil, search_nil, look_congr (h [] List.nil_prefix)]
  | append_singleton start name ih =>
    have hrest : search files' start = search files start :=
      ih fun place habove => h place (habove.trans (List.prefix_append _ _))
    rw [search_concat, search_concat, look_congr (h _ (List.prefix_refl _)), hrest]

theorem isForward_fileNames {place : Place} (h : Tree.IsForward place) :
    Tree.IsForward (place ++ fileNames) :=
  h.append (by unfold Tree.IsForward; decide)

/-- Two trees in which the search looks at the same things. -/
theorem file?_congr {files' : Files} {start start' p : Path} (h : files.resolve start = .ok p)
    (h' : files'.resolve start' = .ok p)
    (hsame : ∀ place, place <+: p.names → ∀ other ∈ files.visited (fileAt place),
      files'.at? other = files.at? other) : file? files' start' = file? files start := by
  rw [file?_eq_search h, file?_eq_search h']
  exact search_congr fun place habove => Tree.find_congr rfl (hsame place habove)

/-- The search from a path that can be resolved. It finds the file of the deepest directory, from
the start up to the root, where there is one, if it can look at all paths before it; it finds none
exactly if there is none in any of these directories and all paths can be looked at; and it fails
exactly at a path that cannot be looked at, before any file. So from every start below a directory
where it ends the same is found, as long as it comes that far. And it depends on nothing but what
stands at the places that the walks to these files come to: where no links stand on the way, these
are the places on the way down to each of the files, and not those beside or below them. -/
theorem file?_nearest (files : Files) (start p : Path) (h : files.resolve start = .ok p) :
    (∀ q, file? files start = .ok (some q) ↔
      ∃ place, IsReached files p.names place ∧ LeadsToFile files (fileAt place) ∧
        q = fileAt place) ∧
    (file? files start = .ok none ↔
      ∀ place, place <+: p.names → IsPassed files (fileAt place)) ∧
    (∀ e, file? files start = .error e ↔
      ∃ place, IsReached files p.names place ∧ IsTooLong files (fileAt place) ∧
        e = FileFault.nameTooLong.failure (fileAt place)) ∧
    (∀ start' p' place, files.resolve start' = .ok p' →
      IsReached files p.names place → IsReached files p'.names place →
      ¬ IsPassed files (fileAt place) → file? files start' = file? files start) ∧
    (∀ files' start', files'.resolve start' = .ok p →
      (∀ place, place <+: p.names → ∀ other ∈ files.visited (fileAt place),
        files'.at? other = files.at? other) →
      file? files' start' = file? files start) ∧
    (Tree.IsForward files.current →
      (∀ place, place <+: p.names → ∀ other, other <+: place ++ fileNames →
        ∀ target, files.at? other ≠ some (.link target)) →
      ∀ files' start', files'.resolve start' = .ok p →
        (∀ place, place <+: p.names → ∀ other, other <+: place ++ fileNames →
          files'.at? other = files.at? other) →
        file? files' start' = file? files start) := by
  have hsearch := file?_eq_search h
  refine ⟨fun q => ?_, ?_, fun e => ?_, ?_, fun files' start' h' => file?_congr h h', ?_⟩
  · have hfound : (.ok (some q) : Except Failure (Option Path)) ≠ .ok none := by simp
    rw [hsearch, search_eq_iff hfound]
    simp only [look_eq_some_iff]
  · rw [hsearch, search_eq_none_iff]
  · have hfailed : (.error e : Except Failure (Option Path)) ≠ .ok none := by simp
    rw [hsearch, search_eq_iff hfailed]
    simp only [look_eq_error_iff]
  · -- both searches end with what is found at the same path
    intro start' p' place h' hreached hreached' hends
    have hr : look files (fileAt place) ≠ .ok none := fun hnone => hends (look_eq_none_iff.mp hnone)
    rw [hsearch, file?_eq_search h', (search_eq_iff hr _).mpr ⟨place, hreached, rfl⟩,
      (search_eq_iff hr _).mpr ⟨place, hreached', rfl⟩]
  · intro hcurrent hlinks files' start' h' hsame
    obtain ⟨-, hforward⟩ := Tree.isForward_resolve hcurrent h
    refine file?_congr h h' fun place habove other hother => hsame place habove other ?_
    have hplace : Tree.IsForward place := fun name hname => hforward name (habove.subset hname)
    exact Tree.prefix_of_mem_visited (isForward_fileNames hplace) (hlinks place habove) hother

/-- A workspace, with a directory below it in which a directory stands in place of the file, and a
link that leads there. -/
def nestedFiles : Files where
  entries := [(["work"], .directory), (["work", ".appatlas"], .directory),
    (["work", ".appatlas", "workspace.json"], .file (.bytes [])),
    (["work", "deep"], .directory), (["work", "deep", ".appatlas"], .directory),
    (["work", "deep", ".appatlas", "workspace.json"], .directory),
    (["here"], .link "work/deep")]
  current := []

theorem resolve_nestedFiles :
    nestedFiles.resolve ⟨.here, ["here"]⟩ = .ok ⟨.top, ["work", "deep"]⟩ := by
  have hpieces : Tree.piecesOf "work/deep" = ["work", "deep"] := by decide
  have hplace : nestedFiles.resolveNames nestedFiles.entries.length []
      (nestedFiles.startAt ⟨.here, ["here"]⟩) ["here"] = (["work", "deep"], true) := by
    simp [Tree.resolveNames, nestedFiles, Tree.at?, List.lookup_cons, Tree.startAt,
      Path.isAbsolute, Tree.startOf, hpieces]
  rw [Tree.resolve, if_neg (by decide)]
  dsimp only
  rw [hplace]
  rfl

theorem file?_nearest_nestedFiles :
    nestedFiles.resolve ⟨.here, ["here"]⟩ = .ok ⟨.top, ["work", "deep"]⟩ ∧
    LeadsToFile nestedFiles (fileAt ["work"]) ∧
    file? nestedFiles ⟨.here, ["here"]⟩ = .ok (some (fileAt ["work"])) := by
  have hfile : LeadsToFile nestedFiles (fileAt ["work"]) := ⟨_, _, rfl⟩
  -- the directory in place of the file is left behind
  have hpassed : IsPassed nestedFiles (fileAt ["work", "deep"]) := look_eq_none_iff.mp rfl
  have hreached : IsReached nestedFiles (["work"] ++ ["deep"]) ["work"] :=
    isReached_concat_iff.mpr (Or.inr ⟨isReached_self _ _, hpassed⟩)
  exact ⟨resolve_nestedFiles, hfile,
    ((file?_nearest nestedFiles _ _ resolve_nestedFiles).1 _).mpr ⟨_, hreached, hfile, rfl⟩⟩

/-- The path of no names is the current directory, unless its links go round. -/
theorem resolve_here (h : files.find ⟨.top, files.current⟩ ≠ .error .tooManyLinks) :
    files.resolve ⟨.here, []⟩ = .ok ⟨.top, files.current⟩ := by
  rw [Tree.resolve, if_neg (by decide), Tree.resolveNames]
  dsimp only
  split
  · rename_i hfind
    exact absurd hfind h
  · rfl

/-- A text without slashes is one piece. -/
theorem piecesOf_of_not_mem {text : String} (h : '/' ∉ text.toList) :
    Tree.piecesOf text = [text] := by
  rw [Tree.piecesOf, splitOn_of_not_mem h, List.map_singleton, String.ofList_toList]

/-- A link to a text without slashes goes on from its own directory. -/
theorem startOf_of_not_mem {text : String} (h : '/' ∉ text.toList) (directory : Place) :
    Tree.startOf directory text = directory := by
  unfold Tree.startOf
  split
  · rename_i rest htext
    rw [htext] at h
    exact absurd List.mem_cons_self h
  · rfl

/-- A name that is too long by one letter. -/
def longName : String := String.ofList (List.replicate 256 'a')

/-- A directory with a link to this name, in place of the directory of a workspace. -/
def longLink : Files where
  entries := [(["work"], .directory), (["work", ".appatlas"], .link longName)]
  current := ["work"]

theorem isTooLong_longLink : IsTooLong longLink (fileAt ["work"]) := by
  have hletters : '/' ∉ longName.toList := by
    have htext : longName.toList = List.replicate 256 'a' := String.toList_ofList
    intro hmem
    rw [htext] at hmem
    exact absurd (List.eq_of_mem_replicate hmem) (by decide)
  have hsame : ¬ (longName = "" ∨ longName = ".") := by decide +kernel
  have hup : longName ≠ ".." := by decide +kernel
  have hsize : Tree.maxName < longName.utf8ByteSize := by decide +kernel
  -- the link is followed once, and then its name is refused
  have hfirst : longLink.walkNames false [] ["work", ".appatlas", "workspace.json"] =
      .atLink ["work"] longName ["workspace.json"] := rfl
  have hdirectory : (!longLink.isDirectoryAt ["work"]) = false := rfl
  have hsecond : longLink.walkNames false ["work"] [longName, "workspace.json"] =
      .failed .nameTooLong := by
    rw [Tree.walkNames, hdirectory, if_neg Bool.false_ne_true, if_neg hsame, if_neg hup,
      if_pos hsize]
  have hlinks : longLink.walkLinks false Tree.maxLinks []
      ["work", ".appatlas", "workspace.json"] = .failed .nameTooLong := by
    rw [Tree.maxLinks, Tree.walkLinks, hfirst]
    dsimp only
    rw [startOf_of_not_mem hletters, piecesOf_of_not_mem hletters, List.singleton_append,
      Tree.walkLinks, hsecond]
  have hwalk : longLink.walk false (fileAt ["work"]) = .failed .nameTooLong := by
    rw [Tree.walk, if_neg (by decide +kernel), if_neg (by decide +kernel)]
    exact hlinks
  rw [IsTooLong, Tree.find, hwalk]

/-- No file is found in the directory or above it, and yet the search fails. -/
theorem file?_longLink :
    longLink.resolve ⟨.here, []⟩ = .ok ⟨.top, ["work"]⟩ ∧
    (∀ place, place <+: ["work"] → ¬ LeadsToFile longLink (fileAt place)) ∧
    file? longLink ⟨.here, []⟩ = .error (FileFault.nameTooLong.failure (fileAt ["work"])) := by
  have hresolve : longLink.resolve ⟨.here, []⟩ = .ok ⟨.top, ["work"]⟩ := resolve_here nofun
  refine ⟨hresolve, ?_, ?_⟩
  · intro place habove hfile
    have habove : place <+: [] ++ ["work"] := habove
    rcases List.prefix_concat_iff.mp habove with rfl | habove
    · obtain ⟨_, _, hfind⟩ := hfile
      rw [List.nil_append, isTooLong_longLink] at hfind
      cases hfind
    · rw [List.prefix_nil.mp habove] at hfile
      obtain ⟨_, _, hfind⟩ := hfile
      cases hfind
  · -- the search does not come past the first path
    have hfails := look_of_isTooLong isTooLong_longLink
    have hfound : look longLink (fileAt ["work"]) ≠ .ok none := by
      rw [hfails]
      exact nofun
    rw [file?_eq_search hresolve]
    exact (search_eq_iff (hfails ▸ hfound) ["work"]).mpr
      ⟨["work"], isReached_self longLink ["work"], hfails⟩

end AppReport.Workspace
