import AppReport.Files.Tree

/-!
# Trees and the contents of their files

What is done with a tree does not depend on what its files hold. `Tree.map` gives every file another
content, and whatever is done with the tree can be done before or after that: a walk comes to the
same place (`Tree.walk_map`), a path resolves to the same one (`Tree.resolve_map`), and the same
directories are made (`Tree.ensureDirectories_map`). Only reading a file gives its content
(`Tree.content_map`).
-/

namespace AppReport

variable {α β : Type}

/-- The entry with another content. -/
def Entry.map (f : α → β) : Entry α → Entry β
  | directory => directory
  | file content => file (f content)
  | link target => link target

namespace Tree

/-- The tree with other contents. -/
def map (f : α → β) (t : Tree α) : Tree β :=
  ⟨t.entries.map fun (place, e) => (place, e.map f), t.current⟩

/-- The end of a walk with another content. -/
def Stop.map (f : α → β) : Stop α → Stop β
  | found place e => found place (e.map f)
  | vacant place => vacant place
  | failed fault => failed fault
  | atLink directory target rest => atLink directory target rest

variable (f : α → β) (t : Tree α)

/-- At a place there is the same entry with another content. -/
theorem at?_map (place : Place) : (t.map f).at? place = (t.at? place).map (Entry.map f) := by
  cases place with
  | nil => rfl
  | cons name names =>
    obtain ⟨entries, current⟩ := t
    simp only [at?, map]
    induction entries with
    | nil => rfl
    | cons entry rest ih =>
      obtain ⟨other, e⟩ := entry
      rw [List.map_cons, List.lookup_cons, List.lookup_cons, ih]
      cases name :: names == other <;> rfl

/-- The same places are directories. -/
theorem isDirectoryAt_map (place : Place) :
    (t.map f).isDirectoryAt place = t.isDirectoryAt place := by
  rw [isDirectoryAt, isDirectoryAt, at?_map]
  rcases t.at? place with _ | _ | _ | _ <;> rfl

/-- An entry that is put into the tree gets its other content there. -/
theorem put_map (place : Place) (e : Entry α) :
    (t.put place e).map f = (t.map f).put place (e.map f) := by
  simp only [put, map, List.map_cons, List.filter_map]
  rfl

/-! ### Walking -/

/-- Along names without links a walk ends at the same place. -/
theorem walkNames_map (last : Bool) (directory : Place) (names : List String) :
    (t.map f).walkNames last directory names = (t.walkNames last directory names).map f := by
  induction names generalizing directory with
  | nil =>
    rw [walkNames, walkNames, at?_map]
    cases t.at? directory <;> rfl
  | cons name rest ih =>
    rw [walkNames, walkNames, isDirectoryAt_map, at?_map, ih, ih, ih]
    -- both walks ask the same questions at the name, so that the branches are those of one `if`
    simp only [apply_ite (Stop.map f)]
    rcases t.at? (directory ++ [name]) with _ | _ | _ | target
    · simp only [Option.map_none, apply_ite (Stop.map f)]
      rfl
    · rfl
    · rfl
    · simp only [Option.map_some, Entry.map, apply_ite (Stop.map f)]
      rfl

theorem walkLinks_map (last : Bool) (links : Nat) (directory : Place) (names : List String) :
    (t.map f).walkLinks last links directory names =
      (t.walkLinks last links directory names).map f := by
  induction links generalizing directory names with
  | zero =>
    rw [walkLinks, walkLinks, walkNames_map]
    cases t.walkNames last directory names <;> rfl
  | succ links ih =>
    rw [walkLinks, walkLinks, walkNames_map]
    cases t.walkNames last directory names with
    | atLink directory target rest => exact ih _ _
    | _ => rfl

/-- A walk comes to the same place, or fails in the same way. -/
theorem walk_map (last : Bool) (p : Path) : (t.map f).walk last p = (t.walk last p).map f := by
  rw [walk, walk, walkLinks_map]
  simp only [apply_ite (Stop.map f)]
  rfl

/-- The same entry is found, with another content. -/
theorem find_map (p : Path) :
    (t.map f).find p = (t.find p).map fun (place, e) => (place, e.map f) := by
  rw [find, find, walk_map]
  cases t.walk false p <;> rfl

theorem exists?_map (p : Path) : (t.map f).exists? p = t.exists? p := by
  rw [exists?, exists?, find_map]
  rcases t.find p with fault | ⟨place, e⟩
  · cases fault <;> rfl
  · rfl

/-- The same paths are those of files. -/
theorem isFile?_map (p : Path) : (t.map f).isFile? p = t.isFile? p := by
  rw [isFile?, isFile?, find_map]
  rcases t.find p with fault | ⟨place, e⟩
  · cases fault <;> rfl
  · cases e <;> rfl

/-- What is read of a file is its other content. -/
theorem content_map (p : Path) : (t.map f).content p = (t.content p).map f := by
  rw [content, content, find_map]
  rcases t.find p with fault | ⟨place, e⟩
  · rfl
  · cases e <;> rfl

/-! ### Resolving -/

/-- There are links at the same places. -/
theorem at?_map_eq_link_iff {place : Place} {target : String} :
    (t.map f).at? place = some (.link target) ↔ t.at? place = some (.link target) := by
  rw [at?_map]
  rcases t.at? place with _ | _ | _ | other <;> simp [Entry.map]

/-- Names resolve to the same place: it is only links that are looked at on the way. -/
theorem resolveNames_map (depth : Nat) (within : List Place) (directory : Place)
    (names : List String) :
    (t.map f).resolveNames depth within directory names =
      t.resolveNames depth within directory names := by
  fun_induction t.resolveNames depth within directory names with
  | case1 => rw [resolveNames]
  | case2 depth within directory name rest hdot ih => rw [resolveNames, if_pos hdot, ih]
  | case3 depth within directory rest hdot ih =>
    rw [resolveNames, if_neg hdot, if_pos rfl, ih]
  | case4 within directory name rest hdot hup place target depth hlink hwithin =>
    rw [resolveNames, if_neg hdot, if_neg hup]
    dsimp only
    rw [(at?_map_eq_link_iff f t).mpr hlink]
    exact if_pos hwithin
  | case5 within directory name rest hdot hup place target depth hlink hwithin there hthere ih
      ihrest =>
    rw [resolveNames, if_neg hdot, if_neg hup]
    dsimp only
    rw [(at?_map_eq_link_iff f t).mpr hlink]
    dsimp only
    rw [if_neg hwithin, ih, hthere]
    exact ihrest
  | case6 within directory name rest hdot hup place target depth hlink hwithin there hthere ih =>
    rw [resolveNames, if_neg hdot, if_neg hup]
    dsimp only
    rw [(at?_map_eq_link_iff f t).mpr hlink]
    dsimp only
    rw [if_neg hwithin, ih, hthere]
  | case7 within directory name rest hdot hup place target hlink =>
    rw [resolveNames, if_neg hdot, if_neg hup]
    dsimp only
    rw [(at?_map_eq_link_iff f t).mpr hlink]
  | case8 within directory name rest hdot hup place depth hdeep hflat ih =>
    rw [resolveNames, if_neg hdot, if_neg hup]
    dsimp only
    split
    · rename_i target depth hlink
      -- a link here would be one in the tree as it was, where there is none
      exact (hdeep target depth ((at?_map_eq_link_iff f t).mp hlink) rfl).elim
    · rename_i target hlink
      exact (hflat target ((at?_map_eq_link_iff f t).mp hlink) rfl).elim
    · exact ih

/-- A path resolves to the same one. -/
theorem resolve_map (p : Path) : (t.map f).resolve p = t.resolve p := by
  have hlength : (t.map f).entries.length = t.entries.length := List.length_map _
  have hstart : (t.map f).startAt p = t.startAt p := rfl
  rw [resolve, resolve, hlength, hstart, resolveNames_map]
  dsimp only
  rw [find_map]
  rcases t.find _ with fault | ⟨place, e⟩
  · cases fault <;> rfl
  · rfl

/-! ### Making directories -/

/-- The same directory is made, or cannot be made for the same fault. -/
theorem makeDirectory_map (p : Path) :
    (t.map f).makeDirectory p = (t.makeDirectory p).map (map f) := by
  rw [makeDirectory, makeDirectory, walk_map]
  cases t.walk true p with
  | vacant place => exact congrArg Except.ok (put_map f t place .directory).symm
  | _ => rfl

theorem ensureDirectory_map (p : Path) :
    (t.map f).ensureDirectory p = (t.ensureDirectory p).map (map f) := by
  rw [ensureDirectory, ensureDirectory, makeDirectory_map, find_map]
  rcases t.makeDirectory p with fault | made
  · rcases t.find p with other | ⟨place, e⟩
    · cases fault <;> rfl
    · cases fault <;> cases e <;> rfl
  · rfl

theorem ensureDirectoriesWithin_map (p : Path) (names : List String) :
    (t.map f).ensureDirectoriesWithin p names =
      (t.ensureDirectoriesWithin p names).map (map f) := by
  induction names generalizing p with
  | nil =>
    rw [ensureDirectoriesWithin, ensureDirectoriesWithin, ensureDirectory_map]
    cases t.ensureDirectory p <;> rfl
  | cons name names ih =>
    rw [ensureDirectoriesWithin, ensureDirectoriesWithin, ensureDirectory_map, ih]
    rcases t.ensureDirectory p with fault | made
    · -- only where the directory around it is missing is this one made first
      cases fault with
      | missing =>
        dsimp only [Except.map]
        rcases t.ensureDirectoriesWithin p.parent names with e | made
        · rfl
        · dsimp only
          rw [ensureDirectory_map]
          cases made.ensureDirectory p <;> rfl
      | _ => rfl
    · rfl

/-- The same directories of a path are made. -/
theorem ensureDirectories_map (p : Path) :
    (t.map f).ensureDirectories p = (t.ensureDirectories p).map (map f) :=
  ensureDirectoriesWithin_map f t p p.names

end Tree

end AppReport
