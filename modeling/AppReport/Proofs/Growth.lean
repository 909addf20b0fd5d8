import AppReport.Files.Tree

/-!
# Trees that grow

Making directories only adds to a tree (`Tree.Extends`), and another content in a file that is
there changes the file and nothing else. Either way the tree grows (`Tree.Grows`): whatever was at
a place is still there, and of the same shape. A walk that has found something finds it in every
tree that grows from there (`Grows.find`, `Extends.find`), so that a path goes on leading to the
file that it has led to.
-/

namespace AppReport

/-- What can be seen of an entry without reading it. -/
def Entry.shape {α : Type} : Entry α → Entry Unit
  | directory => directory
  | file _ => file ()
  | link target => link target

namespace Tree

variable {α : Type} {t t' t'' : Tree α} {place : Place} {e : Entry α}

/-! ### Places -/

/-- Another place keeps what it has. -/
theorem at?_put_of_ne (t : Tree α) {other : Place} (h : other ≠ place) (e : Entry α) :
    (t.put place e).at? other = t.at? other := by
  cases other with
  | nil => rfl
  | cons name names =>
    have hkey : ((name :: names) == place) = false := beq_eq_false_iff_ne.mpr h
    simp only [at?, put, List.lookup_cons, hkey]
    induction t.entries with
    | nil => rfl
    | cons entry entries ih =>
      obtain ⟨p, e'⟩ := entry
      by_cases hp : p = place
      · rw [List.filter_cons_of_neg (by simp [hp]), ih, List.lookup_cons, hp, hkey]
      · rw [List.filter_cons_of_pos (by simp [hp]), List.lookup_cons, List.lookup_cons, ih]

theorem isDirectoryAt_iff : t.isDirectoryAt place = true ↔ t.at? place = some .directory := by
  unfold isDirectoryAt
  split
  · rename_i h
    exact ⟨fun _ => h, fun _ => rfl⟩
  · rename_i h
    exact ⟨nofun, fun hdirectory => absurd hdirectory h⟩

/-! ### Growth -/

/-- All that is in a tree is in another one as well. -/
structure Extends (t t' : Tree α) : Prop where
  current : t'.current = t.current
  at? : ∀ {place : Place} {e : Entry α}, t.at? place = some e → t'.at? place = some e

/-- What is in a tree is in another one as well, if not with the same content. -/
structure Grows (t t' : Tree α) : Prop where
  current : t'.current = t.current
  at? : ∀ {place : Place} {e : Entry α}, t.at? place = some e →
    ∃ e', t'.at? place = some e' ∧ e'.shape = e.shape

namespace Extends

theorem refl (t : Tree α) : Extends t t := ⟨rfl, fun h => h⟩

theorem trans (h : Extends t t') (h' : Extends t' t'') : Extends t t'' :=
  ⟨h'.current.trans h.current, fun hat => h'.at? (h.at? hat)⟩

theorem grows (h : Extends t t') : Grows t t' :=
  ⟨h.current, fun hat => ⟨_, h.at? hat, rfl⟩⟩

/-- Something can be put at an empty place. -/
theorem put_vacant (h : t.at? place = none) (e : Entry α) : Extends t (t.put place e) := by
  refine ⟨rfl, fun {other old} hat => ?_⟩
  have hne : other ≠ place := by
    rintro rfl
    rw [h] at hat
    cases hat
  rw [at?_put_of_ne t hne, hat]

end Extends

namespace Grows

/-- Something can be put in the place of something of the same shape. -/
theorem put_same (h : t.at? place = some e) {e' : Entry α} (hshape : e'.shape = e.shape) :
    Grows t (t.put place e') := by
  refine ⟨rfl, fun {other old} hat => ?_⟩
  by_cases hne : other = place
  · subst hne
    cases other with
    | nil =>
      -- the root is a directory whatever is put there
      exact ⟨old, hat, rfl⟩
    | cons name names =>
      rw [h, Option.some.injEq] at hat
      exact ⟨e', at?_put t (List.cons_ne_nil _ _) e', hat ▸ hshape⟩
  · exact ⟨old, by rw [at?_put_of_ne t hne, hat], rfl⟩

/-- A directory stays one. -/
theorem directoryAt (h : Grows t t') (hat : t.at? place = some .directory) :
    t'.at? place = some .directory := by
  obtain ⟨e', hat', hshape⟩ := h.at? hat
  cases e' with
  | directory => exact hat'
  | file content => cases hshape
  | link target => cases hshape

/-- A file stays one, with the same content or another one. -/
theorem fileAt (h : Grows t t') {content : α} (hat : t.at? place = some (.file content)) :
    ∃ content', t'.at? place = some (.file content') := by
  obtain ⟨e', hat', hshape⟩ := h.at? hat
  cases e' with
  | directory => cases hshape
  | file content' => exact ⟨content', hat'⟩
  | link target => cases hshape

/-- A link keeps its target. -/
theorem linkAt (h : Grows t t') {target : String} (hat : t.at? place = some (.link target)) :
    t'.at? place = some (.link target) := by
  obtain ⟨e', hat', hshape⟩ := h.at? hat
  cases e' with
  | directory => cases hshape
  | file content => cases hshape
  | link other =>
    cases hshape
    exact hat'

end Grows

/-! ### Walks -/

/-- Where a walk ends in a tree that has grown: what was found is found again, a link is still
there, and anything may be now where there was nothing. -/
inductive Kept (t' : Tree α) : Stop α → Stop α → Prop
  | found {place : Place} {e e' : Entry α} (hat : t'.at? place = some e')
    (hshape : e'.shape = e.shape) : Kept t' (.found place e) (.found place e')
  | vacant (place : Place) (stop : Stop α) : Kept t' (.vacant place) stop
  | failed (fault : FileFault) (stop : Stop α) : Kept t' (.failed fault) stop
  | atLink (directory : Place) (target : String) (rest : List String) :
    Kept t' (.atLink directory target rest) (.atLink directory target rest)

/-- Along names without links a walk in the larger tree goes as far at least. -/
theorem Grows.walkNames (h : Grows t t') (last : Bool) (names : List String) (directory : Place) :
    Kept t' (t.walkNames last directory names) (t'.walkNames last directory names) := by
  induction names generalizing directory with
  | nil =>
    rw [Tree.walkNames, Tree.walkNames]
    cases hat : t.at? directory with
    | none => exact .failed _ _
    | some e =>
      obtain ⟨e', hat', hshape⟩ := h.at? hat
      rw [hat']
      exact .found hat' hshape
  | cons name rest ih =>
    rw [Tree.walkNames, Tree.walkNames]
    by_cases hdirectory : t.isDirectoryAt directory = true
    · rw [hdirectory, isDirectoryAt_iff.mpr (h.directoryAt (isDirectoryAt_iff.mp hdirectory))]
      by_cases hsame : name = "" ∨ name = "."
      · simp only [if_pos hsame]
        exact ih directory
      by_cases hup : name = ".."
      · simp only [if_neg hsame, if_pos hup]
        exact ih directory.dropLast
      by_cases hlong : maxName < name.utf8ByteSize
      · simp only [if_neg hsame, if_neg hup, if_pos hlong]
        exact .failed _ _
      simp only [if_neg hsame, if_neg hup, if_neg hlong]
      -- what stands at the next place decides
      cases hat : t.at? (directory ++ [name]) with
      | none =>
        show Kept t' (if rest.isEmpty then .vacant _ else .failed .missing) _
        split
        · exact .vacant _ _
        · exact .failed _ _
      | some e =>
        cases e with
        | directory =>
          rw [h.directoryAt hat]
          exact ih _
        | file content =>
          obtain ⟨content', hat'⟩ := h.fileAt hat
          rw [hat']
          exact ih _
        | link target =>
          have hat' := h.linkAt hat
          rw [hat']
          show Kept t' (if last && rest.isEmpty then _ else _)
            (if last && rest.isEmpty then _ else _)
          split
          · exact .found hat' rfl
          · exact .atLink _ _ _
    · rw [if_pos (by simpa using hdirectory)]
      exact .failed _ _

/-- A walk that ends somewhere ends there in every tree that grows from there. -/
theorem Grows.walkLinks (h : Grows t t') (last : Bool) (links : Nat) (directory : Place)
    (names : List String) :
    Kept t' (t.walkLinks last links directory names) (t'.walkLinks last links directory names) := by
  induction links generalizing directory names with
  | zero =>
    have hnames := h.walkNames last names directory
    rw [Tree.walkLinks, Tree.walkLinks]
    generalize t.walkNames last directory names = stop at hnames ⊢
    generalize t'.walkNames last directory names = stop' at hnames ⊢
    cases hnames with
    | found hat hshape => exact .found hat hshape
    | vacant place stop => exact .vacant _ _
    | failed fault stop => exact .failed _ _
    | atLink directory target rest =>
      -- one link too many
      exact .failed _ _
  | succ links ih =>
    have hnames := h.walkNames last names directory
    rw [Tree.walkLinks, Tree.walkLinks]
    generalize t.walkNames last directory names = stop at hnames ⊢
    generalize t'.walkNames last directory names = stop' at hnames ⊢
    cases hnames with
    | found hat hshape => exact .found hat hshape
    | vacant place stop => exact .vacant _ _
    | failed fault stop => exact .failed _ _
    | atLink directory target rest => exact ih _ _

/-- A walk in the larger tree comes to the same place, or further where there was nothing. -/
theorem Grows.walk (h : Grows t t') (last : Bool) (p : Path) :
    Kept t' (t.walk last p) (t'.walk last p) := by
  have hstart : t'.startAt p = t.startAt p := by rw [startAt, startAt, h.current]
  rw [Tree.walk, Tree.walk, hstart]
  split
  · exact .failed _ _
  split
  · exact .failed _ _
  · exact h.walkLinks last maxLinks _ _

/-- Where nothing is found there is nothing. -/
theorem at?_of_walkNames_vacant {last : Bool} {names : List String} {directory : Place}
    (h : t.walkNames last directory names = .vacant place) : t.at? place = none := by
  induction names generalizing directory with
  | nil =>
    rw [Tree.walkNames] at h
    split at h <;> cases h
  | cons name rest ih =>
    -- one split for each question of the walk, which ends at nothing only at the last name
    rw [Tree.walkNames] at h
    split at h
    · cases h
    split at h
    · exact ih h
    split at h
    · exact ih h
    split at h
    · cases h
    split at h
    · rename_i hat
      split at h
      · cases h
        exact hat
      · cases h
    · split at h <;> cases h
    · exact ih h

theorem at?_of_walkLinks_vacant {last : Bool} {links : Nat} {names : List String}
    {directory : Place} (h : t.walkLinks last links directory names = .vacant place) :
    t.at? place = none := by
  induction links generalizing directory names with
  | zero =>
    rw [Tree.walkLinks] at h
    split at h
    · cases h
    · exact at?_of_walkNames_vacant h
  | succ links ih =>
    rw [Tree.walkLinks] at h
    split at h
    · exact ih h
    · exact at?_of_walkNames_vacant h

/-- Where a walk ends at nothing there is nothing. -/
theorem at?_of_walk_vacant {last : Bool} {p : Path} (h : t.walk last p = .vacant place) :
    t.at? place = none := by
  rw [Tree.walk] at h
  split at h
  · cases h
  split at h
  · cases h
  · exact at?_of_walkLinks_vacant h

/-! ### Files that are found again -/

theorem find_eq_ok_iff {p : Path} :
    t.find p = .ok (place, e) ↔ t.walk false p = .found place e := by
  rw [find]
  split
  · rename_i hwalk
    rw [hwalk]
    simp
  all_goals
    rename_i hwalk
    rw [hwalk]
    simp

/-- What a path leads to, it leads to in every tree that grows from there. -/
theorem Grows.find (h : Grows t t') {p : Path} (hfind : t.find p = .ok (place, e)) :
    ∃ e', t'.find p = .ok (place, e') ∧ t'.at? place = some e' ∧ e'.shape = e.shape := by
  have hwalk := h.walk false p
  rw [find_eq_ok_iff.mp hfind] at hwalk
  generalize hstop : t'.walk false p = stop' at hwalk
  cases hwalk with
  | found hat hshape => exact ⟨_, find_eq_ok_iff.mpr hstop, hat, hshape⟩

/-- A path leads to what is at the place that it leads to. -/
theorem at?_of_find {p : Path} (hfind : t.find p = .ok (place, e)) : t.at? place = some e := by
  -- a tree grows from itself
  obtain ⟨e', hfind', hat, -⟩ := (Extends.refl t).grows.find hfind
  rw [hfind] at hfind'
  cases hfind'
  exact hat

/-- What is found is found in the larger tree. -/
theorem Extends.find (h : Extends t t') {p : Path} (hfind : t.find p = .ok (place, e)) :
    t'.find p = .ok (place, e) := by
  obtain ⟨e', hfind', hat, -⟩ := h.grows.find hfind
  rw [h.at? (at?_of_find hfind), Option.some.injEq] at hat
  rw [hfind', hat]

/-- A path that leads to a file leads to what is written there. -/
theorem find_put_file {p : Path} {content content' : α}
    (hfind : t.find p = .ok (place, .file content)) :
    (t.put place (.file content')).find p = .ok (place, .file content') := by
  have hat := at?_of_find hfind
  have hplace : place ≠ [] := by
    -- the root is no file
    rintro rfl
    cases hat
  have hgrows : Grows t (t.put place (.file content')) := .put_same hat rfl
  obtain ⟨e', hfind', hat', -⟩ := hgrows.find hfind
  rw [at?_put t hplace, Option.some.injEq] at hat'
  rw [hfind', hat']

/-! ### Making directories -/

/-- Making a directory takes nothing away. -/
theorem Extends.of_makeDirectory {p : Path} (h : t.makeDirectory p = .ok t') : Extends t t' := by
  rw [makeDirectory] at h
  split at h
  · rename_i hwalk
    cases h
    exact .put_vacant (at?_of_walk_vacant hwalk) _
  all_goals cases h

theorem Extends.of_ensureDirectory {p : Path} (h : t.ensureDirectory p = .ok t') :
    Extends t t' := by
  rw [ensureDirectory] at h
  split at h
  · rename_i hmake
    cases h
    exact .of_makeDirectory hmake
  · split at h
    · cases h
    · cases h
      exact .refl t
    · cases h

theorem Extends.of_ensureDirectoriesWithin {p : Path} {names : List String}
    (h : t.ensureDirectoriesWithin p names = .ok t') : Extends t t' := by
  induction names generalizing p t' with
  | nil =>
    rw [ensureDirectoriesWithin] at h
    split at h
    · rename_i hensure
      cases h
      exact .of_ensureDirectory hensure
    · cases h
  | cons name names ih =>
    rw [ensureDirectoriesWithin] at h
    split at h
    · rename_i hensure
      cases h
      exact .of_ensureDirectory hensure
    · -- the parents are made first
      split at h
      · cases h
      · rename_i hparents
        split at h
        · rename_i hensure
          cases h
          exact (ih hparents).trans (.of_ensureDirectory hensure)
        · cases h
    · cases h

/-- Making the directories of a path takes nothing away. -/
theorem Extends.of_ensureDirectories {p : Path} (h : t.ensureDirectories p = .ok t') :
    Extends t t' :=
  .of_ensureDirectoriesWithin h

end Tree

end AppReport
