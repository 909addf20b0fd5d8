import AppReport.Proofs.Growth

/-!
# The directory of a file

A path that leads to a file leads through a directory: without its last name, it leads to one
(`Tree.exists_directory_of_find`). What a walk does at a name does not depend on the names behind it
(`Tree.walkNames_cons`), so that a walk along all names but the last one goes the same way as the
walk along all of them, link by link, and ends where only the last name is left
(`Tree.walkLinks_init`). So nothing is made when the directories of a file are ensured
(`Tree.ensureDirectories_parent`).
-/

namespace AppReport

open Text

/-! ### Texts of paths -/

namespace Path

theorem exists_joinWith_concat (mark : Char) (pieces : List (List Char)) (piece : List Char) :
    ∃ tail, joinWith mark (pieces ++ [piece]) = joinWith mark pieces ++ tail := by
  induction pieces with
  | nil => exact ⟨piece, rfl⟩
  | cons first pieces ih =>
    cases pieces with
    | nil => exact ⟨mark :: piece, rfl⟩
    | cons second pieces =>
      obtain ⟨tail, htail⟩ := ih
      refine ⟨tail, ?_⟩
      show first ++ mark :: joinWith mark (second :: pieces ++ [piece]) =
        first ++ mark :: joinWith mark (second :: pieces) ++ tail
      rw [htail, List.append_assoc]
      rfl

/-- The text of a path begins with that of the directory that it lies in, if the latter has one of
its own. -/
theorem text_parent (p : Path) :
    p.parent.text = "." ∨ ∃ tail, p.text = p.parent.text ++ tail := by
  obtain ⟨anchor, names⟩ := p
  rcases List.eq_nil_or_concat names with rfl | ⟨init, name, rfl⟩
  · exact Or.inr ⟨"", (String.append_empty).symm⟩
  obtain ⟨tail, htail⟩ := exists_joinWith_concat '/' (init.map String.toList) name.toList
  have hwhole : anchor.text ++ "/".intercalate (init ++ [name]) =
      anchor.text ++ "/".intercalate init ++ String.ofList tail := by
    rw [String.append_assoc]
    congr 1
    apply String.toList_inj.mp
    rw [String.toList_append, toList_intercalate_names, toList_intercalate_names, List.map_append,
      String.toList_ofList]
    exact htail
  have hparent : (Path.parent ⟨anchor, init ++ [name]⟩).text =
      if anchor.text ++ "/".intercalate init = "" then "."
      else anchor.text ++ "/".intercalate init := by
    rw [parent, List.dropLast_concat]
    rfl
  rw [List.concat_eq_append, hparent]
  split
  · exact Or.inl rfl
  · rename_i hne
    refine Or.inr ⟨String.ofList tail, ?_⟩
    rw [text, hwhole]
    refine if_neg fun hempty => hne ?_
    exact (String.append_eq_empty_iff.mp hempty).1

end Path

namespace Tree

variable {α : Type}

/-! ### One name of a walk -/

/-- What a walk does at its first name, whatever comes behind: it fails, it goes on in a directory,
it misses the name, or it comes to a link. -/
theorem walkNames_cons (t : Tree α) (name : String) (directory : Place) :
    (∃ fault, ∀ last rest, t.walkNames last directory (name :: rest) = .failed fault) ∨
    (∃ next, ∀ last rest, t.walkNames last directory (name :: rest) =
      t.walkNames last next rest) ∨
    (∀ last rest, t.walkNames last directory (name :: rest) =
      if rest.isEmpty then .vacant (directory ++ [name]) else .failed .missing) ∨
    ∃ target, ∀ last rest, t.walkNames last directory (name :: rest) =
      if last && rest.isEmpty then .found (directory ++ [name]) (.link target)
      else .atLink directory target rest := by
  simp only [walkNames]
  -- what comes behind the name matters only where there is nothing, and where there is a link
  by_cases hdirectory : t.isDirectoryAt directory = true
  · rw [hdirectory]
    by_cases hsame : name = "" ∨ name = "."
    · simp only [if_pos hsame]
      exact Or.inr (Or.inl ⟨directory, fun _ _ => rfl⟩)
    by_cases hup : name = ".."
    · simp only [if_neg hsame, if_pos hup]
      exact Or.inr (Or.inl ⟨directory.dropLast, fun _ _ => rfl⟩)
    by_cases hlong : maxName < name.utf8ByteSize
    · simp only [if_neg hsame, if_neg hup, if_pos hlong]
      exact Or.inl ⟨_, fun _ _ => rfl⟩
    simp only [if_neg hsame, if_neg hup, if_neg hlong]
    cases t.at? (directory ++ [name]) with
    | none => exact Or.inr (Or.inr (Or.inl fun _ _ => rfl))
    | some e =>
      cases e with
      | link target => exact Or.inr (Or.inr (Or.inr ⟨target, fun _ _ => rfl⟩))
      | _ => exact Or.inr (Or.inl ⟨directory ++ [name], fun _ _ => rfl⟩)
  · have hnot : (!t.isDirectoryAt directory) = true := by simpa using hdirectory
    simp only [if_pos hnot]
    exact Or.inl ⟨_, fun _ _ => rfl⟩

/-! ### Walks without the last name -/

/-- Where a walk without the last name ends and where the one along all names does. Both are at the
same link, or the first one has come to a directory, or the second one fails. -/
inductive Above (name : String) : Stop α → Stop α → Prop
  | directory (place : Place) (stop : Stop α) : Above name (.found place .directory) stop
  | atLink (directory : Place) (target : String) (rest : List String) :
    Above name (.atLink directory target rest) (.atLink directory target (rest ++ [name]))
  | failed (stop : Stop α) (fault : FileFault) : Above name stop (.failed fault)

theorem walkNames_init (t : Tree α) (name : String) (init : List String) (directory : Place) :
    Above name (t.walkNames false directory init)
      (t.walkNames false directory (init ++ [name])) := by
  induction init generalizing directory with
  | nil =>
    rw [List.nil_append, walkNames, walkNames]
    by_cases hdirectory : t.isDirectoryAt directory = true
    · rw [isDirectoryAt_iff.mp hdirectory]
      exact .directory _ _
    · rw [if_pos (by simpa using hdirectory)]
      exact .failed _ _
  | cons first rest ih =>
    rw [List.cons_append]
    rcases t.walkNames_cons first directory with ⟨fault, h⟩ | ⟨next, h⟩ | h | ⟨target, h⟩
    · rw [h, h]
      exact .failed _ _
    · rw [h, h]
      exact ih next
    · -- no other name can follow one that is missing
      have hmore : (rest ++ [name]).isEmpty = false := by simp
      rw [h, h, hmore]
      exact .failed _ _
    · rw [h, h]
      exact .atLink _ _ _

/-- As long as the walk along all names does not fail, the one without the last name comes to a
directory. -/
theorem walkLinks_init (t : Tree α) (name : String) (links : Nat) (init : List String)
    (directory : Place) :
    (∃ place, t.walkLinks false links directory init = .found place .directory) ∨
      ∃ fault, t.walkLinks false links directory (init ++ [name]) = .failed fault := by
  -- each link leads on with one less to follow
  induction links using Nat.strongRecOn generalizing init directory with
  | ind links ih =>
    have hnames := t.walkNames_init name init directory
    unfold walkLinks
    generalize t.walkNames false directory init = stop at hnames ⊢
    generalize t.walkNames false directory (init ++ [name]) = whole at hnames ⊢
    cases hnames with
    | directory place stop => exact Or.inl ⟨place, rfl⟩
    | failed stop fault => exact Or.inr ⟨fault, rfl⟩
    | atLink directory target rest =>
      cases links with
      | zero => exact Or.inr ⟨_, rfl⟩
      | succ links =>
        have hnext := ih links links.lt_succ_self (piecesOf target ++ rest)
          (startOf directory target)
        rw [List.append_assoc] at hnext
        exact hnext

/-! ### Walks that stay at a last link -/

/-- A walk that does not follow the last link ends as one that follows it, or at a link. -/
theorem walkNames_last (t : Tree α) (names : List String) (directory : Place) :
    t.walkNames true directory names = t.walkNames false directory names ∨
      ∃ place target, t.walkNames true directory names = .found place (.link target) := by
  induction names generalizing directory with
  | nil => exact Or.inl rfl
  | cons name rest ih =>
    rcases t.walkNames_cons name directory with ⟨fault, h⟩ | ⟨next, h⟩ | h | ⟨target, h⟩
    · exact Or.inl ((h true rest).trans (h false rest).symm)
    · rw [h, h]
      exact ih next
    · exact Or.inl ((h true rest).trans (h false rest).symm)
    · rw [h, h]
      by_cases hend : rest.isEmpty = true
      · rw [hend]
        exact Or.inr ⟨_, target, rfl⟩
      · rw [Bool.eq_false_iff.mpr hend]
        exact Or.inl rfl

theorem walkLinks_last (t : Tree α) (links : Nat) (names : List String) (directory : Place) :
    t.walkLinks true links directory names = t.walkLinks false links directory names ∨
      ∃ place target, t.walkLinks true links directory names = .found place (.link target) := by
  induction links using Nat.strongRecOn generalizing names directory with
  | ind links ih =>
    unfold walkLinks
    rcases t.walkNames_last names directory with h | ⟨place, target, h⟩
    · rw [h]
      cases t.walkNames false directory names with
      | atLink directory target rest =>
        cases links with
        | zero => exact Or.inl rfl
        | succ links => exact ih links links.lt_succ_self _ _
      | _ => exact Or.inl rfl
    · rw [h]
      exact Or.inr ⟨place, target, rfl⟩

/-! ### Directories that are there -/

variable {t : Tree α} {p : Path} {place : Place} {e : Entry α}

/-- A path with a text that can be walked along. -/
def IsWalkable (p : Path) : Prop :=
  p.text.toList.contains '\x00' = false ∧ p.text.utf8ByteSize ≤ maxPath

theorem IsWalkable.parent (h : IsWalkable p) : IsWalkable p.parent := by
  obtain ⟨hwhole, hshort⟩ := h
  rcases p.text_parent with hdot | ⟨tail, htail⟩
  · rw [IsWalkable, hdot]
    decide
  · rw [htail, String.toList_append] at hwhole
    rw [htail, String.utf8ByteSize_append] at hshort
    refine ⟨?_, by omega⟩
    simp only [List.contains_eq_mem, decide_eq_false_iff_not, List.mem_append, not_or] at hwhole ⊢
    exact hwhole.1

theorem walk_eq_found_iff {last : Bool} :
    t.walk last p = .found place e ↔
      IsWalkable p ∧ t.walkLinks last maxLinks (t.startAt p) p.names = .found place e := by
  unfold walk IsWalkable
  by_cases hwhole : p.text.toList.contains '\x00' = true
  · rw [if_pos hwhole, hwhole]
    simp
  rw [if_neg hwhole, Bool.eq_false_iff.mpr hwhole]
  by_cases hlong : maxPath < p.text.utf8ByteSize
  · rw [if_pos hlong]
    simp [Nat.not_le.mpr hlong]
  · rw [if_neg hlong]
    simp [Nat.not_lt.mp hlong]

/-- A path with a name that leads somewhere lies in a directory. -/
theorem exists_directory_of_find (hnames : p.names ≠ []) (hfind : t.find p = .ok (place, e)) :
    ∃ above, t.find p.parent = .ok (above, .directory) := by
  obtain ⟨hwalkable, hlinks⟩ := walk_eq_found_iff.mp (find_eq_ok_iff.mp hfind)
  have hsplit : p.names = p.parent.names ++ [p.names.getLast hnames] :=
    (List.dropLast_concat_getLast hnames).symm
  rw [hsplit] at hlinks
  rcases t.walkLinks_init (p.names.getLast hnames) maxLinks p.parent.names (t.startAt p) with
    ⟨above, hparent⟩ | ⟨fault, hfails⟩
  · exact ⟨above, find_eq_ok_iff.mpr (walk_eq_found_iff.mpr ⟨hwalkable.parent, hparent⟩)⟩
  · rw [hfails] at hlinks
    cases hlinks

/-- A directory that is there is not made. -/
theorem ensureDirectory_of_find (hfind : t.find p = .ok (place, .directory)) :
    t.ensureDirectory p = .ok t := by
  obtain ⟨hwalkable, hlinks⟩ := walk_eq_found_iff.mp (find_eq_ok_iff.mp hfind)
  have hfound : ∃ reached e', t.walk true p = .found reached e' := by
    rcases t.walkLinks_last maxLinks p.names (t.startAt p) with h | ⟨reached, target, h⟩
    · exact ⟨place, .directory, walk_eq_found_iff.mpr ⟨hwalkable, h.trans hlinks⟩⟩
    · exact ⟨reached, .link target, walk_eq_found_iff.mpr ⟨hwalkable, h⟩⟩
  obtain ⟨reached, e', hfound⟩ := hfound
  have hmake : t.makeDirectory p = .error .alreadyThere := by rw [makeDirectory, hfound]
  rw [ensureDirectory, hmake, hfind]

/-- For something that is there, no directory is made. -/
theorem ensureDirectories_parent (hnames : p.names ≠ []) (hfind : t.find p = .ok (place, e)) :
    t.ensureDirectories p.parent = .ok t := by
  obtain ⟨above, hparent⟩ := exists_directory_of_find hnames hfind
  unfold ensureDirectories
  cases p.parent.names with
  | nil => rw [ensureDirectoriesWithin, ensureDirectory_of_find hparent]
  | cons name names => rw [ensureDirectoriesWithin, ensureDirectory_of_find hparent]

end Tree

end AppReport
