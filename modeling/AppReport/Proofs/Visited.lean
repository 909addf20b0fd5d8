import AppReport.Proofs.Contents
import AppReport.Proofs.Growth
import Mathlib.Tactic.SplitIfs

/-!
# What a walk comes to

A walk looks at certain places of a tree and at no others (`Tree.visited`): two trees with the same
at these places are the same for it (`Tree.find_congr`). Where no link is on the way, these places
are the beginnings of the path that is walked along (`Tree.prefix_of_mem_visited`).

A path that has been resolved has none of the names that lead back or stay
(`Tree.isForward_resolve`), so that its places are its beginnings.
-/

namespace AppReport

namespace Tree

variable {α : Type} {t t' : Tree α}

/-! ### Visits -/

/-- The places that a walk along names looks at, as far as the first link. -/
def visitedNames (t : Tree α) (directory : Place) : List String → List Place
  | [] => [directory]
  | name :: rest =>
    directory ::
      if !t.isDirectoryAt directory then []
      else if name = "" ∨ name = "." then visitedNames t directory rest
      else if name = ".." then visitedNames t directory.dropLast rest
      else if maxName < name.utf8ByteSize then []
      else
        (directory ++ [name]) ::
          match t.at? (directory ++ [name]) with
          | none => []
          | some (.link _) => []
          | some _ => visitedNames t (directory ++ [name]) rest

/-- The places that a walk along names looks at which follows at most `links` links. -/
def visitedLinks (t : Tree α) : (links : Nat) → Place → List String → List Place
  | links, directory, names =>
    t.visitedNames directory names ++
      match t.walkNames false directory names with
      | .atLink directory target rest =>
        match links with
        | 0 => []
        | links + 1 =>
          visitedLinks t links (startOf directory target) (piecesOf target ++ rest)
      | _ => []

/-- The places that a walk along a path looks at. -/
def visited (t : Tree α) (p : Path) : List Place := t.visitedLinks maxLinks (t.startAt p) p.names

theorem isDirectoryAt_congr {place : Place} (h : t'.at? place = t.at? place) :
    t'.isDirectoryAt place = t.isDirectoryAt place := by
  rw [isDirectoryAt, isDirectoryAt, h]

/-- Along names without links a walk depends on the places that it visits. -/
theorem walkNames_congr {names : List String} {directory : Place}
    (h : ∀ place ∈ t.visitedNames directory names, t'.at? place = t.at? place) :
    t'.walkNames false directory names = t.walkNames false directory names := by
  induction names generalizing directory with
  | nil =>
    have hhere : t'.at? directory = t.at? directory := h directory List.mem_cons_self
    rw [walkNames, walkNames, hhere]
  | cons name rest ih =>
    rw [visitedNames, List.forall_mem_cons] at h
    obtain ⟨hhere, hmore⟩ := h
    rw [walkNames, walkNames, isDirectoryAt_congr hhere]
    by_cases hnot : (!t.isDirectoryAt directory) = true
    · simp only [if_pos hnot]
    simp only [if_neg hnot] at hmore ⊢
    by_cases hsame : name = "" ∨ name = "."
    · simp only [if_pos hsame] at hmore ⊢
      exact ih hmore
    by_cases hup : name = ".."
    · simp only [if_neg hsame, if_pos hup] at hmore ⊢
      exact ih hmore
    by_cases hlong : maxName < name.utf8ByteSize
    · simp only [if_neg hsame, if_neg hup, if_pos hlong]
    simp only [if_neg hsame, if_neg hup, if_neg hlong, List.forall_mem_cons] at hmore ⊢
    -- what stands at the next place decides
    rw [hmore.1]
    cases hat : t.at? (directory ++ [name]) with
    | none => rfl
    | some e =>
      rw [hat] at hmore
      cases e with
      | link target => rfl
      | directory => exact ih hmore.2
      | file content => exact ih hmore.2

/-- Through links a walk depends on the places that it visits. -/
theorem walkLinks_congr {links : Nat} {names : List String} {directory : Place}
    (h : ∀ place ∈ t.visitedLinks links directory names, t'.at? place = t.at? place) :
    t'.walkLinks false links directory names = t.walkLinks false links directory names := by
  induction links generalizing names directory with
  | zero =>
    rw [visitedLinks, List.forall_mem_append] at h
    rw [walkLinks, walkLinks, walkNames_congr h.1]
  | succ links ih =>
    rw [visitedLinks, List.forall_mem_append] at h
    rw [walkLinks, walkLinks, walkNames_congr h.1]
    cases hwalk : t.walkNames false directory names with
    | atLink next target rest =>
      rw [hwalk] at h
      exact ih h.2
    | _ => rfl

/-- What an absolute path leads to depends on nothing but the places that the walk comes to. -/
theorem find_congr {p : Path} (hp : p.isAbsolute = true)
    (h : ∀ place ∈ t.visited p, t'.at? place = t.at? place) : t'.find p = t.find p := by
  have hstart : t'.startAt p = t.startAt p := by rw [startAt, startAt, if_pos hp, if_pos hp]
  have hwalk : t'.walk false p = t.walk false p := by
    rw [walk, walk, hstart, walkLinks_congr h]
  rw [find, find, hwalk]

/-! ### Walks without links -/

/-- A row of names each of which leads on. -/
def IsForward (names : List String) : Prop := ∀ name ∈ names, name ≠ "" ∧ name ≠ "." ∧ name ≠ ".."

/-- A walk that comes to a link has looked at it. -/
theorem exists_link_of_atLink {names rest : List String} {directory next : Place} {target : String}
    (h : t.walkNames false directory names = .atLink next target rest) :
    ∃ place ∈ t.visitedNames directory names, t.at? place = some (.link target) := by
  induction names generalizing directory with
  | nil =>
    rw [walkNames] at h
    split at h <;> cases h
  | cons name names ih =>
    rw [walkNames] at h
    rw [visitedNames]
    -- the same questions as in the walk; only the last of them can come to a link
    by_cases hnot : (!t.isDirectoryAt directory) = true
    · rw [if_pos hnot] at h
      cases h
    simp only [if_neg hnot] at h ⊢
    by_cases hsame : name = "" ∨ name = "."
    · simp only [if_pos hsame] at h ⊢
      obtain ⟨place, hmem, hat⟩ := ih h
      exact ⟨place, List.mem_cons_of_mem _ hmem, hat⟩
    by_cases hup : name = ".."
    · simp only [if_neg hsame, if_pos hup] at h ⊢
      obtain ⟨place, hmem, hat⟩ := ih h
      exact ⟨place, List.mem_cons_of_mem _ hmem, hat⟩
    by_cases hlong : maxName < name.utf8ByteSize
    · rw [if_neg hsame, if_neg hup, if_pos hlong] at h
      cases h
    simp only [if_neg hsame, if_neg hup, if_neg hlong] at h ⊢
    cases hat : t.at? (directory ++ [name]) with
    | none =>
      rw [hat] at h
      dsimp only at h
      split at h <;> cases h
    | some e =>
      rw [hat] at h
      cases e with
      | link other =>
        cases h
        exact ⟨_, List.mem_cons_of_mem _ List.mem_cons_self, hat⟩
      | directory =>
        obtain ⟨place, hmem, hplace⟩ := ih h
        exact ⟨place, List.mem_cons_of_mem _ (List.mem_cons_of_mem _ hmem), hplace⟩
      | file content =>
        obtain ⟨place, hmem, hplace⟩ := ih h
        exact ⟨place, List.mem_cons_of_mem _ (List.mem_cons_of_mem _ hmem), hplace⟩

/-- Names that lead on visit the beginnings of where they lead. -/
theorem exists_append_of_mem_visitedNames {names : List String} (h : IsForward names)
    {directory place : Place} (hmem : place ∈ t.visitedNames directory names) :
    ∃ init, init <+: names ∧ place = directory ++ init := by
  induction names generalizing directory with
  | nil =>
    rw [visitedNames, List.mem_singleton] at hmem
    exact ⟨[], List.nil_prefix, by rw [hmem, List.append_nil]⟩
  | cons name names ih =>
    rw [IsForward, List.forall_mem_cons] at h
    obtain ⟨⟨hempty, hdot, hup⟩, hrest⟩ := h
    rw [visitedNames, if_neg (not_or.mpr ⟨hempty, hdot⟩), if_neg hup, List.mem_cons] at hmem
    rcases hmem with rfl | hmem
    · exact ⟨[], List.nil_prefix, by rw [List.append_nil]⟩
    split_ifs at hmem
    · cases hmem
    · cases hmem
    · rw [List.mem_cons] at hmem
      rcases hmem with rfl | hmem
      · exact ⟨[name], List.cons_prefix_cons.mpr ⟨rfl, List.nil_prefix⟩, rfl⟩
      · split at hmem
        · cases hmem
        · cases hmem
        · obtain ⟨init, hinit, rfl⟩ := ih hrest hmem
          exact ⟨name :: init, List.cons_prefix_cons.mpr ⟨rfl, hinit⟩, by simp⟩

/-- Without links on the way, a walk from the root along names that lead on looks at the beginnings
of its path. -/
theorem prefix_of_mem_visited {names : List String} (h : IsForward names)
    (hlinks : ∀ place, place <+: names → ∀ target, t.at? place ≠ some (.link target))
    {place : Place} (hmem : place ∈ t.visited ⟨.top, names⟩) : place <+: names := by
  have hwithin : ∀ {place}, place ∈ t.visitedNames [] names → place <+: names := by
    intro place hmem
    obtain ⟨init, hinit, rfl⟩ := exists_append_of_mem_visitedNames h hmem
    exact hinit
  have hmem : place ∈ t.visitedLinks maxLinks [] names := hmem
  rw [visitedLinks, List.mem_append] at hmem
  rcases hmem with hmem | hmem
  · exact hwithin hmem
  · -- there is no link that the walk could go on from
    split at hmem
    · rename_i hwalk
      obtain ⟨place, hplace, hat⟩ := exists_link_of_atLink hwalk
      exact absurd hat (hlinks place (hwithin hplace) _)
    · cases hmem

/-! ### Resolved paths -/

theorem IsForward.append {names more : List String} (h : IsForward names) (hmore : IsForward more) :
    IsForward (names ++ more) := by
  rw [IsForward, List.forall_mem_append]
  exact ⟨h, hmore⟩

theorem IsForward.dropLast {names : List String} (h : IsForward names) :
    IsForward names.dropLast := fun name hname => h name (List.dropLast_subset names hname)

/-- One more name that leads on. -/
theorem IsForward.concat {names : List String} (h : IsForward names) {name : String}
    (hsame : ¬ (name = "" ∨ name = ".")) (hup : name ≠ "..") : IsForward (names ++ [name]) :=
  h.append (List.forall_mem_singleton.mpr ⟨(not_or.mp hsame).1, (not_or.mp hsame).2, hup⟩)

theorem isForward_nil : IsForward [] := List.forall_mem_nil _

theorem isForward_startOf {directory : Place} (h : IsForward directory) (text : String) :
    IsForward (startOf directory text) := by
  rw [startOf]
  split
  · exact isForward_nil
  · exact h

/-- What is left of names that lead back leads on. -/
theorem isForward_normalFrom {place : Place} (h : IsForward place) (names : List String) :
    IsForward (normalFrom place names) := by
  rw [normalFrom]
  induction names generalizing place with
  | nil => exact h
  | cons name names ih =>
    rw [List.foldl_cons]
    apply ih
    split_ifs with hsame hup
    · exact h
    · exact h.dropLast
    · exact h.concat hsame hup

/-- Wherever resolving goes, it takes no name that leads back or stays. -/
theorem isForward_resolveNames (t : Tree α) (depth : Nat) (within : List Place) {directory : Place}
    (h : IsForward directory) (names : List String) :
    IsForward (t.resolveNames depth within directory names).1 := by
  fun_induction resolveNames t depth within directory names with
  | case1 => exact h
  | case2 => rename_i ih; exact ih h
  | case3 => rename_i ih; exact ih h.dropLast
  | case4 =>
    rename_i hsame hup _ _ _ _ _
    exact isForward_normalFrom (h.concat hsame hup) _
  | case5 =>
    -- the link has been resolved, and the rest is resolved from there
    rename_i hresolved ihLink ihRest
    have hplace := ihLink (isForward_startOf h _)
    rw [hresolved] at hplace
    exact ihRest hplace
  | case6 =>
    rename_i hresolved ihLink
    have hplace := ihLink (isForward_startOf h _)
    rw [hresolved] at hplace
    exact isForward_normalFrom hplace _
  | case7 =>
    rename_i hsame hup _ _ _
    exact isForward_normalFrom (h.concat hsame hup) _
  | case8 =>
    rename_i hsame hup _ _ _ _ ih
    exact ih (h.concat hsame hup)

theorem isForward_startAt (h : IsForward t.current) (p : Path) : IsForward (t.startAt p) := by
  rw [startAt]
  split
  · exact isForward_nil
  · exact h

/-- A path that has been resolved begins at the root and has names that lead on. -/
theorem isForward_resolve (h : IsForward t.current) {p resolved : Path}
    (hresolve : t.resolve p = .ok resolved) :
    resolved.anchor = .top ∧ IsForward resolved.names := by
  rw [resolve] at hresolve
  split at hresolve
  · cases hresolve
  · dsimp only at hresolve
    split at hresolve
    · cases hresolve
    · cases hresolve
      exact ⟨rfl, isForward_resolveNames t _ _ (isForward_startAt h p) _⟩

end Tree

end AppReport
