import AppReport.Failure
import AppReport.Text.Pieces

/-!
# Paths

A path is a row of names, either from the root of the tree of files or from the directory where
one is. Slashes in a row count as one, except that two at the beginning differ from one, and `.`
is no name; so `Path.ofText` and `Path.text` lose nothing that matters to a file
(`Path.ofText_text`).
-/

namespace AppReport

open Text

/-- Where a path begins. -/
inductive Anchor where
  /-- The directory where one is. -/
  | here
  /-- The root of the tree. -/
  | top
  /-- The root of the tree, written with two slashes. -/
  | doubled
  deriving DecidableEq

/-- The text of an anchor. -/
def Anchor.text : Anchor → String
  | here => ""
  | top => "/"
  | doubled => "//"

/-- A path. -/
structure Path where
  anchor : Anchor
  names : List String
  deriving DecidableEq

namespace Path

/-- Where a text says that its path begins. -/
def anchorOf : List Char → Anchor
  | ['/', '/'] => .doubled
  | '/' :: '/' :: '/' :: _ => .top
  | '/' :: '/' :: _ => .doubled
  | '/' :: _ => .top
  | _ => .here

/-- The names between the slashes of a text. -/
def namesOf (cs : List Char) : List String :=
  ((splitOn '/' cs).filter fun name => name ≠ [] && name ≠ ['.']).map String.ofList

/-- The path that a text denotes. -/
def ofText (s : String) : Path := ⟨anchorOf s.toList, namesOf s.toList⟩

/-- The text of a path; the directory where one is has the name `.`. -/
def text (p : Path) : String :=
  let s := p.anchor.text ++ "/".intercalate p.names
  if s = "" then "." else s

/-- Whether a path begins at the root. -/
def isAbsolute (p : Path) : Bool := p.anchor ≠ .here

/-- The directory that a path lies in; a root, and the directory where one is, lie in
themselves. -/
def parent (p : Path) : Path := { p with names := p.names.dropLast }

/-- A path seen from a directory. -/
def join (directory p : Path) : Path :=
  if p.isAbsolute then p else { directory with names := directory.names ++ p.names }

/-- A path with one more name. -/
def child (directory : Path) (name : String) : Path :=
  { directory with names := directory.names ++ [name] }

/-- The home directories of users by name; the user of the program has the empty name. -/
abbrev Homes := List (String × String)

/-- A path with the home directory of a user in place of a first name that begins with `~`. -/
def expandHome (homes : Homes) (p : Path) : Except Failure Path :=
  match p.anchor, p.names with
  | .here, first :: rest =>
    match first.toList with
    | '~' :: user =>
      match homes.lookup (String.ofList user) with
      | none => .error (.of .runtime "Could not determine home directory.")
      | some home => .ok ((ofText home).join ⟨.here, rest⟩)
    | _ => .ok p
  | _, _ => .ok p

/-! ### Paths and their parts -/

/-- An absolute path is the same from every directory. -/
theorem join_of_isAbsolute {p : Path} (h : p.isAbsolute = true) (directory : Path) :
    directory.join p = p := by simp [join, h]

/-- A new name goes to the end of what is seen from a directory. -/
theorem join_child {p : Path} (h : ¬ p.isAbsolute = true) (directory : Path) (name : String) :
    directory.join (p.child name) = (directory.join p).child name := by
  have hchild : ¬ (p.child name).isAbsolute = true := h
  rw [join, join, if_neg h, if_neg hchild]
  simp [child]

/-! ### Paths and their texts -/

/-- A name that can stand between slashes. -/
def IsName (name : String) : Prop := name ≠ "" ∧ name ≠ "." ∧ '/' ∉ name.toList

instance (name : String) : Decidable (IsName name) :=
  inferInstanceAs (Decidable (_ ∧ _ ∧ _))

theorem isName_of_mem_ofText {s name : String} (h : name ∈ (ofText s).names) : IsName name := by
  simp only [ofText, namesOf, List.mem_map, List.mem_filter] at h
  obtain ⟨piece, ⟨hpiece, hkept⟩, rfl⟩ := h
  refine ⟨?_, ?_, ?_⟩
  · intro hempty
    simp_all
  · intro hdot
    have hpieceDot : piece = ['.'] := by
      rw [← String.toList_ofList (l := piece), hdot]
      rfl
    simp [hpieceDot] at hkept
  · rw [String.toList_ofList]
    exact not_mem_of_mem_splitOn hpiece

theorem toList_intercalate_names (names : List String) :
    ("/".intercalate names).toList = joinWith '/' (names.map String.toList) := by
  rw [String.toList_intercalate, joinWith_eq_intercalate]
  rfl

theorem namesOf_joinWith {names : List String} (h : ∀ name ∈ names, IsName name) :
    namesOf (joinWith '/' (names.map String.toList)) = names := by
  by_cases hne : names = []
  · rw [hne]
    rfl
  · rw [namesOf, splitOn_joinWith (by simpa using hne)]
    · rw [List.filter_eq_self.mpr, List.map_map]
      · simp
      · simp only [List.mem_map]
        rintro _ ⟨name, hname, rfl⟩
        obtain ⟨hempty, hdot, -⟩ := h name hname
        have hdotChars : name.toList ≠ ['.'] := fun heq => hdot (String.toList_inj.mp heq)
        simp [hdotChars, hempty]
    · simp only [List.mem_map]
      rintro _ ⟨name, hname, rfl⟩
      exact (h name hname).2.2

/-- Joined names begin with the first character of a name, unless there are none. -/
theorem joinWith_names_cases {names : List String} (h : ∀ name ∈ names, IsName name) :
    names = [] ∨
      ∃ c rest, joinWith '/' (names.map String.toList) = c :: rest ∧ c ≠ '/' := by
  cases names with
  | nil => exact Or.inl rfl
  | cons name names =>
    obtain ⟨hempty, -, hslash⟩ := h name List.mem_cons_self
    obtain ⟨c, rest, hname⟩ : ∃ c rest, name.toList = c :: rest :=
      List.exists_cons_of_ne_nil fun hnil => hempty (String.toList_eq_nil_iff.mp hnil)
    have hc : c ≠ '/' := by
      rintro rfl
      exact hslash (hname ▸ List.mem_cons_self)
    refine Or.inr ⟨c, ?_⟩
    cases names with
    | nil => exact ⟨rest, by simp [joinWith, hname], hc⟩
    | cons second more =>
      refine ⟨rest ++ '/' :: joinWith '/' ((second :: more).map String.toList), ?_, hc⟩
      rw [List.map_cons, joinWith, hname]
      · rfl
      · exact List.cons_ne_nil _ _

theorem anchorOf_append (anchor : Anchor) {c : Char} (hc : c ≠ '/') (rest : List Char) :
    anchorOf (anchor.text.toList ++ c :: rest) = anchor := by
  cases anchor with
  | here =>
    show anchorOf (c :: rest) = .here
    rw [anchorOf] <;> simp_all
  | top =>
    show anchorOf ('/' :: c :: rest) = .top
    rw [anchorOf] <;> simp_all
  | doubled =>
    show anchorOf ('/' :: '/' :: c :: rest) = .doubled
    rw [anchorOf] <;> simp_all

theorem namesOf_slash (cs : List Char) : namesOf ('/' :: cs) = namesOf cs := by
  rw [namesOf, namesOf, splitOn_cons_self, List.filter_cons_of_neg (by simp)]

theorem namesOf_append (anchor : Anchor) (cs : List Char) :
    namesOf (anchor.text.toList ++ cs) = namesOf cs := by
  cases anchor with
  | here => rfl
  | top => exact namesOf_slash cs
  | doubled => exact (namesOf_slash _).trans (namesOf_slash cs)

/-- The text of a path denotes the path. -/
theorem ofText_text {p : Path} (h : ∀ name ∈ p.names, IsName name) : ofText p.text = p := by
  obtain ⟨anchor, names⟩ := p
  rcases joinWith_names_cases h with rfl | ⟨c, rest, hjoin, hc⟩
  · cases anchor <;> rfl
  · have hchars : (anchor.text ++ "/".intercalate names).toList =
        anchor.text.toList ++ c :: rest := by
      rw [String.toList_append, toList_intercalate_names, hjoin]
    have htext : (text ⟨anchor, names⟩).toList = anchor.text.toList ++ c :: rest := by
      rw [text, if_neg, hchars]
      intro hempty
      simp [hempty] at hchars
    rw [ofText, htext, anchorOf_append anchor hc, namesOf_append, ← hjoin, namesOf_joinWith h]

end Path

end AppReport
