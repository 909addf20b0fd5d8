/-!
# Pieces of texts

`splitOn` cuts a text wherever a character stands, and `joinWith` puts a character between the
pieces. There is one piece more than there are places to cut (`length_splitOn`), and the character
stands in none of them (`not_mem_of_mem_splitOn`); pieces like these are found again in the joined
text (`splitOn_joinWith`).
-/

namespace AppReport.Text

/-- The pieces of a text between the places where a character stands. -/
def splitOn (mark : Char) : List Char → List (List Char)
  | [] => [[]]
  | c :: rest =>
    match splitOn mark rest with
    | [] => [[]]
    | piece :: pieces => if c = mark then [] :: piece :: pieces else (c :: piece) :: pieces

/-- Texts with a character between each two. -/
def joinWith (mark : Char) : List (List Char) → List Char
  | [] => []
  | [piece] => piece
  | piece :: pieces => piece ++ mark :: joinWith mark pieces

/-- A text has at least one piece. -/
theorem splitOn_ne_nil (mark : Char) (cs : List Char) : splitOn mark cs ≠ [] := by
  cases cs with
  | nil => simp [splitOn]
  | cons c rest => rw [splitOn]; split <;> (try split) <;> simp

/-- A cut at the first character puts an empty piece in front. -/
theorem splitOn_cons_self (mark : Char) (rest : List Char) :
    splitOn mark (mark :: rest) = [] :: splitOn mark rest := by
  rw [splitOn]
  split
  · next h => exact absurd h (splitOn_ne_nil mark rest)
  · next h => simp [h]

/-- Any other first character goes to the first piece. -/
theorem splitOn_cons_of_ne {mark c : Char} (h : c ≠ mark) (rest : List Char) :
    ∃ piece pieces, splitOn mark rest = piece :: pieces ∧
      splitOn mark (c :: rest) = (c :: piece) :: pieces := by
  obtain ⟨piece, pieces, hp⟩ := List.exists_cons_of_ne_nil (splitOn_ne_nil mark rest)
  exact ⟨piece, pieces, hp, by simp [splitOn, hp, h]⟩

/-- Each cut makes one piece more. -/
theorem length_splitOn (mark : Char) (cs : List Char) :
    (splitOn mark cs).length = cs.count mark + 1 := by
  induction cs with
  | nil => rfl
  | cons c rest ih =>
    by_cases h : c = mark
    · subst h
      rw [splitOn_cons_self, List.length_cons, ih, List.count_cons_self]
    · obtain ⟨piece, pieces, hp, hc⟩ := splitOn_cons_of_ne h rest
      rw [hp, List.length_cons] at ih
      rw [hc, List.length_cons, ih, List.count_cons_of_ne h]

/-- No piece holds the character that the text was cut at. -/
theorem not_mem_of_mem_splitOn {mark : Char} {cs piece : List Char}
    (h : piece ∈ splitOn mark cs) : mark ∉ piece := by
  induction cs generalizing piece with
  | nil => simp_all [splitOn]
  | cons c rest ih =>
    by_cases hc : c = mark
    · subst hc
      rw [splitOn_cons_self, List.mem_cons] at h
      rcases h with rfl | h
      · exact List.not_mem_nil
      · exact ih h
    · obtain ⟨first, pieces, hp, hs⟩ := splitOn_cons_of_ne hc rest
      rw [hs, List.mem_cons] at h
      rcases h with rfl | h
      · rw [List.mem_cons, not_or]
        exact ⟨fun he => hc he.symm, ih (hp ▸ List.mem_cons_self)⟩
      · exact ih (hp ▸ List.mem_cons_of_mem first h)

/-- A text without the character is one piece. -/
theorem splitOn_of_not_mem {mark : Char} {cs : List Char} (h : mark ∉ cs) :
    splitOn mark cs = [cs] := by
  induction cs with
  | nil => rfl
  | cons c rest ih =>
    rw [List.mem_cons, not_or] at h
    rw [splitOn, ih h.2]
    exact if_neg fun hc => h.1 hc.symm

theorem splitOn_append_mark {mark : Char} {piece : List Char} (h : mark ∉ piece)
    (rest : List Char) : splitOn mark (piece ++ mark :: rest) = piece :: splitOn mark rest := by
  induction piece with
  | nil => exact splitOn_cons_self mark rest
  | cons c piece ih =>
    rw [List.mem_cons, not_or] at h
    rw [List.cons_append, splitOn, ih h.2]
    exact if_neg fun hc => h.1 hc.symm

/-- Pieces that do not hold the character are found again. -/
theorem splitOn_joinWith {mark : Char} {pieces : List (List Char)} (hne : pieces ≠ [])
    (h : ∀ piece ∈ pieces, mark ∉ piece) : splitOn mark (joinWith mark pieces) = pieces := by
  induction pieces with
  | nil => exact absurd rfl hne
  | cons piece pieces ih =>
    have hpiece := h piece List.mem_cons_self
    cases pieces with
    | nil => exact splitOn_of_not_mem hpiece
    | cons second more =>
      rw [joinWith, splitOn_append_mark hpiece,
        ih (List.cons_ne_nil _ _) fun p hp => h p (List.mem_cons_of_mem _ hp)]
      exact List.cons_ne_nil _ _

/-- Apart from the character between them, a text has what its pieces have. -/
theorem mem_joinWith_iff {mark c : Char} (hc : c ≠ mark) {pieces : List (List Char)} :
    c ∈ joinWith mark pieces ↔ ∃ piece ∈ pieces, c ∈ piece := by
  induction pieces with
  | nil => simp [joinWith]
  | cons piece pieces ih =>
    cases pieces with
    | nil => simp [joinWith]
    | cons second more =>
      rw [joinWith, List.mem_append, List.mem_cons, ih]
      · simp [hc]
      · exact List.cons_ne_nil _ _

theorem joinWith_eq_intercalate (mark : Char) (pieces : List (List Char)) :
    joinWith mark pieces = [mark].intercalate pieces := by
  induction pieces with
  | nil => rfl
  | cons piece pieces ih =>
    cases pieces with
    | nil => simp [joinWith]
    | cons second more =>
      rw [joinWith, ih, List.intercalate_cons_cons]
      · simp
      · exact List.cons_ne_nil _ _

end AppReport.Text
