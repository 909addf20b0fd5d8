import AppReport.Proofs.Columns
import Mathlib.Algebra.Ring.Nat
import Mathlib.Order.Bounds.Defs

/-!
# Where cells stand

Before the blanks at its end are cut off, a line of a table is its cells, each of them whole and at
the offset of its column, and spaces (`Columns.Stands`). The offset of a column depends on the
widths of the columns in front of it and not on the line, so that every column begins at the same
offset in all lines. This is proved cell by cell (`Columns.stands_joinCells`), since what follows a
cell stands behind its whole column, and then for all lines of a table at once
(`Columns.table_isAligned`). A column is as wide as its widest cell, neither more nor less
(`Columns.isGreatest_widths`).
-/

namespace AppReport

open Text

namespace Columns

/-! ### Widths -/

/-- The cell of a row in a column; a row that is too short has an empty one. -/
def cellAt (row : Row) (i : Nat) : List Char := row.getD i []

theorem foldl_max_mem (ns : List Nat) : ns.foldl max 0 = 0 ∨ ns.foldl max 0 ∈ ns := by
  suffices h : ∀ acc, ns.foldl max acc = acc ∨ ns.foldl max acc ∈ ns from h 0
  induction ns with
  | nil => exact fun acc => Or.inl rfl
  | cons n ns ih =>
    intro acc
    rw [List.foldl_cons, List.mem_cons]
    rcases ih (max acc n) with h | h
    · rw [h]
      rcases Nat.le_total acc n with hle | hle
      · exact Or.inr (Or.inl (Nat.max_eq_right hle))
      · exact Or.inl (Nat.max_eq_left hle)
    · exact Or.inr (Or.inr h)

/-- The width of a column is the greatest length of a cell in it. -/
theorem isGreatest_width {rows : List Row} (h : rows ≠ []) (i : Nat) :
    IsGreatest {n | ∃ row ∈ rows, n = (cellAt row i).length} (width rows i) := by
  constructor
  · rcases foldl_max_mem (rows.map fun row => (row.getD i []).length) with hzero | hmem
    · -- all cells are empty, among them that of the first row
      obtain ⟨row, rest, rfl⟩ := List.exists_cons_of_ne_nil h
      refine ⟨row, List.mem_cons_self, ?_⟩
      have hle : (row.getD i []).length ≤ width (row :: rest) i :=
        le_foldl_max (Or.inr (List.mem_map.mpr ⟨row, List.mem_cons_self, rfl⟩))
      rw [width, hzero] at hle ⊢
      exact (Nat.le_zero.mp hle).symm
    · obtain ⟨row, hrow, heq⟩ := List.mem_map.mp hmem
      exact ⟨row, hrow, heq.symm⟩
  · rintro n ⟨row, hrow, rfl⟩
    exact le_foldl_max (Or.inr (List.mem_map.mpr ⟨row, hrow, rfl⟩))

/-- There is one width for each cell of the first row. -/
theorem length_widths (row : Row) (rows : List Row) :
    (widths (row :: rows)).length = row.length := by
  rw [widths, List.length_map, List.length_range]

/-- The widths of a table are those of its columns. -/
theorem isGreatest_widths {rows : List Row} {i w : Nat} (h : (widths rows)[i]? = some w) :
    IsGreatest {n | ∃ row ∈ rows, n = (cellAt row i).length} w := by
  cases rows with
  | nil => cases h
  | cons row rows =>
    have hi : i < row.length := by
      rw [← length_widths row rows]
      exact (List.getElem?_eq_some_iff.mp h).1
    rw [widths, List.getElem?_map, List.getElem?_range hi] at h
    cases h
    exact isGreatest_width (List.cons_ne_nil _ _) i

/-! ### Offsets -/

/-- The columns in front of a column, each with the spaces that end it. -/
def before (ws : List Nat) (i : Nat) : Nat := ((ws.take i).map fun w => w + 4).sum

theorem before_cons_succ (w : Nat) (ws : List Nat) (i : Nat) :
    before (w :: ws) (i + 1) = w + 4 + before ws i := rfl

/-- A text of cells and spaces: the cells of a row stand in it whole, at the offsets of their
columns behind `start`, at least four spaces apart, and nothing follows the last of them. -/
structure Stands (start : Nat) (ws : List Nat) (row : Row) (text : List Char) : Prop where
  cell : ∀ {i : Nat} {cell : List Char}, row[i]? = some cell →
    cell <+: text.drop (start + before ws i)
  apart : ∀ {i : Nat} {cell : List Char}, row[i]? = some cell → i + 1 < row.length →
    before ws i + cell.length + 4 ≤ before ws (i + 1)
  space : ∀ {k : Nat} {c : Char}, text[k]? = some c →
    (∀ (i : Nat) (cell : List Char), row[i]? = some cell →
      k < start + before ws i ∨ start + before ws i + cell.length ≤ k) → c = ' '
  length_eq : ∀ {cell : List Char}, row.getLast? = some cell →
    text.length = start + before ws (row.length - 1) + cell.length

/-- Spaces in front of a text move its cells. -/
theorem Stands.indented {ws : List Nat} {row : Row} {text lead : List Char}
    (h : Stands 0 ws row text) (hlead : ∀ c ∈ lead, c = ' ') :
    Stands lead.length ws row (lead ++ text) where
  cell hcell := by
    rw [List.drop_length_add_append, ← Nat.zero_add (before ws _)]
    exact h.cell hcell
  apart := h.apart
  space {k c} hc houtside := by
    by_cases hk : k < lead.length
    · rw [List.getElem?_append_left hk] at hc
      exact hlead c (List.mem_of_getElem? hc)
    · rw [List.getElem?_append_right (Nat.not_lt.mp hk)] at hc
      refine h.space hc fun i cell hcell => ?_
      have := houtside i cell hcell
      omega
  length_eq hcell := by
    rw [List.length_append, h.length_eq hcell]
    omega

/-- A row with one cell more: what follows the cell is moved by the whole column. -/
theorem Stands.cons {w n : Nat} {ws : List Nat} {cell : List Char} {rest : Row} {text : List Char}
    (h : Stands 0 ws rest text) (hrest : rest ≠ []) (hn : 4 ≤ n) (hw : cell.length + n = w + 4) :
    Stands 0 (w :: ws) (cell :: rest) (cell ++ (List.replicate n ' ' ++ text)) where
  cell {i c} hc := by
    cases i with
    | zero =>
      cases hc
      exact List.prefix_append _ _
    | succ i =>
      -- the cell and its spaces are as wide as the column, so that all later columns are moved
      -- alike
      have hmoved : 0 + before (w :: ws) (i + 1) =
          cell.length + ((List.replicate n ' ').length + (0 + before ws i)) := by
        rw [before_cons_succ, List.length_replicate]
        omega
      rw [hmoved, List.drop_length_add_append, List.drop_length_add_append]
      exact h.cell hc
  apart {i c} hc hi := by
    cases i with
    | zero =>
      cases hc
      show 0 + cell.length + 4 ≤ w + 4 + 0
      omega
    | succ i =>
      have := h.apart hc (Nat.lt_of_succ_lt_succ hi)
      rw [before_cons_succ, before_cons_succ]
      omega
  space {k c} hc houtside := by
    -- a place outside all cells is behind the first one
    have hcell : cell.length ≤ k := by
      have : k < 0 + 0 ∨ 0 + 0 + cell.length ≤ k := houtside 0 cell rfl
      omega
    rw [List.getElem?_append_right hcell] at hc
    by_cases hk : k - cell.length < (List.replicate n ' ').length
    · rw [List.getElem?_append_left hk] at hc
      exact List.eq_of_mem_replicate (List.mem_of_getElem? hc)
    · rw [List.getElem?_append_right (Nat.not_lt.mp hk)] at hc
      rw [List.length_replicate] at hc hk
      refine h.space hc fun i c' hc' => ?_
      have hmoved := houtside (i + 1) c' hc'
      rw [before_cons_succ] at hmoved
      omega
  length_eq {c} hc := by
    obtain ⟨next, more, rfl⟩ := List.exists_cons_of_ne_nil hrest
    rw [List.getLast?_cons_cons] at hc
    have hlast := h.length_eq hc
    rw [List.length_append, List.length_append, List.length_replicate, hlast]
    show cell.length + (n + (0 + before ws more.length + c.length)) =
      0 + before (w :: ws) (more.length + 1) + c.length
    rw [before_cons_succ]
    omega

/-- The cells of a row side by side, in columns that are wide enough. -/
theorem stands_joinCells {ws : List Nat} {row : Row} (h : Fits ws row) :
    Stands 0 ws row (joinCells ws row) := by
  induction h with
  | nil => exact ⟨nofun, nofun, nofun, nofun⟩
  | @cons w cell ws rest hcell hrest ih =>
    cases hrest with
    | nil =>
      -- the last cell is the whole text
      refine ⟨?_, ?_, ?_, ?_⟩
      · rintro (_ | i) c hc
        · cases hc
          exact List.prefix_refl _
        · cases hc
      · intro i c hc hi
        exact absurd (Nat.lt_of_succ_lt_succ hi) (Nat.not_lt_zero i)
      · intro k c hc houtside
        have hlt : k < cell.length := (List.getElem?_eq_some_iff.mp hc).1
        have : k < 0 + 0 ∨ 0 + 0 + cell.length ≤ k := houtside 0 cell rfl
        omega
      · rintro c ⟨⟩
        exact (Nat.zero_add _).symm
    | @cons v next ws rest hnext hmore =>
      have hjoin : joinCells (w :: v :: ws) (cell :: next :: rest) =
          cell ++ (List.replicate (w + 4 - cell.length) ' ' ++
            joinCells (v :: ws) (next :: rest)) :=
        List.append_assoc _ _ _
      rw [hjoin]
      exact ih.cons (List.cons_ne_nil _ _) (by omega) (by omega)

/-! ### Lines -/

/-- A line that ends in no blank and is, but for blanks behind its end, a text of the cells of a row
and spaces, with the first cell at an offset of two. -/
structure IsAligned (ws : List Nat) (row : Row) (line : List Char) : Prop where
  trimmed : IsTrimmed line
  stands : ∃ tail, (∀ c ∈ tail, isBlank c = true) ∧ Stands 2 ws row (line ++ tail)

theorem isAligned_line {ws : List Nat} {row : Row} (h : Fits ws row) :
    IsAligned ws row (line ws row) := by
  have hindent : ∀ c ∈ indent, c = ' ' := by simp [indent]
  have htext : Stands 2 ws row (indent ++ joinCells ws row) :=
    (stands_joinCells h).indented hindent
  obtain ⟨tail, heq, htail⟩ := dropRightWhile_append isBlank (indent ++ joinCells ws row)
  refine ⟨fun c hc => not_of_getLast?_dropRightWhile hc, tail, htail, ?_⟩
  rw [heq] at htext
  exact htext

/-- A table with titles and rows of as many cells has one line for the titles, one for the dashes
under them and one for each row, in this order. There is one width for each column, the length of
its widest cell in all lines, and the cells of every line stand at the offsets that these widths
give, with spaces between them, but for the blanks at the end of the line, which are cut off. -/
theorem table_isAligned (titles : Row) (rows : List Row)
    (hrows : ∀ row ∈ rows, row.length = titles.length) :
    let lines := titles :: underline titles :: rows
    (widths lines).length = titles.length ∧
    (∀ i w, (widths lines)[i]? = some w →
      IsGreatest {n | ∃ row ∈ lines, n = (cellAt row i).length} w) ∧
    List.Forall₂ (IsAligned (widths lines)) lines (table titles rows) := by
  intro lines
  have hlengths : ∀ row ∈ lines, row.length = titles.length := by
    rw [List.forall_mem_cons, List.forall_mem_cons]
    exact ⟨rfl, List.length_map _, hrows⟩
  refine ⟨length_widths _ _, fun i w => isGreatest_widths, ?_⟩
  show List.Forall₂ _ lines (lines.map (line (widths lines)))
  rw [List.forall₂_map_right_iff, List.forall₂_same]
  exact fun row hrow => isAligned_line (fits_widths hlengths hrow)

/-- A table with cells that are empty, that end in blanks and that are wider than their titles. -/
theorem table_isAligned_raggedCells :
    let rows : List Row := [["a long name".toList, [], []], [[], "x ".toList, [' ']]]
    (∀ row ∈ rows, row.length = 3) ∧
    table ["Name".toList, "Of".toList, "To".toList] rows =
      ["  Name           Of    To".toList, "  ----           --    --".toList,
        "  a long name".toList, "                 x".toList] ∧
    List.Forall₂ (IsAligned [11, 2, 2])
      (["Name".toList, "Of".toList, "To".toList] ::
        ["----".toList, "--".toList, "--".toList] :: rows)
      ["  Name           Of    To".toList, "  ----           --    --".toList,
        "  a long name".toList, "                 x".toList] := by
  intro rows
  have hrows : ∀ row ∈ rows, row.length = 3 := by decide
  exact ⟨hrows, rfl, (table_isAligned ["Name".toList, "Of".toList, "To".toList] rows hrows).2.2⟩

end Columns

end AppReport
