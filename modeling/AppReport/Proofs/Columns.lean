import AppReport.Report.Columns
import Mathlib.Data.List.Forall2

/-!
# Reading aligned columns back

A line of a table is empty or begins with the indent (`line_eq_nil_or_indented`). What follows the
indent is its `content`: all cells but the last one that shows something are as wide as their
columns. So the first line of a table, which shows the titles, tells how wide the columns are
(`dropLast_eq_of_content_eq`), and the widths tell where the cells of the other lines begin
(`row_eq_of_content_eq`). Hence tables with the same titles and the same lines have the same rows,
as long as no cell ends in a blank (`rows_eq_of_table_eq`).

Line feeds in cells get into the line, except for those among the blanks at its end (`count_line`).
-/

namespace AppReport

open Text

/-- A text that does not end in a blank. -/
def IsTrimmed (cs : List Char) : Prop := ∀ c ∈ cs.getLast?, isBlank c = false

instance (cs : List Char) : Decidable (IsTrimmed cs) :=
  decidable_of_iff (cs.getLast?.all fun c => !isBlank c) (by
    rw [IsTrimmed]
    cases cs.getLast? <;> simp)

theorem IsTrimmed.trimRight_eq {cs : List Char} (h : IsTrimmed cs) : trimRight cs = cs :=
  dropRightWhile_eq_self h

/-- No text is left of spaces. -/
theorem trimRight_replicate (n : Nat) : trimRight (List.replicate n ' ') = [] := by
  rw [trimRight, dropRightWhile, List.reverse_replicate, List.dropWhile_replicate]
  rfl

/-- Two texts are the same that are cut at the first place where a value stands. -/
theorem append_cons_inj {α : Type} {x : α} {as as' bs bs' : List α} (has : x ∉ as)
    (has' : x ∉ as') (h : as ++ x :: bs = as' ++ x :: bs') : as = as' ∧ bs = bs' := by
  induction as generalizing as' with
  | nil => cases as' with
    | nil => exact ⟨rfl, (List.cons.inj h).2⟩
    | cons a' as' => exact absurd (List.cons.inj h).1 fun heq => has' (heq ▸ List.mem_cons_self)
  | cons a as ih => cases as' with
    | nil => exact absurd (List.cons.inj h).1 fun heq => has (heq ▸ List.mem_cons_self)
    | cons a' as' =>
      obtain ⟨rfl, hrest⟩ := List.cons.inj h
      rw [List.mem_cons, not_or] at has has'
      obtain ⟨rfl, rfl⟩ := ih has.2 has'.2 hrest
      exact ⟨rfl, rfl⟩

namespace Columns

/-! ### The content of a line -/

/-- A line without its indent. -/
def content (ws : List Nat) (row : Row) : List Char := trimRight (joinCells ws row)

theorem line_of_content_eq_nil {ws : List Nat} {row : Row} (h : content ws row = []) :
    line ws row = [] :=
  dropRightWhile_append_of_eq_nil h indent

theorem line_of_content_ne_nil {ws : List Nat} {row : Row} (h : content ws row ≠ []) :
    line ws row = indent ++ content ws row :=
  dropRightWhile_append_of_ne_nil h indent

theorem line_eq_nil_or_indented (ws : List Nat) (row : Row) :
    line ws row = [] ∨ indent <+: line ws row := by
  by_cases h : content ws row = []
  · exact Or.inl (line_of_content_eq_nil h)
  · rw [line_of_content_ne_nil h]
    exact Or.inr (List.prefix_append _ _)

/-- Lines with the same characters have the same content. -/
theorem content_eq_of_line_eq {ws ws' : List Nat} {row row' : Row}
    (h : line ws row = line ws' row') : content ws row = content ws' row' := by
  by_cases hrow : content ws row = [] <;> by_cases hrow' : content ws' row' = []
  · rw [hrow, hrow']
  · rw [line_of_content_eq_nil hrow, line_of_content_ne_nil hrow'] at h
    cases h
  · rw [line_of_content_ne_nil hrow, line_of_content_eq_nil hrow'] at h
    cases h
  · rw [line_of_content_ne_nil hrow, line_of_content_ne_nil hrow'] at h
    exact List.append_cancel_left h

theorem trimRight_pad (w : Nat) (cell : List Char) : trimRight (pad w cell) = trimRight cell :=
  dropRightWhile_append_of_eq_nil (trimRight_replicate _) cell

theorem length_pad {w : Nat} {cell : List Char} (h : cell.length ≤ w) :
    (pad w cell).length = w + padding := by
  rw [pad, List.length_append, List.length_replicate]
  omega

theorem content_singleton (ws : List Nat) (cell : List Char) :
    content ws [cell] = trimRight cell := by
  cases ws <;> rfl

/-- Where nothing follows a cell, it ends the line without the blanks that fill its column. -/
theorem content_of_rest_eq_nil {w : Nat} {ws : List Nat} {cell next : List Char} {rest : Row}
    (h : content ws (next :: rest) = []) :
    content (w :: ws) (cell :: next :: rest) = trimRight cell :=
  (dropRightWhile_append_of_eq_nil h (pad w cell)).trans (trimRight_pad w cell)

/-- What follows a cell stands behind its whole column. -/
theorem content_of_rest_ne_nil {w : Nat} {ws : List Nat} {cell next : List Char} {rest : Row}
    (h : content ws (next :: rest) ≠ []) :
    content (w :: ws) (cell :: next :: rest) = pad w cell ++ content ws (next :: rest) :=
  dropRightWhile_append_of_ne_nil h (pad w cell)

/-! ### Cells behind given widths -/

/-- The cells of a row are no wider than their columns. -/
abbrev Fits (ws : List Nat) (row : Row) : Prop :=
  List.Forall₂ (fun w cell => cell.length ≤ w) ws row

/-- A cell at the end of a line is shorter than one that something follows. -/
theorem trimRight_ne_pad_append {w : Nat} {cell cell' : List Char} (hcell : cell.length ≤ w)
    (hcell' : cell'.length ≤ w) (htrimmed : IsTrimmed cell) (rest : List Char) :
    trimRight cell ≠ pad w cell' ++ rest := by
  intro h
  have hlength := congrArg List.length h
  rw [htrimmed.trimRight_eq, List.length_append, length_pad hcell'] at hlength
  have hpadding : 0 < padding := by decide
  omega

/-- Rows are read back from their lines where all columns but the last one are equally wide. -/
theorem row_eq_of_content_eq {ws ws' : List Nat} {row row' : Row} (hfits : Fits ws row)
    (hfits' : Fits ws' row') (hws : ws.dropLast = ws'.dropLast)
    (htrimmed : ∀ cell ∈ row, IsTrimmed cell) (htrimmed' : ∀ cell ∈ row', IsTrimmed cell)
    (h : content ws row = content ws' row') (hlength : row.length = row'.length) : row = row' := by
  induction hfits generalizing ws' row' with
  | nil => exact (List.eq_nil_of_length_eq_zero hlength.symm).symm
  | @cons w cell ws rest hcell hrest ih =>
    cases hfits' with
    | nil => cases hlength
    | @cons w' cell' ws' rest' hcell' hrest' =>
      rw [List.forall_mem_cons] at htrimmed htrimmed'
      cases hrest with
      | nil =>
        -- the last cell is the whole content
        obtain rfl := List.eq_nil_of_length_eq_zero (Nat.succ.inj hlength).symm
        rw [content_singleton, content_singleton, htrimmed.1.trimRight_eq,
          htrimmed'.1.trimRight_eq] at h
        rw [h]
      | @cons v next ws rest hnext hmore =>
        cases hrest' with
        | nil => cases Nat.succ.inj hlength
        | @cons v' next' ws' rest' hnext' hmore' =>
          obtain ⟨rfl, htail⟩ := List.cons.inj hws
          have hread := ih (.cons hnext' hmore') htail htrimmed.2 htrimmed'.2
          by_cases hshown : content (v :: ws) (next :: rest) = [] <;>
            by_cases hshown' : content (v' :: ws') (next' :: rest') = []
          · rw [content_of_rest_eq_nil hshown, content_of_rest_eq_nil hshown',
              htrimmed.1.trimRight_eq, htrimmed'.1.trimRight_eq] at h
            rw [h, hread (hshown.trans hshown'.symm) (Nat.succ.inj hlength)]
          · rw [content_of_rest_eq_nil hshown, content_of_rest_ne_nil hshown'] at h
            exact absurd h (trimRight_ne_pad_append hcell hcell' htrimmed.1 _)
          · rw [content_of_rest_ne_nil hshown, content_of_rest_eq_nil hshown'] at h
            exact absurd h.symm (trimRight_ne_pad_append hcell' hcell htrimmed'.1 _)
          · rw [content_of_rest_ne_nil hshown, content_of_rest_ne_nil hshown'] at h
            -- both cells fill the column, so that the rest begins at the same offset
            obtain ⟨hpad, hcontent⟩ :=
              List.append_inj h ((length_pad hcell).trans (length_pad hcell').symm)
            have hcells := congrArg trimRight hpad
            rw [trimRight_pad, trimRight_pad, htrimmed.1.trimRight_eq,
              htrimmed'.1.trimRight_eq] at hcells
            rw [hcells, hread hcontent (Nat.succ.inj hlength)]

/-! ### Widths behind given titles -/

/-- A text that neither begins with a space nor ends in a blank, and is not empty. -/
structure IsTitle (cs : List Char) : Prop where
  head : ∃ c rest, cs = c :: rest ∧ c ≠ ' '
  trimmed : IsTrimmed cs

/-- The content of a line begins as its title does. -/
theorem exists_content_eq_cons {c : Char} {cs : List Char} (h : IsTrimmed (c :: cs))
    (ws : List Nat) (rest : Row) : ∃ more, content ws ((c :: cs) :: rest) = c :: more := by
  cases rest with
  | nil => exact ⟨cs, by rw [content_singleton, h.trimRight_eq]⟩
  | cons next rest =>
    obtain ⟨w, ws', heq⟩ : ∃ w ws', content ws ((c :: cs) :: next :: rest) =
        content (w :: ws') ((c :: cs) :: next :: rest) := by
      cases ws with
      | nil => exact ⟨0, [], rfl⟩
      | cons w ws => exact ⟨w, ws, rfl⟩
    rw [heq]
    by_cases hshown : content ws' (next :: rest) = []
    · exact ⟨cs, by rw [content_of_rest_eq_nil hshown, h.trimRight_eq]⟩
    · rw [content_of_rest_ne_nil hshown]
      exact ⟨_, rfl⟩

/-- The widths of all columns but the last one are read off the line of titles. -/
theorem dropLast_eq_of_content_eq {ws ws' : List Nat} {titles : Row} (hfits : Fits ws titles)
    (hfits' : Fits ws' titles) (htitles : ∀ title ∈ titles, IsTitle title)
    (h : content ws titles = content ws' titles) : ws.dropLast = ws'.dropLast := by
  induction hfits generalizing ws' with
  | nil =>
    cases hfits'
    rfl
  | @cons w title ws rest htitle hrest ih =>
    cases hfits' with
    | @cons w' _ ws' _ htitle' hrest' =>
      rw [List.forall_mem_cons] at htitles
      cases hrest with
      | nil =>
        cases hrest'
        rfl
      | @cons v next ws rest hnext hmore =>
        cases hrest' with
        | @cons v' _ ws' _ hnext' hmore' =>
          obtain ⟨c, cs, rfl, hc⟩ := (htitles.2 next List.mem_cons_self).head
          have hnextTrimmed := (htitles.2 _ List.mem_cons_self).trimmed
          obtain ⟨more, hcontent⟩ := exists_content_eq_cons hnextTrimmed (v :: ws) rest
          obtain ⟨more', hcontent'⟩ := exists_content_eq_cons hnextTrimmed (v' :: ws') rest
          rw [content_of_rest_ne_nil (by rw [hcontent]; exact List.cons_ne_nil _ _),
            content_of_rest_ne_nil (by rw [hcontent']; exact List.cons_ne_nil _ _),
            pad, pad, List.append_assoc, List.append_assoc, hcontent, hcontent'] at h
          -- the spaces behind the title reach as far as the next title
          have hnot : ∀ n, c ∉ List.replicate n ' ' :=
            fun _ hmem => hc (List.eq_of_mem_replicate hmem)
          obtain ⟨hspaces, hmore⟩ :=
            append_cons_inj (hnot _) (hnot _) (List.append_cancel_left h)
          have hwidth : w = w' := by
            have hlength := congrArg List.length hspaces
            rw [List.length_replicate, List.length_replicate] at hlength
            omega
          have hrest := ih (.cons hnext' hmore') htitles.2 (by rw [hcontent, hcontent', hmore])
          rw [List.dropLast_cons_of_ne_nil (List.cons_ne_nil _ _),
            List.dropLast_cons_of_ne_nil (List.cons_ne_nil _ _), hwidth, hrest]

/-! ### Tables -/

/-- A row with a number of cells none of which ends in a blank. -/
structure IsTidy (columns : Nat) (row : Row) : Prop where
  length_eq : row.length = columns
  trimmed : ∀ cell ∈ row, IsTrimmed cell

theorem le_foldl_max {n acc : Nat} {ns : List Nat} (h : n ≤ acc ∨ n ∈ ns) :
    n ≤ ns.foldl max acc := by
  induction ns generalizing acc with
  | nil => simpa using h
  | cons m ns ih =>
    refine ih ?_
    rw [List.mem_cons] at h
    rcases h with h | rfl | h
    · exact Or.inl (Nat.le_trans h (Nat.le_max_left _ _))
    · exact Or.inl (Nat.le_max_right _ _)
    · exact Or.inr h

/-- The rows of a table fit the widths of the table. -/
theorem fits_widths {columns : Nat} {rows : List Row} (hlength : ∀ row ∈ rows, row.length = columns)
    {row : Row} (hmem : row ∈ rows) : Fits (widths rows) row := by
  cases rows with
  | nil => cases hmem
  | cons first rest =>
    have hrow : row.length = first.length :=
      (hlength row hmem).trans (hlength first List.mem_cons_self).symm
    refine List.forall₂_iff_get.mpr ⟨by simp [widths, hrow], fun i hi hi' => ?_⟩
    simp only [widths, List.get_eq_getElem, List.getElem_map, List.getElem_range, width]
    refine le_foldl_max (Or.inr (List.mem_map.mpr ⟨row, hmem, ?_⟩))
    rw [List.getD_eq_getElem?_getD, List.getElem?_eq_getElem hi', Option.getD_some]

/-- Rows are read back from their lines where all columns but the last one are equally wide. -/
theorem rows_eq_of_layOut_eq {columns : Nat} {rows rows' : List Row}
    (hrows : ∀ row ∈ rows, IsTidy columns row) (hrows' : ∀ row ∈ rows', IsTidy columns row)
    (hws : (widths rows).dropLast = (widths rows').dropLast) (h : layOut rows = layOut rows') :
    rows = rows' := by
  have hfits : ∀ row ∈ rows, Fits (widths rows) row :=
    fun row hrow => fits_widths (fun r hr => (hrows r hr).length_eq) hrow
  have hfits' : ∀ row ∈ rows', Fits (widths rows') row :=
    fun row hrow => fits_widths (fun r hr => (hrows' r hr).length_eq) hrow
  rw [layOut, layOut] at h
  -- the widths are those of the whole tables, while the rows are compared one by one
  generalize widths rows = ws at hws hfits h
  generalize widths rows' = ws' at hws hfits' h
  induction rows generalizing rows' with
  | nil => exact (List.map_eq_nil_iff.mp h.symm).symm
  | cons row rows ih => cases rows' with
    | nil => cases h
    | cons row' rows' =>
      rw [List.forall_mem_cons] at hrows hrows' hfits hfits'
      obtain ⟨hline, hlines⟩ := List.cons.inj h
      have hrow := row_eq_of_content_eq hfits.1 hfits'.1 hws hrows.1.trimmed hrows'.1.trimmed
        (content_eq_of_line_eq hline) (hrows.1.length_eq.trans hrows'.1.length_eq.symm)
      rw [hrow, ih hrows.2 hrows'.2 hfits.2 hfits'.2 hlines]

theorem isTidy_underline (titles : Row) : IsTidy titles.length (underline titles) where
  length_eq := List.length_map _
  trimmed cell hcell := by
    obtain ⟨title, -, rfl⟩ := List.mem_map.mp hcell
    intro c hc
    rw [List.eq_of_mem_replicate (List.mem_of_getLast? hc)]
    rfl

/-- Tables with the same titles and the same lines have the same rows. -/
theorem rows_eq_of_table_eq {titles : Row} (htitles : ∀ title ∈ titles, IsTitle title)
    {rows rows' : List Row} (hrows : ∀ row ∈ rows, IsTidy titles.length row)
    (hrows' : ∀ row ∈ rows', IsTidy titles.length row)
    (h : table titles rows = table titles rows') : rows = rows' := by
  have hall : ∀ {rows : List Row}, (∀ row ∈ rows, IsTidy titles.length row) →
      ∀ row ∈ titles :: underline titles :: rows, IsTidy titles.length row := by
    intro rows hrows
    rw [List.forall_mem_cons, List.forall_mem_cons]
    exact ⟨⟨rfl, fun title ht => (htitles title ht).trimmed⟩, isTidy_underline titles, hrows⟩
  have hfits : ∀ {rows : List Row}, (∀ row ∈ rows, IsTidy titles.length row) →
      Fits (widths (titles :: underline titles :: rows)) titles := fun hrows =>
    fits_widths (fun row hrow => (hall hrows row hrow).length_eq) List.mem_cons_self
  have hws := dropLast_eq_of_content_eq (hfits hrows) (hfits hrows') htitles
    (content_eq_of_line_eq (List.cons.inj h).1)
  have hsame := rows_eq_of_layOut_eq (hall hrows) (hall hrows') hws h
  exact (List.cons.inj (List.cons.inj hsame).2).2

/-! ### Line feeds in cells -/

/-- The number of line feeds in a row, without those among the blanks at its end. -/
def feeds (row : Row) : Nat := (trimRight row.flatten).count '\n'

/-- Filling a column changes neither whether something is left of a text nor the line feeds in what
is left. -/
theorem count_trimRight_pad_append {w : Nat} {cell as bs : List Char}
    (hnil : trimRight as = [] ↔ trimRight bs = [])
    (hcount : (trimRight as).count '\n' = (trimRight bs).count '\n') :
    (trimRight (pad w cell ++ as) = [] ↔ trimRight (cell ++ bs) = []) ∧
      (trimRight (pad w cell ++ as)).count '\n' = (trimRight (cell ++ bs)).count '\n' := by
  by_cases has : trimRight as = []
  · have hbs := hnil.mp has
    rw [trimRight, trimRight, dropRightWhile_append_of_eq_nil has,
      dropRightWhile_append_of_eq_nil hbs]
    have hpad := trimRight_pad w cell
    rw [trimRight, trimRight] at hpad
    rw [hpad]
    exact ⟨Iff.rfl, rfl⟩
  · have hbs : trimRight bs ≠ [] := fun h => has (hnil.mpr h)
    have hleft := dropRightWhile_append_of_ne_nil has (pad w cell)
    have hright := dropRightWhile_append_of_ne_nil hbs cell
    rw [← trimRight, ← trimRight] at hleft hright
    rw [hleft, hright]
    refine ⟨by simp [has, hbs], ?_⟩
    rw [List.count_append, List.count_append, hcount, pad, List.count_append,
      List.count_replicate, if_neg (by decide), Nat.add_zero]

theorem count_content (ws : List Nat) (row : Row) :
    (content ws row = [] ↔ trimRight row.flatten = []) ∧
      (content ws row).count '\n' = feeds row := by
  rw [content, feeds]
  fun_induction joinCells ws row with
  | case1 => exact ⟨Iff.rfl, rfl⟩
  | case2 ws cell => simp
  | case3 w ws cell rest hrest ih => exact count_trimRight_pad_append ih.1 ih.2
  | case4 cell rest hrest ih => exact count_trimRight_pad_append ih.1 ih.2

/-- A line has as many line feeds as its row. -/
theorem count_line (ws : List Nat) (row : Row) : (line ws row).count '\n' = feeds row := by
  obtain ⟨-, hcount⟩ := count_content ws row
  by_cases h : content ws row = []
  · rw [h] at hcount
    rw [line_of_content_eq_nil h, hcount]
  · rw [line_of_content_ne_nil h, List.count_append, hcount]
    exact Nat.zero_add _

theorem feeds_eq_zero {row : Row} (h : ∀ cell ∈ row, '\n' ∉ cell) : feeds row = 0 := by
  obtain ⟨tail, heq, -⟩ := dropRightWhile_append isBlank row.flatten
  rw [feeds, List.count_eq_zero]
  intro hmem
  have hflatten : '\n' ∈ row.flatten := by
    rw [heq]
    exact List.mem_append_left tail hmem
  obtain ⟨cell, hcell, hfeed⟩ := List.mem_flatten.mp hflatten
  exact h cell hcell hfeed

end Columns

end AppReport
