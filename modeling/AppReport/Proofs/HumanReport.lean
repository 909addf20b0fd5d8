import AppReport.Proofs.Columns
import AppReport.Report.Human
import AppReport.Text.Pieces
import Mathlib

/-!
# Reading reports back

A report for readers is made of lines, and texts with line feeds in them bring lines of their own
into it. How many lines there are tells how many line feeds were brought in, and a report has the
lines that its layout has if and only if there are none (`Report.lines_human_iff`).

The titles of the sections are the only lines that are neither empty nor indented, so they divide
the lines of a report into its tables. From these all that the report shows is read back, if it is
`Description.IsLegible`: two reports then differ unless they show the same (`Report.human_eq_iff`).
-/

namespace AppReport

open Text Columns

namespace Report

/-! ### The lines of a report -/

/-- The titles of the sections of a report. -/
def sectionTitles : List String := ["About", "Environments", "Services", "Pipelines"]

/-- The rows about the application itself. -/
def aboutRows (d : Description) : List Row :=
  [cells ["Name", d.name], cells ["URI", if d.uri = "" then noneMark else d.uri]]

/-- The rows of a report that show a description. -/
def dataRows (d : Description) : List Row :=
  aboutRows d ++ d.environments.map environmentCells ++ d.services.map serviceCells
    ++ d.pipelines.map fun p => cells [p.name]

/-- The number of line feeds that a description brings into its report: those in the rows that show
it, but for the blanks at the ends of rows. -/
def strayFeeds (d : Description) : Nat := ((dataRows d).map feeds).sum

/-- The number of lines that the layout of a report has. -/
def lineCount (d : Description) : Nat :=
  19 + d.environments.length + d.services.length + d.pipelines.length

/-- Whether a line is neither empty nor indented. -/
def isHeading (line : List Char) : Bool := line ≠ [] && !indent.isPrefixOf line

/-- A layout has as many lines as it should. -/
theorem length_humanLines (d : Description) : (humanLines d).length = lineCount d := by
  simp [humanLines, aboutLines, sectionLines, table, layOut, lineCount]
  omega

theorem sum_count_layOut (rows : List Row) :
    ((layOut rows).map (List.count '\n')).sum = (rows.map feeds).sum := by
  rw [layOut, List.map_map]
  exact congrArg List.sum (List.map_congr_left fun row _ => count_line _ row)

/-- A table has the line feeds of its rows: there is none in its titles. -/
theorem sum_count_table {titles : Row} (htitles : ∀ title ∈ titles, '\n' ∉ title)
    (rows : List Row) :
    ((table titles rows).map (List.count '\n')).sum = (rows.map feeds).sum := by
  have hunderline : feeds (underline titles) = 0 := by
    refine feeds_eq_zero fun cell hcell hmem => ?_
    obtain ⟨title, -, rfl⟩ := List.mem_map.mp hcell
    exact absurd (List.eq_of_mem_replicate hmem) (by decide)
  rw [table, sum_count_layOut, List.map_cons, List.map_cons, List.sum_cons, List.sum_cons,
    feeds_eq_zero htitles, hunderline, Nat.zero_add, Nat.zero_add]

/-- Only the rows that show a description bring line feeds into its report. -/
theorem sum_count_humanLines (d : Description) :
    ((humanLines d).map (List.count '\n')).sum = strayFeeds d := by
  have hsection : ∀ title ∈ sectionTitles, title.toList.count '\n' = 0 := by decide
  simp only [sectionTitles, List.forall_mem_cons] at hsection
  simp only [humanLines, aboutLines, sectionLines, strayFeeds, dataRows, aboutRows, List.map_append,
    List.map_cons, List.sum_append, List.sum_cons, List.count_nil, hsection, sum_count_layOut]
  rw [sum_count_table (by decide), sum_count_table (by decide), sum_count_table (by decide)]
  simp

/-- A text has one line feed for each of its lines, and those within them. -/
theorem count_flatMap_feed (lines : List (List Char)) :
    (lines.flatMap fun line => line ++ ['\n']).count '\n' =
      lines.length + (lines.map (List.count '\n')).sum := by
  induction lines with
  | nil => rfl
  | cons line lines ih =>
    rw [List.flatMap_cons, List.count_append, List.count_append, ih, List.map_cons, List.sum_cons,
      List.length_cons]
    simp
    omega

/-- Lines without line feeds are read back from what they are joined to. -/
theorem splitOn_flatMap_feed {lines : List (List Char)} (h : ∀ line ∈ lines, '\n' ∉ line) :
    splitOn '\n' (lines.flatMap fun line => line ++ ['\n']) = lines ++ [[]] := by
  induction lines with
  | nil => rfl
  | cons line lines ih =>
    rw [List.forall_mem_cons] at h
    rw [List.flatMap_cons, List.append_assoc, List.singleton_append, splitOn_append_mark h.1,
      ih h.2, List.cons_append]

theorem toList_human (d : Description) :
    (human d).toList = (humanLines d).flatMap fun line => line ++ ['\n'] := by
  rw [human, String.toList_ofList]

/-- Each line feed that is brought into a report makes one line more. -/
theorem length_splitOn_human (d : Description) :
    (splitOn '\n' (human d).toList).length = lineCount d + strayFeeds d + 1 := by
  rw [length_splitOn, toList_human, count_flatMap_feed, length_humanLines, sum_count_humanLines]

/-- The lines of a report are those of its layout, unless line feeds are brought into it. -/
theorem splitOn_human {d : Description} (h : strayFeeds d = 0) :
    splitOn '\n' (human d).toList = humanLines d ++ [[]] := by
  rw [toList_human]
  rw [← sum_count_humanLines, List.sum_eq_zero_iff_forall_eq_nat] at h
  exact splitOn_flatMap_feed fun line hline =>
    List.count_eq_zero.mp (h _ (List.mem_map_of_mem hline))

/-! ### Headings -/

theorem isHeading_line (ws : List Nat) (row : Row) : isHeading (line ws row) = false := by
  rcases line_eq_nil_or_indented ws row with h | h
  · rw [h]
    rfl
  · simp [isHeading, List.isPrefixOf_iff_prefix.mpr h]

/-- The lines of a table are indented. -/
theorem isHeading_of_mem_layOut {rows : List Row} {line : List Char} (h : line ∈ layOut rows) :
    isHeading line = false := by
  obtain ⟨row, -, rfl⟩ := List.mem_map.mp h
  exact isHeading_line _ row

theorem filter_isHeading_layOut (rows : List Row) : (layOut rows).filter isHeading = [] :=
  List.filter_eq_nil_iff.mpr fun _ h => by simp [isHeading_of_mem_layOut h]

/-- The titles of the sections are the only lines that are not indented. -/
theorem filter_isHeading_humanLines (d : Description) :
    (humanLines d).filter isHeading = sectionTitles.map String.toList := by
  have hsection : ∀ title ∈ sectionTitles, isHeading title.toList = true := by decide
  simp only [sectionTitles, List.forall_mem_cons] at hsection
  have hempty : isHeading [] = false := rfl
  simp only [humanLines, aboutLines, sectionLines, table, List.filter_append, List.filter_cons,
    filter_isHeading_layOut, hsection, hempty, sectionTitles, Bool.false_eq_true, if_true, if_false,
    List.nil_append, List.cons_append, List.map_cons, List.map_nil]

/-- A report has a line for each line of its layout, and one more for each line feed that is brought
into it. It has the lines of its layout, among which the titles of the sections are the only ones
that are neither empty nor indented, exactly if no line feed is brought into it. -/
theorem lines_human_iff (d : Description) :
    (splitOn '\n' (human d).toList).length = lineCount d + strayFeeds d + 1 ∧
    ((∃ lines, splitOn '\n' (human d).toList = lines ++ [[]] ∧ lines.length = lineCount d ∧
      lines.filter isHeading = sectionTitles.map String.toList) ↔ strayFeeds d = 0) := by
  refine ⟨length_splitOn_human d, ?_, fun h => ?_⟩
  · rintro ⟨lines, hsplit, hlength, -⟩
    have hcount := length_splitOn_human d
    rw [hsplit, List.length_append, hlength, List.length_singleton] at hcount
    omega
  · exact ⟨humanLines d, splitOn_human h, length_humanLines d, filter_isHeading_humanLines d⟩

/-- A description with a line feed in its name. -/
def twoLineName : Description := ⟨"my-app\nServices", "", [], [], []⟩

/-- A name with a line feed in it shows a title of its choice. -/
theorem lines_human_twoLineName :
    (splitOn '\n' (human twoLineName).toList).filter isHeading =
      ["About", "Services", "Environments", "Services", "Pipelines"].map String.toList ∧
    ¬ ∃ lines, splitOn '\n' (human twoLineName).toList = lines ++ [[]] ∧
      lines.length = lineCount twoLineName ∧
      lines.filter isHeading = sectionTitles.map String.toList := by
  have hstray : strayFeeds twoLineName = 1 := by decide +kernel
  refine ⟨by rw [toList_human]; decide +kernel, ?_⟩
  rintro ⟨lines, hsplit, hlines, -⟩
  have hlength := length_splitOn_human twoLineName
  rw [hsplit, List.length_append, hlines, hstray] at hlength
  cases hlength

end Report

/-! ### What a report shows -/

/-- The texts that a report for readers shows of a description. -/
def Description.shownTexts (d : Description) : List String :=
  [d.name, d.uri] ++ d.environments.flatMap (fun view => [view.name, view.accountId, view.region])
    ++ d.services.flatMap (fun view => [view.name, view.type]) ++ d.pipelines.map Pipeline.name

/-- A description whose report for readers tells apart all that it shows: no text has a line feed in
it or ends in a blank, and the address is not what stands for one that is not set. -/
structure Description.IsLegible (d : Description) : Prop where
  not_mem_feed : ∀ s ∈ d.shownTexts, '\n' ∉ s.toList
  trimmed : ∀ s ∈ d.shownTexts, IsTrimmed s.toList
  uri_ne : d.uri ≠ Report.noneMark

namespace Report

/-- The part of a layout that ends with the blank line before the next title. -/
def untilTitle (lines : List (List Char)) : List (List Char) := lines ++ [[]]

/-- A layout as titles and the parts between them. -/
theorem humanLines_eq (d : Description) :
    humanLines d = "About".toList :: [] :: (untilTitle (aboutLines d)
      ++ "Environments".toList :: [] :: (untilTitle
          (table (cells environmentTitles) (d.environments.map environmentCells))
        ++ "Services".toList :: [] :: (untilTitle
            (table (cells serviceTitles) (d.services.map serviceCells))
          ++ "Pipelines".toList :: [] ::
            table (cells pipelineTitles) (d.pipelines.map fun p => cells [p.name])))) := by
  simp [humanLines, sectionLines, untilTitle]

/-- Titles stand at the ends of the parts of a layout only. -/
theorem not_mem_untilTitle_layOut {title : String} (h : isHeading title.toList = true)
    (rows : List Row) : title.toList ∉ untilTitle (layOut rows) := by
  intro hmem
  rcases List.mem_append.mp hmem with hmem | hmem
  · rw [isHeading_of_mem_layOut hmem] at h
    cases h
  · rw [List.mem_singleton.mp hmem] at h
    cases h

/-- The parts of a layout are found between the titles. -/
theorem parts_eq_of_humanLines_eq {d d' : Description} (h : humanLines d = humanLines d') :
    aboutLines d = aboutLines d' ∧
    table (cells environmentTitles) (d.environments.map environmentCells) =
      table (cells environmentTitles) (d'.environments.map environmentCells) ∧
    table (cells serviceTitles) (d.services.map serviceCells) =
      table (cells serviceTitles) (d'.services.map serviceCells) ∧
    table (cells pipelineTitles) (d.pipelines.map fun p => cells [p.name]) =
      table (cells pipelineTitles) (d'.pipelines.map fun p => cells [p.name]) := by
  have hsection : ∀ title ∈ sectionTitles, isHeading title.toList = true := by decide
  simp only [sectionTitles, List.forall_mem_cons] at hsection
  obtain ⟨-, henvironments, hservices, hpipelines, -⟩ := hsection
  -- a title ends the part before it, as it does not stand in any part
  rw [humanLines_eq, humanLines_eq, List.cons_inj_right, List.cons_inj_right] at h
  obtain ⟨habout, h⟩ := append_cons_inj (not_mem_untilTitle_layOut henvironments _)
    (not_mem_untilTitle_layOut henvironments _) h
  obtain ⟨hfirst, h⟩ := append_cons_inj (not_mem_untilTitle_layOut hservices _)
    (not_mem_untilTitle_layOut hservices _) (List.cons.inj h).2
  obtain ⟨hsecond, h⟩ := append_cons_inj (not_mem_untilTitle_layOut hpipelines _)
    (not_mem_untilTitle_layOut hpipelines _) (List.cons.inj h).2
  exact ⟨List.append_cancel_right habout, List.append_cancel_right hfirst,
    List.append_cancel_right hsecond, (List.cons.inj h).2⟩

/-! ### Cells -/

theorem cells_injective : Function.Injective cells :=
  List.map_injective_iff.mpr fun _ _ h => String.toList_injective h

/-- The cells of an environment show all of it. -/
theorem environmentCells_injective : Function.Injective environmentCells := by
  intro view view' h
  have htexts := cells_injective h
  simp only [List.cons.injEq, and_true] at htexts
  obtain ⟨hname, haccount, hregion, hprod⟩ := htexts
  have hsame : view.prod = view'.prod := by
    cases hleft : view.prod <;> cases hright : view'.prod <;> simp_all
  cases view
  cases view'
  simp_all

/-- The cells of a service show all of it. -/
theorem serviceCells_injective : Function.Injective serviceCells := by
  intro view view' h
  have htexts := cells_injective h
  cases view
  cases view'
  simpa using htexts

/-- The texts that a report shows of itself. -/
def ownTexts : List String := ["Name", "URI", noneMark, "yes", "no"]

/-- A row with a number of texts that all have a property. -/
def HoldsTexts (P : String → Prop) (columns : Nat) (row : Row) : Prop :=
  ∃ texts : List String, texts.length = columns ∧ (∀ s ∈ texts, P s) ∧ row = cells texts

variable {P : String → Prop} {d : Description}

/-- The rows about the application hold texts that are shown, and texts of the report itself. -/
theorem holdsTexts_aboutRows (hown : ∀ s ∈ ownTexts, P s) (h : ∀ s ∈ d.shownTexts, P s) :
    ∀ row ∈ aboutRows d, HoldsTexts P 2 row := by
  simp only [ownTexts, Description.shownTexts, List.forall_mem_append, List.forall_mem_cons]
    at hown h
  obtain ⟨hname, huri, hnone, -⟩ := hown
  simp only [aboutRows, List.forall_mem_cons]
  refine ⟨⟨_, rfl, by simp [hname, h], rfl⟩, ⟨_, rfl, ?_, rfl⟩, by simp⟩
  split <;> simp [huri, hnone, h]

/-- The rows of the environments hold texts that are shown, and the marks of production. -/
theorem holdsTexts_environments (hown : ∀ s ∈ ownTexts, P s) (h : ∀ s ∈ d.shownTexts, P s) :
    ∀ row ∈ d.environments.map environmentCells, HoldsTexts P 4 row := by
  simp only [ownTexts, List.forall_mem_cons] at hown
  intro row hrow
  obtain ⟨view, hview, rfl⟩ := List.mem_map.mp hrow
  have hshown : ∀ s ∈ [view.name, view.accountId, view.region], P s := fun s hs => h s (by
    simp only [Description.shownTexts, List.mem_append, List.mem_flatMap]
    exact Or.inl (Or.inl (Or.inr ⟨view, hview, hs⟩)))
  refine ⟨_, rfl, ?_, rfl⟩
  cases view.prod <;> simp_all

theorem holdsTexts_services (h : ∀ s ∈ d.shownTexts, P s) :
    ∀ row ∈ d.services.map serviceCells, HoldsTexts P 2 row := by
  intro row hrow
  obtain ⟨view, hview, rfl⟩ := List.mem_map.mp hrow
  refine ⟨_, rfl, fun s hs => h s ?_, rfl⟩
  simp only [Description.shownTexts, List.mem_append, List.mem_flatMap]
  exact Or.inl (Or.inr ⟨view, hview, hs⟩)

theorem holdsTexts_pipelines (h : ∀ s ∈ d.shownTexts, P s) :
    ∀ row ∈ d.pipelines.map fun p => cells [p.name], HoldsTexts P 1 row := by
  intro row hrow
  obtain ⟨p, hp, rfl⟩ := List.mem_map.mp hrow
  refine ⟨_, rfl, fun s hs => h s ?_, rfl⟩
  rw [List.mem_singleton.mp hs, Description.shownTexts, List.mem_append]
  exact Or.inr (List.mem_map_of_mem hp)

/-- A text that neither begins nor ends with a blank is a title. -/
theorem isTitle_of_mem_cells (titles : List String)
    (h : ∀ s ∈ titles, s.toList.head? ≠ some ' ' ∧ s.toList ≠ [] ∧ IsTrimmed s.toList) :
    ∀ title ∈ cells titles, IsTitle title := by
  intro title htitle
  obtain ⟨s, hs, rfl⟩ := List.mem_map.mp htitle
  obtain ⟨hhead, hne, htrimmed⟩ := h s hs
  obtain ⟨c, rest, heq⟩ := List.exists_cons_of_ne_nil hne
  refine ⟨⟨c, rest, heq, ?_⟩, htrimmed⟩
  rintro rfl
  exact hhead (by rw [heq]; rfl)

theorem HoldsTexts.isTidy {columns : Nat} {row : Row}
    (h : HoldsTexts (fun s => IsTrimmed s.toList) columns row) : IsTidy columns row := by
  obtain ⟨texts, hlength, htrimmed, rfl⟩ := h
  refine ⟨(List.length_map _).trans hlength, fun cell hcell => ?_⟩
  obtain ⟨s, hs, rfl⟩ := List.mem_map.mp hcell
  exact htrimmed s hs

theorem HoldsTexts.feeds_eq_zero {columns : Nat} {row : Row}
    (h : HoldsTexts (fun s => '\n' ∉ s.toList) columns row) : feeds row = 0 := by
  obtain ⟨texts, -, hfeed, rfl⟩ := h
  refine Columns.feeds_eq_zero fun cell hcell => ?_
  obtain ⟨s, hs, rfl⟩ := List.mem_map.mp hcell
  exact hfeed s hs

/-! ### Reports that show the same -/

/-- A legible description brings no line feed into its report. -/
theorem strayFeeds_eq_zero (h : d.IsLegible) : strayFeeds d = 0 := by
  have hown : ∀ s ∈ ownTexts, '\n' ∉ s.toList := by decide
  rw [strayFeeds, List.sum_eq_zero_iff_forall_eq_nat]
  simp only [dataRows, List.map_append, List.forall_mem_append, List.forall_mem_map]
  refine ⟨⟨⟨fun row hrow => ?_, fun view hview => ?_⟩, fun view hview => ?_⟩, fun p hp => ?_⟩
  · exact (holdsTexts_aboutRows hown h.not_mem_feed row hrow).feeds_eq_zero
  · exact (holdsTexts_environments hown h.not_mem_feed _ (List.mem_map_of_mem hview)).feeds_eq_zero
  · exact (holdsTexts_services h.not_mem_feed _ (List.mem_map_of_mem hview)).feeds_eq_zero
  · exact (holdsTexts_pipelines h.not_mem_feed _ (List.mem_map_of_mem hp)).feeds_eq_zero

/-- The rows about the application show its name and its address, as long as an address does not
look like none. -/
theorem aboutRows_inj {d' : Description} (h : d.uri ≠ noneMark) (h' : d'.uri ≠ noneMark)
    (hrows : aboutRows d = aboutRows d') : d.name = d'.name ∧ d.uri = d'.uri := by
  obtain ⟨hname, hrest⟩ := List.cons.inj hrows
  have hshown := cells_injective (List.cons.inj hrest).1
  have hname := cells_injective hname
  simp only [List.cons.injEq, true_and, and_true] at hname hshown
  refine ⟨hname, ?_⟩
  -- an empty address is shown as a mark, which is no address here
  by_cases huri : d.uri = "" <;> by_cases huri' : d'.uri = ""
  · rw [huri, huri']
  · rw [if_pos huri, if_neg huri'] at hshown
    exact absurd hshown.symm h'
  · rw [if_neg huri, if_pos huri'] at hshown
    exact absurd hshown h
  · rwa [if_neg huri, if_neg huri'] at hshown

/-- The rows about the application are read back from their lines: the first column shows nothing
of it. -/
theorem aboutRows_eq_of_aboutLines_eq {d' : Description} (h : d.IsLegible) (h' : d'.IsLegible)
    (hlines : aboutLines d = aboutLines d') : aboutRows d = aboutRows d' := by
  have hown : ∀ s ∈ ownTexts, IsTrimmed s.toList := by decide
  have hwidths : ∀ d, (widths (aboutRows d)).dropLast = [4] := fun _ => rfl
  exact rows_eq_of_layOut_eq
    (fun row hrow => (holdsTexts_aboutRows hown h.trimmed row hrow).isTidy)
    (fun row hrow => (holdsTexts_aboutRows hown h'.trimmed row hrow).isTidy)
    ((hwidths d).trans (hwidths d').symm) hlines

/-- Two legible reports are the same exactly if they show the same. -/
theorem human_eq_iff {d' : Description} (h : d.IsLegible) (h' : d'.IsLegible) :
    human d = human d' ↔
      d.name = d'.name ∧ d.uri = d'.uri ∧ d.environments = d'.environments ∧
      d.services = d'.services ∧
      d.pipelines.map Pipeline.name = d'.pipelines.map Pipeline.name := by
  have hpipelines : ∀ d : Description, (d.pipelines.map fun p => cells [p.name]) =
      (d.pipelines.map Pipeline.name).map fun name => cells [name] := by simp
  constructor
  · intro heq
    have hown : ∀ s ∈ ownTexts, IsTrimmed s.toList := by decide
    -- from the text to its lines, from these to the tables, and from each table to its rows
    have hlines : humanLines d = humanLines d' := by
      have hsplit := splitOn_human (strayFeeds_eq_zero h)
      rw [heq, splitOn_human (strayFeeds_eq_zero h')] at hsplit
      exact (List.append_cancel_right hsplit).symm
    obtain ⟨habout, hfirst, hsecond, hthird⟩ := parts_eq_of_humanLines_eq hlines
    have henvironments := rows_eq_of_table_eq (isTitle_of_mem_cells environmentTitles (by decide))
      (fun row hrow => (holdsTexts_environments hown h.trimmed row hrow).isTidy)
      (fun row hrow => (holdsTexts_environments hown h'.trimmed row hrow).isTidy) hfirst
    have hservices := rows_eq_of_table_eq (isTitle_of_mem_cells serviceTitles (by decide))
      (fun row hrow => (holdsTexts_services h.trimmed row hrow).isTidy)
      (fun row hrow => (holdsTexts_services h'.trimmed row hrow).isTidy) hsecond
    have hnames := rows_eq_of_table_eq (isTitle_of_mem_cells pipelineTitles (by decide))
      (fun row hrow => (holdsTexts_pipelines h.trimmed row hrow).isTidy)
      (fun row hrow => (holdsTexts_pipelines h'.trimmed row hrow).isTidy) hthird
    rw [hpipelines, hpipelines] at hnames
    have hrows := aboutRows_eq_of_aboutLines_eq h h' habout
    obtain ⟨hname, huri⟩ := aboutRows_inj h.uri_ne h'.uri_ne hrows
    have hcell : Function.Injective fun name => cells [name] := fun _ _ hcells =>
      (List.cons.inj (cells_injective hcells)).1
    exact ⟨hname, huri, List.map_injective_iff.mpr environmentCells_injective henvironments,
      List.map_injective_iff.mpr serviceCells_injective hservices,
      List.map_injective_iff.mpr hcell hnames⟩
  · rintro ⟨hname, huri, henvironments, hservices, hnames⟩
    rw [human, human, humanLines, humanLines, aboutLines, aboutLines, hpipelines, hpipelines d',
      hname, huri, henvironments, hservices, hnames]

/-- A description with a service whose name has spaces in it. -/
def spacedService : Description := ⟨"my-app", "", [], [⟨"a       b", ""⟩], []⟩

/-- A description with a service whose name and type stand apart by as many spaces. -/
def typedService : Description := ⟨"my-app", "", [], [⟨"a", "b"⟩], []⟩

/-- Spaces in a name are told apart from those between two columns. -/
theorem human_ne_spaced_typed :
    spacedService.IsLegible ∧ typedService.IsLegible ∧
      human spacedService ≠ human typedService := by
  have hspaced : spacedService.IsLegible := ⟨by decide, by decide, by decide⟩
  have htyped : typedService.IsLegible := ⟨by decide, by decide, by decide⟩
  refine ⟨hspaced, htyped, fun heq => ?_⟩
  obtain ⟨-, -, -, hservices, -⟩ := (human_eq_iff hspaced htyped).mp heq
  exact absurd hservices (by decide)

end Report

end AppReport
