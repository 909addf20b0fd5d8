import AppReport.Description
import AppReport.Report.Columns

/-!
# The report for readers

Four sections, each with a title, a blank line and aligned columns: the application itself, its
environments, its services and its pipelines.
-/

namespace AppReport.Report

/-- What a report shows for an address that is not set. -/
def noneMark : String := "None"

/-- The titles of the columns for environments. -/
def environmentTitles : List String := ["Name", "AccountID", "Region", "Production"]

/-- The titles of the columns for services. -/
def serviceTitles : List String := ["Name", "Type"]

/-- The titles of the columns for pipelines. -/
def pipelineTitles : List String := ["Name"]

/-- The cells of a row of texts. -/
def cells (texts : List String) : Columns.Row := texts.map String.toList

/-- The cells for an environment. -/
def environmentCells (view : EnvironmentView) : Columns.Row :=
  cells [view.name, view.accountId, view.region, if view.prod then "yes" else "no"]

/-- The cells for a service. -/
def serviceCells (view : WorkloadView) : Columns.Row := cells [view.name, view.type]

/-- The lines about the application itself. -/
def aboutLines (d : Description) : List (List Char) :=
  Columns.layOut [cells ["Name", d.name], cells ["URI", if d.uri = "" then noneMark else d.uri]]

/-- A section: its title between blank lines, and its body. -/
def sectionLines (title : String) (body : List (List Char)) : List (List Char) :=
  [] :: title.toList :: [] :: body

/-- The lines of a report. -/
def humanLines (d : Description) : List (List Char) :=
  "About".toList :: [] :: aboutLines d
    ++ sectionLines "Environments"
      (Columns.table (cells environmentTitles) (d.environments.map environmentCells))
    ++ sectionLines "Services"
      (Columns.table (cells serviceTitles) (d.services.map serviceCells))
    ++ sectionLines "Pipelines"
      (Columns.table (cells pipelineTitles) (d.pipelines.map fun p => cells [p.name]))

/-- The report for readers. Every line ends in a line feed. -/
def human (d : Description) : String :=
  String.ofList ((humanLines d).flatMap fun line => line ++ ['\n'])

end AppReport.Report
