import AppReport.Json.Writer
import AppReport.Report.Human

/-!
# The report as a document

The report for programs is one line of JSON. It may fail, because the untyped data of a pipeline
may be what no document can hold; the report for readers never fails.
-/

namespace AppReport.Report

/-- A value as one line of JSON, unless an integer is too long. -/
def writeDocument (v : Value) : Except Failure String :=
  if v.hasLongInt then .error .longInt else .ok (Json.write v)

/-- What the program does when it writes a document. -/
def documentOperation : String := "get JSON string for application"

/-- The description on one line of JSON. -/
def documentLine (d : Description) : Except Failure String :=
  match d.document with
  | .error e => .error e
  | .ok v => writeDocument v

/-- The report for programs. -/
def document (d : Description) : Except Failure String :=
  match documentLine d with
  | .ok line => .ok (line ++ "\n")
  | .error cause => .error (.step .renderError documentOperation (.text d.name) cause)

/-- The report in either form. -/
def render (d : Description) (asJson : Bool) : Except Failure String :=
  if asJson then document d else .ok (human d)

end AppReport.Report
