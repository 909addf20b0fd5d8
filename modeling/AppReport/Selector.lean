import AppReport.Log.Record
import AppReport.Record
import AppReport.Text.Lines

/-!
# Selecting an application

Someone selects one of the applications that the store lists. Without an application there is
nothing to select, and a single one needs no question; otherwise the question is asked until a
line is the name of an application (`Selector.choose`). The end of the lines gives the selection
up.
-/

namespace AppReport

open Text

/-- What a selection leads to. -/
structure Selection where
  outcome : Except Failure Value
  /-- The lines that have not been read. -/
  left : List (List Char)
  shown : List Char
  notes : List Log.Record

namespace Selector

/-- The name under which selections log. -/
def logger : String := "appatlas.interfaces.cli.selector"

/-- The record of a selection. -/
def selectionTrace (name : Value) : Log.Record where
  logger := logger
  level := Log.debug
  template := "Operator selected application %s".toList
  values := [name]
  context := none
  failure := none

/-- What stands between choices. -/
def separator : String := ", "

/-- The names, each once, in order. -/
def distinct (names : List Value) : List Value :=
  names.foldl (fun kept name => if kept.any (·.inner = name.inner) then kept else kept ++ [name]) []

/-- The question with the choices. -/
def promptFor (promptText : String) (names : List Value) : List Char :=
  (promptText ++ " (" ++ separator.intercalate (names.map Value.shown) ++ "): ").toList

/-- What is said of a line that is no choice. -/
def refusal (line : List Char) (names : List Value) : List Char :=
  "Error: ".toList ++ quoted line ++ " is not one of ".toList
    ++ (separator.intercalate ((distinct names).map fun name =>
        String.ofList (quoted name.shown.toList))).toList ++ ['.', '\n']

/-- Asks until a line is the name of a choice: the choice, the lines that are left, and what has
been shown. An empty line asks again. -/
def choose (promptText : List Char) (names : List Value) :
    List (List Char) → Option Value × List (List Char) × List Char
  | [] => (none, [], withoutEscapes promptText)
  | line :: rest =>
    let asked := withoutEscapes promptText
    if line.isEmpty then
      let (choice, left, shown) := choose promptText names rest
      (choice, left, asked ++ shown)
    else
      match names.find? fun name => name.shown.toList = line with
      | some name => (some name, rest, asked)
      | none =>
        let (choice, left, shown) := choose promptText names rest
        (choice, left, asked ++ withoutEscapes (refusal line names) ++ shown)

/-- A line to show. -/
def shownLine (s : String) : List Char := withoutEscapes (s.toList ++ ['\n'])

/-- Selects one of the applications that the store lists, by lines that someone enters. -/
def select (listed : Except Failure (List Application)) (promptText help : String)
    (entered : List (List Char)) : Selection :=
  match listed with
  | .error cause =>
    ⟨.error (.causedBy (.other .selection ("list applications: " ++ cause.text)) cause), entered,
      [], []⟩
  | .ok [] =>
    ⟨.error (.of .selection ("no applications found; run this command from a workspace or create "
      ++ "an application first")), entered, [], []⟩
  | .ok [app] =>
    ⟨.ok app.name, entered,
      shownLine ("Only found one application, defaulting to: " ++ app.name.shown), []⟩
  | .ok apps =>
    let names := apps.map Application.name
    match choose (promptFor promptText names) names entered with
    | (none, left, shown) =>
      ⟨.error (.causedBy (.other .selection "application selection was aborted") (.of .abort "")),
        left, shownLine help ++ shown, []⟩
    | (some name, left, shown) =>
      ⟨.ok name, left, shownLine help ++ shown, [selectionTrace name]⟩

end Selector

end AppReport
