import AppReport.Files.Content

/-!
# Workspaces

A directory is a workspace if a certain file lies in it; the nearest workspace at or above a
directory may name the application that commands are about (`Workspace.application`).
-/

namespace AppReport.Workspace

/-- The path of the file of a workspace, from the directory of the workspace on. -/
def fileNames : List String := [".appatlas", "workspace.json"]

/-- The file of the workspace in a directory. -/
def fileIn (directory : Path) : Path := { directory with names := directory.names ++ fileNames }

/-- The directories at and above a place, nearest first; `names` is the place in reverse. -/
def above : (names : List String) → List Path
  | [] => [⟨.top, []⟩]
  | name :: names => ⟨.top, (name :: names).reverse⟩ :: above names

/-- The first of some paths that leads to a file. -/
def firstFile (files : Files) : List Path → Except Failure (Option Path)
  | [] => .ok none
  | p :: rest =>
    match files.isFile? p with
    | .error e => .error e
    | .ok true => .ok (some p)
    | .ok false => firstFile files rest

/-- The file of the nearest workspace at or above a directory. -/
def file? (files : Files) (start : Path) : Except Failure (Option Path) :=
  match files.resolve start with
  | .error e => .error e
  | .ok p => firstFile files ((above p.names.reverse).map fileIn)

/-- The application that the document of a workspace names. -/
def applicationOf (document : Value) : Option String :=
  match document with
  | .object fields =>
    match Fields.getD fields "application" with
    | .text s => if s = "" then none else some s
    | _ => none
  | _ => none

/-- The application that the nearest workspace names. A file that cannot be opened, or that breaks
the grammar of documents, names none. -/
def application (files : Files) (start : Path) : Except Failure (Option String) :=
  match file? files start with
  | .error e => .error e
  | .ok none => .ok none
  | .ok (some p) =>
    match files.readDocument p with
    | .ok document => .ok (applicationOf document)
    | .error e =>
      if e.isKind FaultKind.isOperatingSystem || e.isKind (· == .malformedDocument) then .ok none
      else .error e

end AppReport.Workspace
