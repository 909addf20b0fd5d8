import AppReport.Files.Tree
import AppReport.Json.Reader
import AppReport.Store.Tables
import AppReport.Text.Utf8

/-!
# What files hold

A file holds bytes or a database. Bytes are read as text with one kind of line end (`plainLines`);
an empty file is an empty database.
-/

namespace AppReport

open Text

/-- A database in a file; one that writes ahead keeps doing so. -/
structure Database where
  writesAhead : Bool
  tables : Tables

/-- The database without rows. -/
def Database.empty : Database := ⟨false, .empty⟩

/-- What a file holds. -/
inductive Content where
  | bytes (b : List UInt8)
  | database (d : Database)

/-- The files that the program sees. -/
abbrev Files := Tree Content

/-- A text in which every line ends with a line feed. -/
def plainLines : List Char → List Char
  | [] => []
  | '\r' :: '\n' :: rest => '\n' :: plainLines rest
  | '\r' :: rest => '\n' :: plainLines rest
  | c :: rest => c :: plainLines rest

namespace Content

/-- The database that a file holds; bytes other than none are no database. -/
def database? : Content → Option Database
  | bytes [] => some .empty
  | bytes _ => none
  | database d => some d

/-- The text of a file. A database is no text from its first byte on. -/
def text : Content → Except Failure String
  | bytes b => (Failure.decoded b).map fun cs => String.ofList (plainLines cs)
  | database _ => .error (.undecodable [] ⟨.start, 0, 1⟩)

end Content

namespace Tree

/-- The text of the file at a path. -/
def readText (files : Files) (p : Path) : Except Failure String :=
  match files.content p with
  | .error e => .error e
  | .ok content => content.text

/-- The JSON document in the file at a path. -/
def readDocument (files : Files) (p : Path) : Except Failure Value :=
  match readText files p with
  | .error e => .error e
  | .ok s => (Json.read s).mapError .ofReadError

end Tree

end AppReport
