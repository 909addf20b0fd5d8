import AppReport.Files.Path

/-!
# Trees of files

A tree holds directories, files with contents of some kind, and links to other paths. A place in
it is the row of names from the root. `Tree.walk` finds the place of a path the way the operating
system does: it follows links, up to a number of them, and `..` leads to the directory that the
walk has come to. `Tree.resolve` writes a path without links and without `..`, and goes on by
names alone where nothing exists.
-/

namespace AppReport

open Text

/-- The names from the root to something in a tree. -/
abbrev Place := List String

/-- What can stand at a place. -/
inductive Entry (α : Type) where
  | directory
  | file (content : α)
  /-- A link to the path of a text. -/
  | link (target : String)

/-- Why a path leads nowhere, or cannot be used. -/
inductive FileFault where
  | missing
  | notDirectory
  | isDirectory
  | alreadyThere
  | tooManyLinks
  | nameTooLong
  /-- The path holds the character that ends paths. -/
  | endsEarly
  deriving DecidableEq

namespace FileFault

/-- What is said of a fault, with its number. -/
def reason : FileFault → Nat × String
  | missing => (2, "No such file or directory")
  | alreadyThere => (17, "File exists")
  | notDirectory => (20, "Not a directory")
  | isDirectory => (21, "Is a directory")
  | nameTooLong => (36, "File name too long")
  | tooManyLinks => (40, "Too many levels of symbolic links")
  | endsEarly => (22, "embedded null byte")

/-- The kind of failure that a fault is. -/
def kind : FileFault → FaultKind
  | alreadyThere => .fileExists
  | notDirectory => .notDirectory
  | isDirectory => .isDirectory
  | endsEarly => .value
  | _ => .operatingSystem

/-- The failure to use a path. -/
def failure (fault : FileFault) (p : Path) : Failure :=
  match fault with
  | endsEarly => .of .value "embedded null byte"
  | fault => .of fault.kind ("[Errno " ++ toString fault.reason.1 ++ "] " ++ fault.reason.2 ++ ": "
      ++ String.ofList (quoted p.text.toList))

end FileFault

/-- A tree of files: what stands at each place but the root, which is a directory, and the place of
the directory where one is. -/
structure Tree (α : Type) where
  entries : List (Place × Entry α)
  current : Place

namespace Tree

variable {α : Type}

/-- The tree without files. -/
def empty : Tree α := ⟨[], []⟩

/-- What stands at a place. -/
def at? (t : Tree α) (place : Place) : Option (Entry α) :=
  match place with
  | [] => some .directory
  | place => t.entries.lookup place

/-- Puts an entry at a place, instead of what is there. -/
def put (t : Tree α) (place : Place) (e : Entry α) : Tree α :=
  { t with entries := (place, e) :: t.entries.filter fun (p, _) => p ≠ place }

/-- Takes away what is at a place. -/
def remove (t : Tree α) (place : Place) : Tree α :=
  { t with entries := t.entries.filter fun (p, _) => p ≠ place }

/-- Whether a place is a directory. -/
def isDirectoryAt (t : Tree α) (place : Place) : Bool :=
  match t.at? place with
  | some .directory => true
  | _ => false

/-! ### Walking -/

/-- Where a walk ends. -/
inductive Stop (α : Type) where
  | found (place : Place) (e : Entry α)
  /-- The last name does not exist in a directory that does. -/
  | vacant (place : Place)
  | failed (fault : FileFault)
  /-- A link, the directory that it stands in, and the names that are left. -/
  | atLink (directory : Place) (target : String) (rest : List String)

/-- The greatest number of bytes of a name. -/
def maxName : Nat := 255

/-- The greatest number of bytes of a path. -/
def maxPath : Nat := 4095

/-- The greatest number of links that a walk follows. -/
def maxLinks : Nat := 40

/-- Walks along names as far as the first link; the last name may be a link if `last` says so. -/
def walkNames (t : Tree α) (last : Bool) (directory : Place) : List String → Stop α
  | [] => match t.at? directory with
    | some e => .found directory e
    | none => .failed .missing
  | name :: rest =>
    if !t.isDirectoryAt directory then .failed .notDirectory
    else if name = "" ∨ name = "." then walkNames t last directory rest
    else if name = ".." then walkNames t last directory.dropLast rest
    else if maxName < name.utf8ByteSize then .failed .nameTooLong
    else
      match t.at? (directory ++ [name]) with
      | none => if rest.isEmpty then .vacant (directory ++ [name]) else .failed .missing
      | some (.link target) =>
        if last && rest.isEmpty then .found (directory ++ [name]) (.link target)
        else .atLink directory target rest
      | some _ => walkNames t last (directory ++ [name]) rest

/-- Where the path of a text begins, seen from a directory. -/
def startOf (directory : Place) (text : String) : Place :=
  match text.toList with
  | '/' :: _ => []
  | _ => directory

/-- All pieces between the slashes of a text. -/
def piecesOf (text : String) : List String := (splitOn '/' text.toList).map String.ofList

/-- Walks along names and follows at most `links` links. -/
def walkLinks (t : Tree α) (last : Bool) : (links : Nat) → Place → List String → Stop α
  | links, directory, names =>
    match t.walkNames last directory names with
    | .atLink directory target rest =>
      match links with
      | 0 => .failed .tooManyLinks
      | links + 1 => walkLinks t last links (startOf directory target) (piecesOf target ++ rest)
    | stop => stop

/-- The place where a path begins. -/
def startAt (t : Tree α) (p : Path) : Place := if p.isAbsolute then [] else t.current

/-- Walks along a path. -/
def walk (t : Tree α) (last : Bool) (p : Path) : Stop α :=
  if p.text.toList.contains '\x00' then .failed .endsEarly
  else if maxPath < p.text.utf8ByteSize then .failed .nameTooLong
  else t.walkLinks last maxLinks (t.startAt p) p.names

/-- What a path leads to, links followed. -/
def find (t : Tree α) (p : Path) : Except FileFault (Place × Entry α) :=
  match t.walk false p with
  | .found place e => .ok (place, e)
  | .vacant _ => .error .missing
  | .failed fault => .error fault
  | .atLink .. => .error .tooManyLinks

/-- Whether something exists at a path. A name that is too long is a failure of its own. -/
def exists? (t : Tree α) (p : Path) : Except Failure Bool :=
  match t.find p with
  | .ok _ => .ok true
  | .error .nameTooLong => .error (FileFault.nameTooLong.failure p)
  | .error _ => .ok false

/-- Whether a path leads to a file. -/
def isFile? (t : Tree α) (p : Path) : Except Failure Bool :=
  match t.find p with
  | .ok (_, .file _) => .ok true
  | .error .nameTooLong => .error (FileFault.nameTooLong.failure p)
  | _ => .ok false

/-- The content of the file at a path. -/
def content (t : Tree α) (p : Path) : Except Failure α :=
  match t.find p with
  | .ok (_, .file content) => .ok content
  | .ok _ => .error (FileFault.isDirectory.failure p)
  | .error fault => .error (fault.failure p)

/-! ### Resolving -/

/-- Names after a place, with `..` leading back. -/
def normalFrom (place : Place) (names : List String) : Place :=
  names.foldl (fun place name =>
    if name = "" ∨ name = "." then place
    else if name = ".." then place.dropLast
    else place ++ [name]) place

/-- Resolves names from a directory, and says whether every link has led somewhere. Where nothing
exists, names are taken as they are. A link that leads back to itself (it is among those `within`
which the walk is) stays, with all that comes after it. At most `depth` links are followed inside
each other. -/
def resolveNames (t : Tree α) (depth : Nat) (within : List Place) (directory : Place)
    (names : List String) : Place × Bool :=
  match names with
  | [] => (directory, true)
  | name :: rest =>
    if name = "" ∨ name = "." then resolveNames t depth within directory rest
    else if name = ".." then resolveNames t depth within directory.dropLast rest
    else
      let place := directory ++ [name]
      match t.at? place, depth with
      | some (.link target), depth + 1 =>
        if within.contains place then (normalFrom place rest, false)
        else
          match resolveNames t depth (place :: within) (startOf directory target)
            (piecesOf target) with
          | (place, true) => resolveNames t (depth + 1) within place rest
          | (place, false) => (normalFrom place rest, false)
      | some (.link _), 0 => (normalFrom place rest, false)
      | _, depth => resolveNames t depth within place rest
termination_by (depth, names.length)

/-- The place that a path denotes, which need not exist. A path whose links go round is a
failure. -/
def resolve (t : Tree α) (p : Path) : Except Failure Path :=
  if p.text.toList.contains '\x00' then .error (FileFault.endsEarly.failure p)
  else
    let resolved : Path :=
      ⟨.top, (t.resolveNames t.entries.length [] (t.startAt p) p.names).1⟩
    match t.find resolved with
    | .error .tooManyLinks => .error (.of .runtime
        ("Symlink loop from " ++ String.ofList (quoted resolved.text.toList)))
    | _ => .ok resolved

/-! ### Making directories -/

/-- Makes the directory at a path; the one that it lies in must be there. -/
def makeDirectory (t : Tree α) (p : Path) : Except FileFault (Tree α) :=
  match t.walk true p with
  | .vacant place => .ok (t.put place .directory)
  | .found .. => .error .alreadyThere
  | .failed fault => .error fault
  | .atLink .. => .error .tooManyLinks

/-- Makes the directory at a path unless it is there. -/
def ensureDirectory (t : Tree α) (p : Path) : Except FileFault (Tree α) :=
  match t.makeDirectory p with
  | .ok t => .ok t
  | .error fault =>
    match fault, t.find p with
    | .missing, _ => .error .missing
    | _, .ok (_, .directory) => .ok t
    | fault, _ => .error fault

/-- Makes the directory at a path, and with it those that it lies in; `names` are the last names
of the path, beginning with the last one, that may be missing. -/
def ensureDirectoriesWithin (t : Tree α) (p : Path) :
    (names : List String) → Except Failure (Tree α)
  | [] =>
    match t.ensureDirectory p with
    | .ok t => .ok t
    | .error fault => .error (fault.failure p)
  | _ :: names =>
    match t.ensureDirectory p with
    | .ok t => .ok t
    | .error .missing =>
      match ensureDirectoriesWithin t p.parent names with
      | .error e => .error e
      | .ok t =>
        match t.ensureDirectory p with
        | .ok t => .ok t
        | .error fault => .error (fault.failure p)
    | .error fault => .error (fault.failure p)

/-- Makes the directory at a path, and with it those that it lies in. -/
def ensureDirectories (t : Tree α) (p : Path) : Except Failure (Tree α) :=
  t.ensureDirectoriesWithin p p.names

/-! ### Writing files -/

/-- Writes a file. -/
def writeFile (t : Tree α) (p : Path) (content : α) : Except FileFault (Tree α) :=
  match t.walk false p with
  | .vacant place => .ok (t.put place (.file content))
  | .found place (.file _) => .ok (t.put place (.file content))
  | .found .. => .error .isDirectory
  | .failed fault => .error fault
  | .atLink .. => .error .tooManyLinks

/-- Makes a link. -/
def makeLink (t : Tree α) (p : Path) (target : String) : Except FileFault (Tree α) :=
  match t.walk true p with
  | .vacant place => .ok (t.put place (.link target))
  | .found .. => .error .alreadyThere
  | .failed fault => .error fault
  | .atLink .. => .error .tooManyLinks

/-- Takes away what is at a path; a link goes, not what it leads to. -/
def removeFile (t : Tree α) (p : Path) : Except FileFault (Tree α) :=
  match t.walk true p with
  | .found _ .directory => .error .isDirectory
  | .found place _ => .ok (t.remove place)
  | .vacant _ => .error .missing
  | .failed fault => .error fault
  | .atLink .. => .error .tooManyLinks

/-- Goes to a directory. -/
def enter (t : Tree α) (p : Path) : Except FileFault (Tree α) :=
  match t.find p with
  | .ok (place, .directory) => .ok { t with current := place }
  | .ok _ => .error .notDirectory
  | .error fault => .error fault

/-! ### What a tree holds -/

/-- An entry is where it was put. -/
theorem at?_put (t : Tree α) {place : Place} (h : place ≠ []) (e : Entry α) :
    (t.put place e).at? place = some e := by
  cases place with
  | nil => exact absurd rfl h
  | cons name names => simp [at?, put]

end Tree

end AppReport
