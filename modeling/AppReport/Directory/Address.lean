import AppReport.Directory.Reference
import AppReport.Text.Blank

/-!
# Addresses of requests

`Address.prepare` turns the text of an address and a query into the address that a request is sent
to: the scheme and the host are in lower case, `.` and `..` are taken out of the path, and what
may not stand in an address is written as an escape. An address of another scheme is left as it
is; it has no way to be sent (`Address.requireScheme`).
-/

namespace AppReport

open Text

/-- The parts of an address. -/
structure Address where
  scheme : Option (List Char)
  authority : Option (List Char)
  path : List Char
  query : Option (List Char)
  fragment : Option (List Char)

namespace Address

/-- The scheme in front of the first colon. -/
def splitScheme (cs : List Char) : Option (List Char) × List Char :=
  let scheme := cs.takeWhile Reference.isSchemeChar
  match scheme, cs.dropWhile Reference.isSchemeChar with
  | first :: _, ':' :: rest => if first.isAlpha then (some scheme, rest) else (none, cs)
  | _, _ => (none, cs)

/-- The part after two slashes. -/
def splitAuthority (cs : List Char) : Option (List Char) × List Char :=
  match cs with
  | '/' :: '/' :: rest =>
    let inside := fun c => c ≠ '/' && c ≠ '\\' && c ≠ '?' && c ≠ '#'
    (some (rest.takeWhile inside), rest.dropWhile inside)
  | cs => (none, cs)

/-- The part after a mark, up to a character that ends it. -/
def splitMarked (mark : Char) (inside : Char → Bool) (cs : List Char) :
    Option (List Char) × List Char :=
  match cs with
  | c :: rest =>
    if c = mark then (some (rest.takeWhile inside), rest.dropWhile inside) else (none, cs)
  | [] => (none, [])

/-- The parts of the text of an address. -/
def split (cs : List Char) : Address :=
  let (scheme, rest) := splitScheme cs
  let (authority, rest) := splitAuthority rest
  let inPath := fun c => c ≠ '?' && c ≠ '#'
  let path := rest.takeWhile inPath
  let (query, rest) := splitMarked '?' (· ≠ '#') (rest.dropWhile inPath)
  let (fragment, _) := splitMarked '#' (fun _ => true) rest
  ⟨scheme, authority, path, query, fragment⟩

/-- The text of an address. A query or a fragment that is empty is left out. -/
def join (scheme authority path query fragment : List Char) : List Char :=
  let path := match path with
    | [] => []
    | '/' :: _ => path
    | _ => '/' :: path
  let mark := fun (c : Char) (part : List Char) => if part.isEmpty then [] else c :: part
  scheme ++ ':' :: '/' :: '/' :: authority ++ path ++ mark '?' query ++ mark '#' fragment

/-! ### Parts -/

/-- The characters of a user name. -/
def isUserChar (c : Char) : Bool :=
  Percent.isUnreserved c || "!$&'()*+,;=:".toList.contains c

/-- The characters of a path. -/
def isPathChar (c : Char) : Bool := isUserChar c || c == '@' || c == '/'

/-- The characters of a query or a fragment. -/
def isQueryChar (c : Char) : Bool := isPathChar c || c == '?'

/-- A path without its `.` and `..` segments. -/
def removeDots (path : List Char) : List Char :=
  let kept := (splitOn '/' path).foldl (fun (kept : List (List Char)) piece =>
    if piece = ['.'] then kept
    else if piece = ['.', '.'] then kept.tail
    else piece :: kept) []
  let kept := kept.reverse
  let rooted := path.head? = some '/'
  let kept := match kept with
    | [] => if rooted then [[]] else []
    | piece :: _ => if rooted && !piece.isEmpty then [] :: kept else kept
  let endsInDots := "/.".toList.isSuffixOf path || "/..".toList.isSuffixOf path
  joinWith '/' (if endsInDots then kept ++ [[]] else kept)

/-- The user in front of the last `@`, and what follows it. -/
def splitUser (authority : List Char) : List Char × List Char :=
  match splitOn '@' authority with
  | [host] => ([], host)
  | pieces => (joinWith '@' pieces.dropLast, pieces.getLastD [])

/-! ### Preparing an address -/

/-- The start of every message about an address that cannot be used. -/
def invalidPrefix (url : List Char) : String :=
  "Invalid URL " ++ String.ofList (quoted url) ++ ": "

/-- Whether the scheme of an address is left for others to understand. -/
def isForeign (url : List Char) : Bool :=
  url.contains ':' && (url.take 4).map Char.toLower ≠ "http".toList

/-- Whether an address begins like one: with a scheme or a slash. -/
def hasSchemeOrSlash (url : List Char) : Bool :=
  match url with
  | '/' :: _ => true
  | c :: _ =>
    let inside := fun c : Char => c.isAlphanum || c == '+' || c == '-'
    c.isAlpha && (url.dropWhile inside).head? = some ':'
  | [] => false

/-- The failure to make out the parts of an address. -/
def unreadable (url : List Char) : Failure :=
  .of .invalidUrl ("Failed to parse: " ++ String.ofList url)

/-- The address that a request for `url` with a query goes to. -/
def prepare (url query : List Char) : Except Failure (List Char) :=
  let url := url.dropWhile isBlank
  if isForeign url then (Reference.ofText? [] url).map fun _ => url
  else
    let parts := split (if hasSchemeOrSlash url then url else '/' :: '/' :: url)
    let scheme := parts.scheme.map fun s => s.map Char.toLower
    let normalized := scheme = none ∨ scheme = some "http".toList ∨ scheme = some "https".toList
    let normalize := fun keep (part : List Char) =>
      if normalized then Percent.normalize keep part else part
    let (user, rest) := splitUser (parts.authority.getD [])
    match HostPort.ofText? rest with
    | none => .error (unreadable url)
    | some ⟨host, port⟩ =>
      match scheme with
      | none => .error (.of .missingScheme (invalidPrefix url
          ++ "No scheme supplied. Perhaps you meant https://" ++ String.ofList url ++ "?"))
      | some scheme =>
        if host.isEmpty then .error (.of .invalidUrl (invalidPrefix url ++ "No host supplied"))
        else if host.head? = some '*' ∨ host.head? = some '.' then
          .error (.of .invalidUrl "URL has an invalid label.")
        else
          let user := normalize isUserChar user
          let host := if normalized then Host.normalize host else host
          let authority := (if user.isEmpty then [] else user ++ ['@']) ++ host ++
            (match port with
              | some n => if n = 0 then [] else ':' :: Number.digits n
              | none => [])
          let path := if normalized then removeDots parts.path else parts.path
          let path := normalize isPathChar path
          let given := normalize isQueryChar (parts.query.getD [])
          let whole := if query.isEmpty then given
            else if given.isEmpty then query
            else given ++ '&' :: query
          .ok (Percent.requote (join scheme authority (if path.isEmpty then ['/'] else path) whole
            (normalize isQueryChar (parts.fragment.getD []))))

/-- An address that can be sent to; nothing answers at the others. -/
def requireScheme (url : List Char) : Except Failure (List Char) :=
  let lower := url.map Char.toLower
  if "http://".toList.isPrefixOf lower || "https://".toList.isPrefixOf lower then .ok url
  else .error (.of .unsupportedScheme
    ("No connection adapters were found for " ++ String.ofList (quoted url)))

end Address

end AppReport
