import AppReport.Directory.Host
import AppReport.Failure

/-!
# References to other addresses

A response may send its reader on to another address, which it gives as a whole or only as far as
it differs from its own (`Reference.follow`). Unlike an address that is typed in, a reference is
taken as it stands: no part of it is checked but the brackets around the number of a host.
-/

namespace AppReport

open Text

/-- The parts of a reference; one that is not given is empty. The parameters are what follows a
semicolon in the last segment of the path. -/
structure Reference where
  scheme : List Char
  authority : List Char
  path : List Char
  parameters : List Char
  query : List Char
  fragment : List Char
  deriving DecidableEq

namespace Reference

/-! ### Schemes -/

/-- The characters of a scheme. -/
def isSchemeChar (c : Char) : Bool := c.isAlphanum || c == '+' || c == '.' || c == '-'

/-- The schemes whose addresses name a host. -/
def hostSchemes : List String :=
  ["ftp", "http", "gopher", "nntp", "telnet", "imap", "wais", "file", "mms", "https", "shttp",
    "snews", "prospero", "rtsp", "rtsps", "rtspu", "rsync", "svn", "svn+ssh", "sftp", "nfs", "git",
    "git+ssh", "ws", "wss"]

/-- The schemes whose paths may have parameters; no scheme at all allows them too. -/
def parameterSchemes : List String :=
  ["", "ftp", "hdl", "prospero", "http", "imap", "https", "shttp", "rtsp", "rtsps", "rtspu", "sip",
    "sips", "mms", "sftp", "tel"]

/-- Whether the addresses of a scheme name a host. -/
def namesHost (scheme : List Char) : Bool := hostSchemes.contains (String.ofList scheme)

/-- Whether the paths of a scheme may have parameters. -/
def hasParameters (scheme : List Char) : Bool := parameterSchemes.contains (String.ofList scheme)

/-! ### Taking apart -/

/-- The part in front of a mark and the part after it; without a mark there is no second part. -/
def splitAt (mark : Char) (cs : List Char) : List Char × List Char :=
  (cs.takeWhile (· ≠ mark), (cs.dropWhile (· ≠ mark)).drop 1)

/-- The scheme in front of the first colon, in lower case; `default` if there is none. -/
def splitScheme (default cs : List Char) : List Char × List Char :=
  let (scheme, rest) := splitAt ':' cs
  match scheme with
  | first :: _ =>
    if cs.contains ':' && first.isAlpha && scheme.all isSchemeChar then
      (scheme.map Char.toLower, rest)
    else (default, cs)
  | [] => (default, cs)

/-- The part after two slashes. -/
def splitAuthority (cs : List Char) : List Char × List Char :=
  match cs with
  | '/' :: '/' :: rest =>
    let inside := fun c => c ≠ '/' && c ≠ '?' && c ≠ '#'
    (rest.takeWhile inside, rest.dropWhile inside)
  | cs => ([], cs)

/-- The path and its parameters. -/
def splitParameters (scheme path : List Char) : List Char × List Char :=
  let last := (path.reverse.takeWhile (· ≠ '/')).reverse
  if hasParameters scheme then
    (path.take (path.length - last.length) ++ (splitAt ';' last).1, (splitAt ';' last).2)
  else (path, [])

/-- What is wrong with the brackets of an authority. -/
def bracketFault? (authority : List Char) : Option String :=
  match authority.contains '[', authority.contains ']' with
  | false, false => none
  | true, true =>
    let host := (splitAt ']' (splitAt '[' authority).2).1
    let zone := host.dropWhile (· ≠ '%')
    if host.head? = some 'v' then
      let (version, rest) := splitAt '.' (host.drop 1)
      if version.isEmpty || !version.all Percent.isHexDigit || rest.isEmpty then
        some "IPvFuture address is invalid"
      else none
    else if Host.isQuad host then some "An IPv4 address cannot be in brackets"
    else if Host.isNumber (host.takeWhile (· ≠ '%')) && zone.length ≠ 1
        && !(zone.drop 1).contains '%' then none
    else some (String.ofList (quoted host) ++ " does not appear to be an IPv4 or IPv6 address")
  | _, _ => some "Invalid IPv6 URL"

/-- The parts of the text of a reference. Controls and blanks in front of it do not count, nor do
tabs and line ends anywhere. -/
def ofText? (default cs : List Char) : Except Failure Reference :=
  let cs := (cs.dropWhile (· ≤ ' ')).filter fun c => c ≠ '\t' && c ≠ '\r' && c ≠ '\n'
  let (scheme, rest) := splitScheme default cs
  let (authority, rest) := splitAuthority rest
  match bracketFault? authority with
  | some words => .error (.of .value words)
  | none =>
    let (rest, fragment) := splitAt '#' rest
    let (path, query) := splitAt '?' rest
    let (path, parameters) := splitParameters scheme path
    .ok { scheme, authority, path, parameters, query, fragment }

/-! ### Putting together -/

/-- A part after its mark, or nothing for a part that is empty. -/
def marked (mark : Char) (part : List Char) : List Char := if part.isEmpty then [] else mark :: part

/-- The text of a reference. -/
def text (r : Reference) : List Char :=
  let path := r.path ++ marked ';' r.parameters
  let path := if !r.authority.isEmpty || namesHost r.scheme || "//".toList.isPrefixOf path then
      '/' :: '/' :: r.authority ++
        (if path.isEmpty || path.head? = some '/' then path else '/' :: path)
    else path
  (if r.scheme.isEmpty then [] else r.scheme ++ [':']) ++ path ++ marked '?' r.query
    ++ marked '#' r.fragment

/-! ### Following -/

/-- The segments of a path after `..` and `.` have been followed. -/
def resolveSegments (segments : List (List Char)) : List (List Char) :=
  let kept := segments.foldl (fun (kept : List (List Char)) piece =>
    if piece = ['.', '.'] then kept.tail
    else if piece = ['.'] then kept
    else piece :: kept) []
  let last := segments.getLastD []
  kept.reverse ++ (if last = ['.'] ∨ last = ['.', '.'] then [[]] else [])

/-- The path of `path` as seen from `base`. -/
def resolvePath (base path : List Char) : List Char :=
  let segments :=
    if path.head? = some '/' then splitOn '/' path
    else
      let pieces := splitOn '/' base
      let pieces := if pieces.getLastD [] ≠ [] then pieces.dropLast else pieces
      match pieces ++ splitOn '/' path with
      | [] => []
      | [piece] => [piece]
      | first :: rest =>
        first :: rest.dropLast.filter (fun piece => !piece.isEmpty) ++ [rest.getLastD []]
  match joinWith '/' (resolveSegments segments) with
  | [] => ['/']
  | resolved => resolved

/-- The reference `there` as seen from the address `here`, which has the same scheme and names the
host of both. -/
def resolve (here there : Reference) : Reference :=
  if there.path.isEmpty && there.parameters.isEmpty then
    { there with
      authority := here.authority
      path := here.path
      parameters := here.parameters
      query := if there.query.isEmpty then here.query else there.query }
  else
    { there with authority := here.authority, path := resolvePath here.path there.path }

/-- The address that the text of a reference means at an address. -/
def resolveText (here : Reference) (base cs : List Char) : Except Failure (List Char) :=
  if cs.isEmpty then .ok base
  else
    match ofText? here.scheme cs with
    | .error e => .error e
    | .ok there =>
      if there.scheme ≠ here.scheme then .ok cs
      else if there.authority.isEmpty then .ok (resolve here there).text
      else .ok there.text

/-- The address that a response at `base` sends a reader on to. Two slashes at the start take the
scheme of `base`, and a reference without a fragment that of `base`. -/
def follow (base location : List Char) : Except Failure (List Char) :=
  match ofText? [] base with
  | .error e => .error e
  | .ok here =>
    let location := if "//".toList.isPrefixOf location then here.scheme ++ ':' :: location
      else location
    match ofText? [] location with
    | .error e => .error e
    | .ok there =>
      let there :=
        if there.fragment.isEmpty then { there with fragment := here.fragment } else there
      let cs := Percent.requote there.text
      if there.authority.isEmpty then resolveText here base cs else .ok cs

end Reference

end AppReport
