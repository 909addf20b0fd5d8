import AppReport.Directory.Address
import AppReport.Text.Charset

/-!
# Requests and responses

A `Query` is what a client asks for; the request that goes out for it (`Request`) has the address
with the parameters in it. A `Script` stands for the other side: it answers one request after the
other, and every request that reaches it is kept. `Script.ask` follows redirections.
-/

namespace AppReport

open Text

/-- What a client asks for. -/
structure Query where
  url : String
  params : List (String × Value)
  timeout : Value

/-- A request on its way. -/
structure Request where
  url : String
  timeout : Value

/-- An answer to a request. -/
structure Response where
  status : Int
  /-- The address that answered. -/
  url : String
  /-- The name of the encoding of the body, if it is told. -/
  charset : Option String
  location : Option String
  body : List UInt8

/-! ### Parameters -/

/-- The bytes of a single value in a query. -/
def Value.queryBytes : Value → List UInt8
  | .bytes b => b
  | v => encode v.shown.toList

/-- The values that one item of a parameter stands for: the items of a list, the keys of an
object, or the item itself. -/
def Value.queryItems : Value → List (List UInt8)
  | .list items => items.map Value.queryBytes
  | .object fields => fields.map fun (key, _) => encode key.toList
  | v => [v.queryBytes]

/-- The values that a parameter is given with. A parameter without a value, and an item of a list
that is nothing, are left out. -/
def Value.queryValues : Value → List (List UInt8)
  | .null => []
  | .list items => (items.filter fun v => match v with | .null => false | _ => true).flatMap
      Value.queryItems
  | v => v.queryItems

/-- The query of an address, `&` between the parameters. -/
def queryText (params : List (String × Value)) : List Char :=
  joinWith '&' (params.flatMap fun (key, v) =>
    v.queryValues.map fun value =>
      Percent.encodeForm (encode key.toList) ++ '=' :: Percent.encodeForm value)

/-- The request for a query. -/
def Query.request (q : Query) : Except Failure Request :=
  match Address.prepare q.url.toList (queryText q.params) with
  | .error e => .error e
  | .ok url => .ok ⟨String.ofList url, q.timeout⟩

/-! ### The text of a response -/

/-- A parameter of a content type without the blanks and quotes around it. -/
def bareParameter (cs : List Char) : List Char :=
  trimBoth (fun c => c == '"' || c == '\'' || c == ' ') cs

/-- A parameter of a content type: its name in lower case, and its value if there is one. -/
def parameter (cs : List Char) : List Char × Option (List Char) :=
  let cs := trimBoth isBlank cs
  match cs.dropWhile (· ≠ '=') with
  | '=' :: value =>
    ((bareParameter (cs.takeWhile (· ≠ '='))).map Char.toLower, some (bareParameter value))
  | _ => (cs.map Char.toLower, none)

/-- The last parameter `charset` of a content type. -/
def charsetParameter? (contentType : String) : Option (Option (List Char)) :=
  let params := ((splitOn ';' contentType.toList).drop 1).map parameter
  ((params.filter fun (name, _) => name = "charset".toList).map (·.2)).getLast?

/-- Whether a text has another one inside. -/
def hasInside (part : List Char) : List Char → Bool
  | [] => part.isEmpty
  | c :: rest => part.isPrefixOf (c :: rest) || hasInside part rest

/-- The name of the encoding that a content type tells. A parameter `charset` without a value is a
failure. -/
def charsetOf (contentType : String) : Except Failure (Option String) :=
  match charsetParameter? contentType with
  | some (some name) => .ok (some (String.ofList name))
  | some none => .error (.of .missingAttribute "'bool' object has no attribute 'strip'")
  | none =>
    let kind := trimBoth isBlank (contentType.toList.takeWhile (· ≠ ';'))
    if hasInside "text".toList kind then .ok (some "iso-8859-1")
    else if hasInside "application/json".toList kind then .ok (some "utf-8")
    else .ok none

/-- The text of a response. Where no encoding is told, it is guessed from the first bytes; what
cannot be decoded that way is UTF-8 with U+FFFD for what is no character. -/
def Response.text (r : Response) : List Char :=
  let lossy := ((r.charset.bind Charset.ofName?).getD .utf8).decodeLossy r.body
  if r.charset.getD "" = "" && 3 < r.body.length then
    match (Charset.guess r.body).bind fun charset => charset.decode? r.body with
    | some cs => cs
    | none => lossy
  else lossy

/-! ### The other side -/

/-- One step of the other side: a failure to send, or an answer. -/
inductive ScriptStep where
  | fail (f : Failure)
  | reply (status : Int) (contentType location : Option String) (body : List UInt8)

/-- The other side: the steps that are still to come, and the requests that it has had. -/
structure Script where
  steps : List ScriptStep
  sent : List Request

namespace Script

/-- Sends a request. When the steps are at an end there is no connection. -/
def send (request : Request) (script : Script) : Except Failure Response × Script :=
  let sent := script.sent ++ [request]
  match script.steps with
  | [] => (.error (.of .connection "no more responses"), ⟨[], sent⟩)
  | .fail f :: steps => (.error f, ⟨steps, sent⟩)
  | .reply status contentType location body :: steps =>
    match charsetOf (contentType.getD "") with
    | .error f => (.error f, ⟨steps, sent⟩)
    | .ok charset => (.ok ⟨status, request.url, charset, location, body⟩, ⟨steps, sent⟩)

/-- The greatest number of redirections that are followed. -/
def maxRedirects : Nat := 30

/-- The failure to follow one redirection more. -/
def tooManyRedirects : Failure :=
  .of .redirection ("Exceeded " ++ toString maxRedirects ++ " redirects.")

/-- The text that a header holds: its characters stand for the bytes of a text in UTF-8. -/
def headerText (cs : List Char) : Except Failure (List Char) :=
  match Failure.latin1Bytes cs with
  | .error f => .error f
  | .ok bytes => Failure.decoded bytes

/-- Where a response sends the reader on to. An empty place is none. -/
def redirect? (r : Response) : Except Failure (Option (List Char)) :=
  match r.location with
  | some location =>
    if [301, 302, 303, 307, 308].contains r.status && location ≠ "" then
      (headerText location.toList).map some
    else .ok none
  | none => .ok none

/-- Sends a request and follows redirections, at most `left` of them. -/
def sendOn : (left : Nat) → Request → Script → Except Failure Response × Script
  | left, request, script =>
    match Address.requireScheme request.url.toList with
    | .error e => (.error e, script)
    | .ok _ =>
      match script.send request with
      | (.error e, script) => (.error e, script)
      | (.ok response, script) =>
        match redirect? response, left with
        | .error e, _ => (.error e, script)
        | .ok none, _ => (.ok response, script)
        | .ok (some _), 0 => (.error tooManyRedirects, script)
        | .ok (some location), left + 1 =>
          match Reference.follow request.url.toList location with
          | .error e => (.error e, script)
          | .ok url => sendOn left ⟨String.ofList url, request.timeout⟩ script

/-- Asks a query. Nothing is sent for an address that cannot be used. -/
def ask (q : Query) (script : Script) : Except Failure Response × Script :=
  match q.request with
  | .error e => (.error e, script)
  | .ok request => sendOn maxRedirects request script

end Script

end AppReport
