import AppReport.Directory.Transport
import AppReport.Log.Record
import AppReport.Pipeline

/-!
# The pipeline directory

The directory lists the pipelines that have a tag, page by page: each page may hold the token of
the next one. `Client.collect` asks for pages until one has no token; the first failure ends the
listing, and nothing is tried again. A failure to send or to understand a page is a fault of the
directory; any other fault goes through as it is.
-/

namespace AppReport

/-- The means to ask a query; `σ` is the state of the surroundings. -/
abbrev Exchange (σ : Type) := Query → σ → Except Failure Response × σ

/-- How the directory is reached. -/
structure Client where
  /-- The address of the directory, without slashes at its end. -/
  baseUrl : String
  timeout : Value
  pageSize : Value

namespace Client

/-- The address of the directory when none is configured. -/
def defaultBaseUrl : String := "http://localhost:8080"

/-- The path of the listing of pipelines. -/
def pipelinesPath : String := "/pipelines"

/-- A client for an address. -/
def ofUrl (baseUrl : String) (timeout pageSize : Value) : Client :=
  ⟨String.ofList (Text.dropRightWhile (· == '/') baseUrl.toList), timeout, pageSize⟩

/-- The address of the listing. -/
def listingUrl (c : Client) : String := c.baseUrl ++ pipelinesPath

/-- The query for a page: the first page of a listing has no token. -/
def query (c : Client) (tagKey : String) (tagValue : Value) (token : Value) : Query where
  url := c.listingUrl
  params := [("tagKey", .text tagKey), ("tagValue", tagValue), ("maxResults", c.pageSize)]
    ++ (if token.isSet then [("nextToken", token)] else [])
  timeout := c.timeout

/-- The failure of a query as a fault of the directory. -/
def sendFailure (c : Client) (cause : Failure) : Failure :=
  if cause.isKind FaultKind.isRequestTimeout then
    .causedBy (.other .directoryTimeout
      ("request to " ++ c.listingUrl ++ " timed out after " ++ c.timeout.shown ++ "s")) cause
  else if cause.isKind FaultKind.isRequest then
    .causedBy (.other .directory ("request to " ++ c.listingUrl ++ " failed: " ++ cause.text)) cause
  else cause

/-- The fields of the document that a response holds. -/
def payload (r : Response) : Except Failure Fields :=
  if r.status < 200 ∨ 300 ≤ r.status then
    .error (.of .directory ("unexpected status " ++ toString r.status ++ " from " ++ r.url))
  else
    match Json.read (String.ofList r.text) with
    | .error .tooDeep => .error (.ofReadError .tooDeep)
    | .error e =>
      .error (.causedBy (.other .directory ("invalid JSON from " ++ r.url ++ ": " ++ e.message))
        (.ofReadError e))
    | .ok (.object fields) => .ok fields
    | .ok _ => .error (.of .directory ("unexpected response body from " ++ r.url))

/-- Checks a record of a page; one that does not fit is a fault of the directory. -/
def readRecord (v : Value) : Except Failure Pipeline :=
  match Pipeline.ofValue v with
  | .error cause =>
    .error (.causedBy (.other .directory ("malformed pipeline record: " ++ cause.text)) cause)
  | .ok p => .ok p

/-- One page of a listing. -/
structure Page where
  records : List Pipeline
  /-- The token of the next page; one that is not set ends the listing. -/
  token : Value

/-- The records that the fields of a document hold: none unless there is something that is set. -/
def recordsOf? (fields : Fields) : Option (List Value) :=
  let records := fields.getD "pipelines"
  match if records.isSet then records else .list [] with
  | .list items => some items
  | _ => none

/-- The token that the fields of a document hold. -/
def tokenOf (fields : Fields) : Value := fields.getD "nextToken"

/-- The page that the fields of a document give. -/
def Page.ofPayload (fields : Fields) : Except Failure Page :=
  match recordsOf? fields with
  | some items =>
    match mapUntilFailure readRecord items with
    | .error e => .error e
    | .ok records => .ok ⟨records, tokenOf fields⟩
  | none => .error (.of .directory "'pipelines' is not a list")

/-- The page that a response gives. -/
def Page.ofResponse (r : Response) : Except Failure Page :=
  match payload r with
  | .error e => .error e
  | .ok fields => Page.ofPayload fields

/-- Asks for one page. -/
def page {σ : Type} (c : Client) (exchange : Exchange σ) (tagKey : String) (tagValue token : Value)
    (s : σ) : Except Failure Page × σ :=
  match exchange (c.query tagKey tagValue token) s with
  | (.error cause, s) => (.error (c.sendFailure cause), s)
  | (.ok response, s) => (Page.ofResponse response, s)

/-- Collects the records of all pages from a token on. With `fuel` for fewer pages than there are
the listing has no outcome. -/
def collect {σ : Type} (c : Client) (exchange : Exchange σ) (tagKey : String) (tagValue : Value) :
    (fuel : Nat) → (token : Value) → σ → Option (Except Failure (List Pipeline)) × σ
  | 0, _, s => (none, s)
  | fuel + 1, token, s =>
    match c.page exchange tagKey tagValue token s with
    | (.error e, s) => (some (.error e), s)
    | (.ok page, s) =>
      if page.token.isSet then
        match collect c exchange tagKey tagValue fuel page.token s with
        | (some (.ok rest), s) => (some (.ok (page.records ++ rest)), s)
        | (outcome, s) => (outcome, s)
      else (some (.ok page.records), s)

/-- The pipelines with a tag, as a script answers. Every page takes a step of the script, so there
is an outcome at the latest when the steps are at an end. -/
def find (c : Client) (tagKey : String) (tagValue : Value) (script : Script) :
    Except Failure (List Pipeline) × Script :=
  match c.collect Script.ask tagKey tagValue (script.steps.length + 1) .null script with
  | (some outcome, script) => (outcome, script)
  | (none, script) => (.error (.of .connection "no more responses"), script)

/-! ### Tracing -/

/-- The name under which clients log. -/
def logger : String := "appatlas.infrastructure.http.client"

/-- The record after a number of pipelines have been found with a tag. -/
def foundTrace (count : Nat) (tagKey : String) (tagValue : Value) : Log.Record where
  logger := logger
  level := Log.debug
  template := "Found %d pipelines tagged %s=%s".toList
  values := [.int count, .text tagKey, tagValue]
  context := none
  failure := none

end Client

end AppReport
