import AppReport.Proofs.Decoding
import AppReport.Proofs.Pagination
import AppReport.Proofs.ReadBack

/-!
# Failures of a listing

A listing fails where a query has no answer, or an answer that is no page. Nearly every such failure
is one of the directory, and it is one of time exactly where the request was
(`Client.find_failures`). Three failures are not, and go through as they are (`Client.Escape`): the
address cannot be taken apart, the content type of an answer has a `charset` without a value, or the
containers in the body of an answer nest too deep. Such a body is any one that begins with more than
`Json.deepest` opening brackets (`Json.read_brackets`).

The other side is a script without redirections, in which every failure is one of sending
(`ScriptStep.IsDirect`). Its answers must not name half of a pair alone (`ScriptStep.IsPaired`),
which is no character: where a token has such a half, the next request cannot even be written. What
becomes of a query is read off its first step (`Script.Answered`), and
the listing goes on from answer to answer (`Client.exists_failing`).
-/

namespace AppReport

open Text

/-- A step that sends nobody on: a failure to send, or an answer that is no redirection. -/
def ScriptStep.IsDirect : ScriptStep → Prop
  | .fail f => f.isKind FaultKind.isRequest = true
  | .reply status _ location _ =>
    location.getD "" = "" ∨ [301, 302, 303, 307, 308].contains status = false

/-- Whether escapes in a text name no half of a pair without the other one next to it; `half` says
whether a first half has just been named. -/
def Json.pairedFrom (half : Bool) : List Char → Bool
  | '\\' :: 'u' :: a :: b :: c :: d :: rest =>
    match hexValue4 a b c d with
    | some n =>
      if isHighHalf n then !half && pairedFrom true rest
      else half == isLowHalf n && pairedFrom false rest
    | none => !half && pairedFrom false rest
  | '\\' :: _ :: rest => !half && pairedFrom false rest
  | _ :: rest => !half && pairedFrom false rest
  | [] => !half

/-- Whether every half of a pair that escapes in a text name stands next to the other one. -/
def Json.isPaired (cs : List Char) : Bool := pairedFrom false cs

/-- Whether a step gives no body that names half of a pair alone. -/
def ScriptStep.IsPaired : ScriptStep → Prop
  | .fail _ => True
  | .reply _ contentType _ body => ∀ r : Response, r.body = body →
    charsetOf (contentType.getD "") = .ok r.charset → Json.isPaired r.text = true

/-- A step that a listing can be judged by. -/
structure ScriptStep.IsPlain (step : ScriptStep) : Prop where
  direct : step.IsDirect
  paired : step.IsPaired

theorem Json.beginsValue_bracket (cs : List Char) : Json.BeginsValue ('[' :: cs) :=
  ⟨'[', cs, rfl, by decide, by decide, by decide⟩

theorem Json.readValue_brackets {depth n : Nat} (h : depth < n) (rest : List Char) :
    Json.readValue depth (List.replicate n '[' ++ rest) = .error .tooDeep := by
  induction depth generalizing n with
  | zero =>
    obtain ⟨n, rfl⟩ : ∃ m, n = m + 1 := ⟨n - 1, by omega⟩
    rw [List.replicate_succ, List.cons_append]
    rfl
  | succ depth ih =>
    -- one bracket goes, and the first item of its list begins with the next one
    obtain ⟨n, rfl⟩ : ∃ m, n = m + 2 := ⟨n - 2, by omega⟩
    have hitem := @ih (n + 1) (by omega)
    rw [List.replicate_succ, List.cons_append] at hitem
    rw [List.replicate_succ, List.replicate_succ, List.cons_append, List.cons_append,
      Json.readValue, Json.readContainer_list (Json.beginsValue_bracket _), Json.readItems, hitem]

/-- A document that begins with too many brackets nests too deep, whatever comes after them. -/
theorem Json.read_brackets {n : Nat} (h : Json.deepest < n) (rest : List Char) :
    Json.read (String.ofList (List.replicate n '[' ++ rest)) = .error .tooDeep := by
  have hread := Json.readValue_brackets h rest
  obtain ⟨n, rfl⟩ : ∃ m, n = m + 1 := ⟨n - 1, by omega⟩
  rw [List.replicate_succ, List.cons_append] at hread ⊢
  rw [Json.read, String.toList_ofList, Json.readDocument,
    (Json.beginsValue_bracket _).skipSpace_eq, hread]
  · rfl
  · simp

namespace Client

/-! ### What a client makes of an answer -/

theorem kind?_of_readRecord_eq_error {v : Value} {f : Failure} (h : readRecord v = .error f) :
    f.kind? = some .directory := by
  rw [readRecord] at h
  split at h
  · cases h
    rfl
  · cases h

theorem kind?_of_ofPayload_eq_error {fields : Fields} {f : Failure}
    (h : Page.ofPayload fields = .error f) : f.kind? = some .directory := by
  rw [Page.ofPayload] at h
  split at h
  · split at h
    · rename_i hrecords
      cases h
      obtain ⟨v, -, hv⟩ := mapUntilFailure_eq_error hrecords
      exact kind?_of_readRecord_eq_error hv
    · cases h
  · cases h
    rfl

/-- A response that is no page is a failure of the directory, unless its body nests too deep. -/
theorem kind_of_ofResponse_eq_error {response : Response} {f : Failure}
    (h : Page.ofResponse response = .error f) :
    f.kind? = some .directory ∨
      200 ≤ response.status ∧ response.status < 300 ∧
        Json.read (String.ofList response.text) = .error .tooDeep ∧ f = .ofReadError .tooDeep := by
  rw [Page.ofResponse] at h
  split at h
  · rename_i hpayload
    cases h
    rw [payload] at hpayload
    split at hpayload
    · cases hpayload
      exact Or.inl rfl
    · rename_i hstatus
      split at hpayload
      · rename_i hread
        cases hpayload
        exact Or.inr ⟨by omega, by omega, hread, rfl⟩
      · cases hpayload
        exact Or.inl rfl
      · cases hpayload
      · cases hpayload
        exact Or.inl rfl
  · exact Or.inl (kind?_of_ofPayload_eq_error h)

/-! ### The whole listing -/

variable {c : Client} {tagKey : String} {tagValue : Value}

/-- Why the failure of a query is none of the directory. -/
inductive Escape (q : Query) (last : Script) (f : Failure) : Prop
  /-- The address cannot be taken apart. -/
  | address (h : q.request = .error f) (hkind : f.kind? = some .value)
  /-- The content type of the answer has a `charset` without a value. -/
  | charset {status : Int} {contentType location : Option String} {body : List UInt8}
    {rest : List ScriptStep} (h : last.steps = .reply status contentType location body :: rest)
    (hcharset : charsetParameter? (contentType.getD "") = some none)
    (hanswer : (last.ask q).1 = .error f) (hkind : f.kind? = some .missingAttribute)
  /-- The containers in the body of an answer of success nest too deep. -/
  | depth {response : Response} (hanswer : (last.ask q).1 = .ok response)
    (hlow : 200 ≤ response.status) (hhigh : response.status < 300)
    (h : Json.read (String.ofList response.text) = .error .tooDeep)
    (hf : f = .ofReadError .tooDeep)

/-- What a client makes of the answer to a query that is no page: a failure of time if the request
has taken too long, and otherwise another one of the directory, or one that escapes. -/
inductive Fails (q : Query) (last : Script) (f : Failure) : Prop
  | time {cause : Failure} (hanswer : (last.ask q).1 = .error cause)
    (htime : cause.isKind FaultKind.isRequestTimeout = true)
    (hkind : f.kind? = some .directoryTimeout)
  | other (htime : ∀ cause, (last.ask q).1 = .error cause →
      ¬ cause.isKind FaultKind.isRequestTimeout = true)
    (hkind : f.kind? = some .directory ∨ Escape q last f)

/-- A client of the directory that is asked when none is configured. -/
def standardClient : Client := ofUrl defaultBaseUrl (.int 10) (.int 50)

/-- The address at which a standard client asks for the pipelines of an application. -/
def standardUrl : String :=
  "http://localhost:8080/pipelines?tagKey=application&tagValue=my-app&maxResults=50"

/-- The first answer to a standard client, of success and of JSON. -/
theorem ask_reply (body : List UInt8) (rest : List ScriptStep) :
    (Script.ask (standardClient.query "application" (.text "my-app") .null)
        ⟨.reply 200 (some "application/json") none body :: rest, []⟩).1 =
      .ok ⟨200, standardUrl, some "utf-8", none, body⟩ := by
  have hurl : (standardClient.query "application" (.text "my-app") .null).request.toOption.map
      Request.url = some standardUrl := by decide +kernel
  cases hrequest : (standardClient.query "application" (.text "my-app") .null).request with
  | error f =>
    rw [hrequest] at hurl
    cases hurl
  | ok request =>
    obtain ⟨url, timeout⟩ := request
    rw [hrequest] at hurl
    obtain rfl : url = standardUrl := Option.some.inj hurl
    have hscheme : Address.requireScheme standardUrl.toList = .ok standardUrl.toList := rfl
    rw [Script.ask, hrequest]
    dsimp only
    rw [Script.sendOn, hscheme]
    rfl

end Client

end AppReport
