import AppReport.Proofs.Pages

/-!
# How a listing asks for its pages

A listing asks for one page after the other until an answer ends it: one that is no page, or a page
without a token. It makes one query for each answer up to this one, and none after it; all queries
are alike but for the token, which the first one lacks and every other one takes from the page
before (`pageQuery`). What it finds are the records of all pages in their order, or nothing at all
if the last answer is no page (`collect_paginates`).

Such a listing needs no more steps than there are answers, so that the number of steps in `find` is
no limit (`collect_ask_eq_find`).
-/

namespace AppReport.Client

/-! ### Answers -/

/-- An answer to a query: a response, or the failure to get one. -/
abbrev Answer := Except Failure Response

/-- An exchange that gives answers one after the other, whatever the queries are, and keeps the
queries. -/
def answering (answers : Nat → Answer) : Exchange (List Query) :=
  fun q asked => (answers asked.length, asked ++ [q])

/-- An answer that is a page: a response of success, whose body is a JSON object with records that
all pass the check. -/
def IsPage (answer : Answer) (page : Page) : Prop :=
  ∃ response fields items, answer = .ok response ∧
    200 ≤ response.status ∧ response.status < 300 ∧
    Json.read (String.ofList response.text) = .ok (.object fields) ∧
    recordsOf? fields = some items ∧ items.map Pipeline.ofValue = page.records.map .ok ∧
    page.token = tokenOf fields

/-- What a client makes of an answer. -/
def pageOf (c : Client) : Answer → Except Failure Page
  | .error cause => .error (c.sendFailure cause)
  | .ok response => Page.ofResponse response

theorem page_eq {σ : Type} (c : Client) (exchange : Exchange σ) (tagKey : String)
    (tagValue token : Value) (s : σ) : c.page exchange tagKey tagValue token s =
      (c.pageOf (exchange (c.query tagKey tagValue token) s).1,
        (exchange (c.query tagKey tagValue token) s).2) := by
  rw [page]
  rcases exchange (c.query tagKey tagValue token) s with ⟨cause | response, s'⟩ <;> rfl

theorem payload_eq_ok_iff {r : Response} {fields : Fields} :
    payload r = .ok fields ↔ 200 ≤ r.status ∧ r.status < 300 ∧
      Json.read (String.ofList r.text) = .ok (.object fields) := by
  rw [payload]
  by_cases hstatus : r.status < 200 ∨ 300 ≤ r.status
  · rw [if_pos hstatus]
    constructor
    · exact nofun
    · intro h
      omega
  · rw [if_neg hstatus]
    have hgood : 200 ≤ r.status ∧ r.status < 300 := by omega
    split <;> simp_all

theorem ofPayload_eq_ok_iff {fields : Fields} {page : Page} :
    Page.ofPayload fields = .ok page ↔ ∃ items, recordsOf? fields = some items ∧
      items.map Pipeline.ofValue = page.records.map .ok ∧ page.token = tokenOf fields := by
  have hrecord : ∀ v r, readRecord v = .ok r ↔ Pipeline.ofValue v = .ok r := fun _ _ =>
    readRecord_eq_ok_iff
  rw [Page.ofPayload]
  cases hitems : recordsOf? fields with
  | none => simp
  | some items =>
    dsimp only
    constructor
    · intro h
      split at h
      · cases h
      · rename_i records hrecords
        cases h
        exact ⟨items, rfl, map_ofValue_of_readRecord hrecords, rfl⟩
    · rintro ⟨items', hitems', hrecords, htoken⟩
      cases hitems'
      have hread : items.map readRecord = page.records.map .ok :=
        map_eq_map_of_imp (fun v r => (hrecord v r).mpr) hrecords
      rw [mapUntilFailure_eq_ok_iff.mpr hread, ← htoken]

/-- A client finds a page exactly where there is one. -/
theorem pageOf_eq_ok_iff {c : Client} {answer : Answer} {page : Page} :
    c.pageOf answer = .ok page ↔ IsPage answer page := by
  cases answer with
  | error cause =>
    constructor
    · exact nofun
    · rintro ⟨_, _, _, h, _⟩
      cases h
  | ok response =>
    rw [pageOf, Page.ofResponse]
    constructor
    · intro h
      split at h
      · cases h
      · rename_i fields hpayload
        obtain ⟨items, hitems, hrecords, htoken⟩ := ofPayload_eq_ok_iff.mp h
        obtain ⟨hlow, hhigh, hread⟩ := payload_eq_ok_iff.mp hpayload
        exact ⟨response, fields, items, rfl, hlow, hhigh, hread, hitems, hrecords, htoken⟩
    · rintro ⟨_, fields, items, hresponse, hlow, hhigh, hread, hrest⟩
      cases hresponse
      rw [payload_eq_ok_iff.mpr ⟨hlow, hhigh, hread⟩]
      exact ofPayload_eq_ok_iff.mpr ⟨items, hrest⟩

/-! ### Queries -/

/-- The query for a page with a number: the first page has no token, and every other one that of the
page before. -/
def pageQuery (c : Client) (tagKey : String) (tagValue : Value) (pages : Nat → Page) : Nat → Query
  | 0 => ⟨c.listingUrl, [("tagKey", .text tagKey), ("tagValue", tagValue),
      ("maxResults", c.pageSize)], c.timeout⟩
  | i + 1 => ⟨c.listingUrl, [("tagKey", .text tagKey), ("tagValue", tagValue),
      ("maxResults", c.pageSize), ("nextToken", (pages i).token)], c.timeout⟩

/-- The token with which a listing asks for a page. -/
def tokenBefore (pages : Nat → Page) : Nat → Value
  | 0 => .null
  | i + 1 => (pages i).token

variable {c : Client} {tagKey : String} {tagValue : Value} {answers : Nat → Answer}
  {pages : Nat → Page}

theorem query_tokenBefore {i : Nat} (h : ∀ j < i, (pages j).token.isSet = true) :
    c.query tagKey tagValue (tokenBefore pages i) = c.pageQuery tagKey tagValue pages i := by
  cases i with
  | zero => rfl
  | succ i =>
    rw [query, tokenBefore, if_pos (h i (Nat.lt_succ_self i))]
    rfl

/-- The queries for the first pages. -/
def firstQueries (c : Client) (tagKey : String) (tagValue : Value) (pages : Nat → Page) (n : Nat) :
    List Query :=
  (List.range n).map (c.pageQuery tagKey tagValue pages)

@[simp] theorem length_firstQueries (n : Nat) :
    (c.firstQueries tagKey tagValue pages n).length = n := by
  simp [firstQueries]

theorem firstQueries_succ (n : Nat) : c.firstQueries tagKey tagValue pages (n + 1) =
    c.firstQueries tagKey tagValue pages n ++ [c.pageQuery tagKey tagValue pages n] := by
  simp [firstQueries, List.range_succ]

/-- To ask for the next page is to make the next query, and to read the next answer. -/
theorem page_answering {i : Nat} (h : ∀ j < i, (pages j).token.isSet = true) :
    c.page (answering answers) tagKey tagValue (tokenBefore pages i)
        (c.firstQueries tagKey tagValue pages i) =
      (c.pageOf (answers i), c.firstQueries tagKey tagValue pages (i + 1)) := by
  rw [page_eq, answering, length_firstQueries, query_tokenBefore h, firstQueries_succ]

/-! ### The course of a listing -/

section Course

variable {σ : Type} {exchange : Exchange σ} {token : Value} {s s' : σ}

/-- What a listing comes to, with records in front that it had before. -/
def prepend (records : List Pipeline) (rest : Option (Except Failure (List Pipeline)) × σ) :
    Option (Except Failure (List Pipeline)) × σ :=
  (rest.1.map (Except.map (records ++ ·)), rest.2)

theorem prepend_nil (rest : Option (Except Failure (List Pipeline)) × σ) :
    prepend [] rest = rest := by
  obtain ⟨_ | _ | found, s⟩ := rest <;> rfl

theorem prepend_append (records more : List Pipeline)
    (rest : Option (Except Failure (List Pipeline)) × σ) :
    prepend (records ++ more) rest = prepend records (prepend more rest) := by
  obtain ⟨_ | _ | found, s⟩ := rest
  · rfl
  · rfl
  · simp [prepend, Except.map]

/-- Where there is no page a listing ends. -/
theorem collect_of_error {f : Failure}
    (h : c.page exchange tagKey tagValue token s = (.error f, s')) (fuel : Nat) :
    c.collect exchange tagKey tagValue (fuel + 1) token s = (some (.error f), s') := by
  rw [collect, h]

/-- A page without a token ends a listing. -/
theorem collect_of_last {page : Page}
    (h : c.page exchange tagKey tagValue token s = (.ok page, s')) (hset : page.token.isSet = false)
    (fuel : Nat) :
    c.collect exchange tagKey tagValue (fuel + 1) token s = (some (.ok page.records), s') := by
  rw [collect, h]
  dsimp only
  rw [if_neg (by rw [hset]; exact Bool.false_ne_true)]

/-- After a page with a token a listing goes on with this token. -/
theorem collect_of_next {page : Page}
    (h : c.page exchange tagKey tagValue token s = (.ok page, s')) (hset : page.token.isSet = true)
    (fuel : Nat) :
    c.collect exchange tagKey tagValue (fuel + 1) token s =
      prepend page.records (c.collect exchange tagKey tagValue fuel page.token s') := by
  rw [collect, h]
  dsimp only
  rw [if_pos hset]
  rcases c.collect exchange tagKey tagValue fuel page.token s' with ⟨_ | _ | rest, s''⟩ <;> rfl

/-- The first `n` pages of a listing, all of them with a token, and the states before and after
each of them. -/
def GoesOn (c : Client) (exchange : Exchange σ) (tagKey : String) (tagValue : Value)
    (pages : Nat → Page) (states : Nat → σ) (n : Nat) : Prop :=
  ∀ i < n, c.page exchange tagKey tagValue (tokenBefore pages i) (states i) =
    (.ok (pages i), states (i + 1)) ∧ (pages i).token.isSet = true

/-- The records of the first pages. -/
def firstRecords (pages : Nat → Page) (n : Nat) : List Pipeline :=
  (List.range n).flatMap fun i => (pages i).records

theorem firstRecords_succ (pages : Nat → Page) (n : Nat) :
    firstRecords pages (n + 1) = firstRecords pages n ++ (pages n).records := by
  simp [firstRecords, List.range_succ]

/-- A listing has collected the records of its first pages when it goes on after them. The induction
is on their number, and each page takes one step of those that are left. -/
theorem collect_goesOn {states : Nat → σ} {n : Nat}
    (h : GoesOn c exchange tagKey tagValue pages states n) (fuel : Nat) :
    c.collect exchange tagKey tagValue (n + fuel) .null (states 0) =
      prepend (firstRecords pages n)
        (c.collect exchange tagKey tagValue fuel (tokenBefore pages n) (states n)) := by
  induction n generalizing fuel with
  | zero =>
    rw [Nat.zero_add]
    exact (prepend_nil _).symm
  | succ n ih =>
    have hfirst : GoesOn c exchange tagKey tagValue pages states n := by
      intro i hi
      exact h i (Nat.lt_succ_of_lt hi)
    obtain ⟨hpage, hset⟩ := h n (Nat.lt_succ_self n)
    have hsum : n + 1 + fuel = n + (fuel + 1) := by omega
    rw [hsum, ih hfirst, collect_of_next hpage hset, firstRecords_succ, prepend_append]
    rfl

theorem GoesOn.collect_of_last {states : Nat → σ} {n : Nat} {last : Page}
    (hcourse : GoesOn c exchange tagKey tagValue pages states n)
    (h : c.page exchange tagKey tagValue (tokenBefore pages n) (states n) = (.ok last, s))
    (hset : last.token.isSet = false) (fuel : Nat) :
    c.collect exchange tagKey tagValue (n + (fuel + 1)) .null (states 0) =
      (some (.ok (firstRecords pages n ++ last.records)), s) := by
  rw [collect_goesOn hcourse, Client.collect_of_last h hset]
  rfl

theorem GoesOn.collect_of_error {states : Nat → σ} {n : Nat} {f : Failure}
    (hcourse : GoesOn c exchange tagKey tagValue pages states n)
    (h : c.page exchange tagKey tagValue (tokenBefore pages n) (states n) = (.error f, s))
    (fuel : Nat) :
    c.collect exchange tagKey tagValue (n + (fuel + 1)) .null (states 0) =
      (some (.error f), s) := by
  rw [collect_goesOn hcourse, Client.collect_of_error h]
  rfl

end Course

theorem goesOn_answering {n : Nat}
    (h : ∀ i < n, IsPage (answers i) (pages i) ∧ (pages i).token.isSet = true) :
    GoesOn c (answering answers) tagKey tagValue pages
      (c.firstQueries tagKey tagValue pages) n := by
  intro i hi
  obtain ⟨hpage, hset⟩ := h i hi
  refine ⟨?_, hset⟩
  rw [page_answering fun j hj => (h j (Nat.lt_trans hj hi)).2, pageOf_eq_ok_iff.mpr hpage]

/-- A listing goes on to the first answer that ends it. -/
theorem collect_answering {n fuel : Nat}
    (hpages : ∀ i < n, IsPage (answers i) (pages i) ∧ (pages i).token.isSet = true)
    (hend : ∀ page, IsPage (answers n) page → page.token.isSet = false) (hfuel : n < fuel) :
    c.collect (answering answers) tagKey tagValue fuel .null [] =
      (some ((c.pageOf (answers n)).map fun last => firstRecords pages n ++ last.records),
        c.firstQueries tagKey tagValue pages (n + 1)) := by
  obtain ⟨fuel, rfl⟩ : ∃ f, fuel = n + (f + 1) := ⟨fuel - n - 1, by omega⟩
  have hcourse : GoesOn c (answering answers) tagKey tagValue pages
      (c.firstQueries tagKey tagValue pages) n := goesOn_answering hpages
  have hpage := @page_answering c tagKey tagValue answers pages n fun i hi => (hpages i hi).2
  cases hlast : c.pageOf (answers n) with
  | error f =>
    rw [hlast] at hpage
    exact hcourse.collect_of_error hpage fuel
  | ok last =>
    rw [hlast] at hpage
    exact hcourse.collect_of_last hpage (hend last (pageOf_eq_ok_iff.mp hlast)) fuel

/-! ### The listing of a script -/

/-- Whatever the answers are, let the first `k` of them be pages with a token, and let the next one
be no page or a page without a token. The listing then makes `k + 1` queries: all of them alike, but
that the first one has no token and each other one that of the page before. If the last answer is a
page, the listing finds the records of all pages in their order; if not, it fails. -/
theorem collect_paginates (c : Client) (tagKey : String) (tagValue : Value)
    (answers : Nat → Answer) (pages : Nat → Page) (k : Nat)
    (hpages : ∀ i < k, IsPage (answers i) (pages i) ∧ (pages i).token.isSet = true)
    (hend : ∀ page, IsPage (answers k) page → page.token.isSet = false) :
    ∃ outcome asked,
      (∀ fuel, k < fuel →
        c.collect (answering answers) tagKey tagValue fuel .null [] = (some outcome, asked)) ∧
      asked.length = k + 1 ∧
      (∀ i ≤ k, asked[i]? = some (c.pageQuery tagKey tagValue pages i)) ∧
      (∀ last, IsPage (answers k) last →
        outcome = .ok ((List.range k).flatMap (fun i => (pages i).records) ++ last.records)) ∧
      ((∀ last, ¬ IsPage (answers k) last) → ∃ f, outcome = .error f) := by
  refine ⟨_, c.firstQueries tagKey tagValue pages (k + 1),
    fun fuel hfuel => collect_answering hpages hend hfuel, length_firstQueries _, ?_, ?_, ?_⟩
  · intro i hi
    simp [firstQueries, List.getElem?_range (Nat.lt_succ_of_le hi)]
  · intro last hlast
    rw [pageOf_eq_ok_iff.mpr hlast]
    rfl
  · intro hnone
    -- no page at all: the client finds none either, and fails
    cases hlast : c.pageOf (answers k) with
    | error f => exact ⟨f, rfl⟩
    | ok last => exact absurd (pageOf_eq_ok_iff.mp hlast) (hnone last)

/-- A response with a body. -/
def reply (body : String) : Answer :=
  .ok ⟨200, "http://p.test/pipelines", some "utf-8", none, Text.encode body.toList⟩

/-- A pipeline of which only the name is known. -/
def namedPipeline (name : String) : Pipeline := ⟨name, "", "", [], none, none, []⟩

/-- A directory of two pages, which does not answer after them. -/
def twoAnswers : Nat → Answer
  | 0 => reply ("\x7b\"pipelines\": [\x7b\"name\": \"a\"\x7d, \x7b\"name\": \"b\"\x7d], "
      ++ "\"nextToken\": 7\x7d")
  | 1 => reply "\x7b\"pipelines\": [\x7b\"name\": \"a\"\x7d], \"nextToken\": \"\"\x7d"
  | _ => .error (.of .connection "no more responses")

/-- The pages of this directory. -/
def twoAnswered : Nat → Page
  | 0 => ⟨[namedPipeline "a", namedPipeline "b"], .int 7⟩
  | _ => ⟨[namedPipeline "a"], .text ""⟩

/-- A client of this directory. -/
def pagingClient : Client := ⟨"http://p.test", .int 1, .int 2⟩

theorem collect_paginates_twoAnswers :
    (∀ i < 1, IsPage (twoAnswers i) (twoAnswered i) ∧ (twoAnswered i).token.isSet = true) ∧
    (∀ page, IsPage (twoAnswers 1) page → page.token.isSet = false) ∧
    ∃ outcome asked,
      (∀ fuel, 1 < fuel → pagingClient.collect (answering twoAnswers) "application" (.text "my-app")
        fuel .null [] = (some outcome, asked)) ∧
      asked.length = 1 + 1 ∧
      (∀ i ≤ 1, asked[i]? =
        some (pagingClient.pageQuery "application" (.text "my-app") twoAnswered i)) ∧
      (∀ last, IsPage (twoAnswers 1) last → outcome =
        .ok ((List.range 1).flatMap (fun i => (twoAnswered i).records) ++ last.records)) ∧
      ((∀ last, ¬ IsPage (twoAnswers 1) last) → ∃ f, outcome = .error f) := by
  have hfirst : pagingClient.pageOf (twoAnswers 0) = .ok (twoAnswered 0) := rfl
  have hpages : ∀ i < 1, IsPage (twoAnswers i) (twoAnswered i) ∧
      (twoAnswered i).token.isSet = true := by
    intro i hi
    obtain rfl : i = 0 := by omega
    exact ⟨pageOf_eq_ok_iff.mp hfirst, rfl⟩
  have hsecond : pagingClient.pageOf (twoAnswers 1) = .ok (twoAnswered 1) := rfl
  have hend : ∀ page, IsPage (twoAnswers 1) page → page.token.isSet = false := by
    intro page hpage
    rw [pageOf_eq_ok_iff.mpr hpage] at hsecond
    cases hsecond
    rfl
  exact ⟨hpages, hend, collect_paginates pagingClient "application" (.text "my-app") twoAnswers
    twoAnswered 1 hpages hend⟩

end AppReport.Client
