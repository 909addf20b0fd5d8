import AppReport.Proofs.Containment

/-!
# Which pages a listing accepts

A body that can be read is accepted as a page if it is an object whose `pipelines` are a list of
records that all pass the check, or are not set; whatever its `nextToken` is becomes the token of
the page (`Client.Gives`). At any place of a listing, the records of an accepted page are added and
its token is followed, and every other body ends the listing with a failure of the directory
(`Client.collect_accepts`).

The documented form of a page is narrower (`Client.Documented`). What is accepted beyond it is taken
for something else (`Client.Lenient`): an empty object, zero, `false` or an empty text for a missing
list of pipelines, and a value that is no text for a token (`Client.documented_iff`).
-/

namespace AppReport.Client

/-! ### Bodies and pages -/

/-- The page that a body gives. -/
def Gives (body : Value) (page : Page) : Prop :=
  ∃ fields : Fields, body = .object fields ∧ page.token = fields.getD "nextToken" ∧
    ((fields.getD "pipelines").isSet = false ∧ page.records = [] ∨
      ∃ items, fields.getD "pipelines" = .list items ∧
        items.map Pipeline.ofValue = page.records.map .ok)

/-- A body in the documented form of a page. -/
def Documented (body : Value) : Prop :=
  ∃ fields : Fields, body = .object fields ∧
    (fields.getD "pipelines" = .null ∨ ∃ items, fields.getD "pipelines" = .list items ∧
      ∀ v ∈ items, ∃ p, Pipeline.ofValue v = .ok p) ∧
    (fields.getD "nextToken" = .null ∨ ∃ s, fields.getD "nextToken" = .text s)

/-- Fields that are taken for something else than they are. -/
inductive Lenient (fields : Fields) : Prop
  /-- What is no list of pipelines counts as missing. -/
  | records (hset : (fields.getD "pipelines").isSet = false)
    (hnull : fields.getD "pipelines" ≠ .null)
    (hlist : ∀ items, fields.getD "pipelines" ≠ .list items)
  /-- What is no text counts as a token, or as missing. -/
  | token (hnull : fields.getD "nextToken" ≠ .null)
    (htext : ∀ s, fields.getD "nextToken" ≠ .text s)

/-- A list that is not set has no items. -/
theorem eq_nil_of_isSet_list {items : List Value} (h : (Value.list items).isSet = false) :
    items = [] := by
  simpa [Value.isSet] using h

theorem recordsOf?_eq_some_iff {fields : Fields} {items : List Value} :
    recordsOf? fields = some items ↔
      (fields.getD "pipelines").isSet = false ∧ items = [] ∨
        fields.getD "pipelines" = .list items := by
  unfold recordsOf?
  dsimp only
  generalize fields.getD "pipelines" = records
  by_cases hset : records.isSet = true
  · rw [if_pos hset]
    cases records <;> simp [hset]
  · have hunset : records.isSet = false := by simpa using hset
    rw [if_neg hset]
    constructor
    · intro h
      cases h
      exact Or.inl ⟨hunset, rfl⟩
    · rintro (⟨-, rfl⟩ | rfl)
      · rfl
      · rw [eq_nil_of_isSet_list hunset]

theorem ofPayload_eq_ok_iff_gives {fields : Fields} {page : Page} :
    Page.ofPayload fields = .ok page ↔ Gives (.object fields) page := by
  rw [ofPayload_eq_ok_iff]
  constructor
  · rintro ⟨items, hitems, hrecords, htoken⟩
    refine ⟨fields, rfl, htoken, ?_⟩
    rcases recordsOf?_eq_some_iff.mp hitems with ⟨hunset, rfl⟩ | hlist
    · exact Or.inl ⟨hunset, List.map_eq_nil_iff.mp hrecords.symm⟩
    · exact Or.inr ⟨items, hlist, hrecords⟩
  · rintro ⟨fields', hsame, htoken, hrecords⟩
    cases hsame
    rcases hrecords with ⟨hunset, hnone⟩ | ⟨items, hlist, hrecords⟩
    · exact ⟨[], recordsOf?_eq_some_iff.mpr (Or.inl ⟨hunset, rfl⟩), by rw [hnone]; rfl, htoken⟩
    · exact ⟨items, recordsOf?_eq_some_iff.mpr (Or.inr hlist), hrecords, htoken⟩

/-- The documented bodies are those that give a page and are taken for what they are. -/
theorem documented_iff {body : Value} :
    Documented body ↔
      (∃ page, Gives body page) ∧ ∀ fields, body = .object fields → ¬ Lenient fields := by
  constructor
  · rintro ⟨fields, rfl, hrecords, htoken⟩
    constructor
    · rcases hrecords with hnull | ⟨items, hlist, hitems⟩
      · exact ⟨⟨[], _⟩, fields, rfl, rfl, Or.inl ⟨by rw [hnull]; rfl, rfl⟩⟩
      · obtain ⟨records, hmap⟩ := exists_map_eq_map_ok_iff.mpr hitems
        exact ⟨⟨records, _⟩, fields, rfl, rfl, Or.inr ⟨items, hlist, hmap⟩⟩
    · rintro _ ⟨⟩ hlenient
      cases hlenient with
      | records _ hnull hlist =>
        rcases hrecords with hrecords | ⟨items, hrecords, -⟩
        · exact hnull hrecords
        · exact hlist items hrecords
      | token hnull htext =>
        rcases htoken with htoken | ⟨s, htoken⟩
        · exact hnull htoken
        · exact htext s htoken
  · rintro ⟨⟨page, fields, rfl, -, hrecords⟩, hstrict⟩
    have hstays := hstrict fields rfl
    refine ⟨fields, rfl, ?_, ?_⟩
    · rcases hrecords with ⟨hunset, -⟩ | ⟨items, hlist, hmap⟩
      · by_contra hother
        rw [not_or] at hother
        -- what is not set but not null is taken for no records: an empty list alone may be
        refine hstays (.records hunset hother.1 fun items hlist => hother.2 ⟨items, hlist, ?_⟩)
        rw [hlist] at hunset
        rw [eq_nil_of_isSet_list hunset]
        exact List.forall_mem_nil _
      · exact Or.inr ⟨items, hlist, exists_map_eq_map_ok_iff.mp ⟨page.records, hmap⟩⟩
    · by_contra hother
      rw [not_or] at hother
      exact hstays (.token hother.1 fun s hs => hother.2 ⟨s, hs⟩)

/-- A response of success whose body can be read is the page that the body gives, and a failure of
the directory if it gives none. -/
theorem ofResponse_of_read {response : Response} {body : Value} (hlow : 200 ≤ response.status)
    (hhigh : response.status < 300) (hread : Json.read (String.ofList response.text) = .ok body) :
    (∀ page, Page.ofResponse response = .ok page ↔ Gives body page) ∧
    ((¬ ∃ page, Gives body page) →
      ∃ f, Page.ofResponse response = .error f ∧ f.kind? = some .directory) := by
  have hpage : ∀ page, Page.ofResponse response = .ok page ↔ Gives body page := by
    intro page
    unfold Page.ofResponse
    constructor
    · intro h
      split at h
      · cases h
      · rename_i fields hpayload
        have hobject := (payload_eq_ok_iff.mp hpayload).2.2
        rw [hread] at hobject
        cases hobject
        exact ofPayload_eq_ok_iff_gives.mp h
    · intro h
      obtain ⟨fields, rfl, -⟩ := id h
      rw [payload_eq_ok_iff.mpr ⟨hlow, hhigh, hread⟩]
      exact ofPayload_eq_ok_iff_gives.mpr h
  refine ⟨hpage, fun hnone => ?_⟩
  cases hfails : Page.ofResponse response with
  | ok page => exact absurd ⟨page, (hpage page).mp hfails⟩ hnone
  | error f =>
    -- the only failure of another kind is that of a body which cannot be read
    refine ⟨f, rfl, (kind_of_ofResponse_eq_error hfails).resolve_right ?_⟩
    rintro ⟨-, -, hdeep, -⟩
    rw [hread] at hdeep
    cases hdeep

/-! ### The place of a page in a listing -/

variable {σ : Type}

/-- A body that can be read, in an answer of success to the query for any page of a listing. If it
gives a page, the listing goes on with the records of this page and with its token, or ends with
these records if the token is not set. If it gives none, the listing fails with a failure of the
directory and asks for nothing more. The documented bodies are those that give a page and are taken
for what they are. -/
theorem collect_accepts (c : Client) (exchange : Exchange σ) (tagKey : String) (tagValue : Value)
    (pages : Nat → Page) (states : Nat → σ) (n : Nat) (response : Response) (s : σ) (body : Value)
    (hcourse : GoesOn c exchange tagKey tagValue pages states n)
    (hask : exchange (c.query tagKey tagValue (tokenBefore pages n)) (states n) = (.ok response, s))
    (hlow : 200 ≤ response.status) (hhigh : response.status < 300)
    (hread : Json.read (String.ofList response.text) = .ok body) :
    (∀ page, Gives body page → ∀ fuel,
      c.collect exchange tagKey tagValue (n + (fuel + 1)) .null (states 0) =
        prepend (firstRecords pages n ++ page.records)
          (if page.token.isSet then c.collect exchange tagKey tagValue fuel page.token s
          else (some (.ok []), s))) ∧
    ((¬ ∃ page, Gives body page) → ∃ f, f.kind? = some .directory ∧ ∀ fuel,
      c.collect exchange tagKey tagValue (n + (fuel + 1)) .null (states 0) =
        (some (.error f), s)) ∧
    (Documented body ↔
      (∃ page, Gives body page) ∧ ∀ fields, body = .object fields → ¬ Lenient fields) := by
  obtain ⟨haccepted, hrefused⟩ := ofResponse_of_read hlow hhigh hread
  have hanswer : c.page exchange tagKey tagValue (tokenBefore pages n) (states n) =
      (Page.ofResponse response, s) := by
    rw [page_eq, hask]
    rfl
  refine ⟨?_, ?_, documented_iff⟩
  · intro page hgives fuel
    rw [(haccepted page).mpr hgives] at hanswer
    -- with a token the listing goes on after the page, and without one it ends there
    by_cases hset : page.token.isSet = true
    · rw [if_pos hset, collect_goesOn hcourse, collect_of_next hanswer hset, prepend_append]
    · have hunset : page.token.isSet = false := by simpa using hset
      rw [if_neg hset, hcourse.collect_of_last hanswer hunset]
      simp [prepend, Except.map]
  · intro hnone
    obtain ⟨f, hfails, hkind⟩ := hrefused hnone
    rw [hfails] at hanswer
    exact ⟨f, hkind, fun fuel => hcourse.collect_of_error hanswer fuel⟩

/-- A directory that gives a page with a token, and then a text for a list of pipelines. -/
def wordAnswers : Nat → Answer
  | 0 => twoAnswers 0
  | _ => reply "\x7b\"pipelines\": \"none\"\x7d"

theorem collect_accepts_wordAnswers :
    GoesOn pagingClient (answering wordAnswers) "application" (.text "my-app") twoAnswered
      (pagingClient.firstQueries "application" (.text "my-app") twoAnswered) 1 ∧
    ∃ f, f.kind? = some .directory ∧ ∀ fuel,
      pagingClient.collect (answering wordAnswers) "application" (.text "my-app") (1 + (fuel + 1))
          .null [] =
        (some (.error f),
          pagingClient.firstQueries "application" (.text "my-app") twoAnswered 2) := by
  have hcourse : GoesOn pagingClient (answering wordAnswers) "application" (.text "my-app")
      twoAnswered (pagingClient.firstQueries "application" (.text "my-app") twoAnswered) 1 := by
    intro i hi
    obtain rfl : i = 0 := by omega
    exact ⟨rfl, rfl⟩
  obtain ⟨-, hrefused, -⟩ := collect_accepts pagingClient (answering wordAnswers) "application"
    (.text "my-app") twoAnswered (pagingClient.firstQueries "application" (.text "my-app")
      twoAnswered) 1 _ (pagingClient.firstQueries "application" (.text "my-app") twoAnswered 2)
    (.object [("pipelines", .text "none")]) hcourse rfl (by decide) (by decide) rfl
  refine ⟨hcourse, hrefused ?_⟩
  rintro ⟨page, fields, hfields, -, hrecords⟩
  cases hfields
  rcases hrecords with ⟨hunset, -⟩ | ⟨items, hlist, -⟩
  · cases hunset
  · cases hlist

/-- A page with an object for the list of pipelines. -/
def objectBody : String := "\x7b\"pipelines\": \x7b\x7d\x7d"

/-- An empty object for the list of pipelines is not documented, and no failure of a listing. -/
theorem find_lenient :
    Json.read objectBody = .ok (.object [("pipelines", .object [])]) ∧
    ¬ Documented (.object [("pipelines", .object [])]) ∧
    (standardClient.find "application" (.text "my-app")
      ⟨[.reply 200 (some "application/json") none (Text.encode objectBody.toList)], []⟩).1 =
        .ok [] := by
  refine ⟨rfl, ?_, ?_⟩
  · intro hdocumented
    refine (documented_iff.mp hdocumented).2 _ rfl (.records rfl ?_ ?_)
    · exact nofun
    · exact nofun
  · rw [find, collect, page_eq, ask_reply]
    rfl

end AppReport.Client
