import AppReport.Proofs.Pagination
import Mathlib.Data.List.Nodup
import Mathlib.Data.Nat.Find

/-!
# When a listing ends

Let a directory answer by the token of a query alone, with pages only (`Client.byToken`). The tokens
form a chain then: each page gives the token that the next one is asked with, and the first page is
asked without one (`Client.chain`). A listing follows this chain. It ends exactly if the chain comes
to a token that is not set, after as many queries as there are pages up to it, no two of them with
the same token; and as soon as a token comes again, it never ends (`Client.ends_iff`).

Tokens are compared as they are sent (`Client.sentAs`), which is all that a directory gets of them.
The reason that no token comes again in a listing that ends is that the chain repeats itself from
there on (`Client.chain_add`).
-/

namespace AppReport

/-- The values with which a query gives a token. A query without a token has none. -/
def Query.sentToken (q : Query) : List (List UInt8) :=
  (Fields.getD q.params "nextToken").queryValues

namespace Client

/-! ### Tokens and pages -/

/-- A token as it is sent. -/
def sentAs (token : Value) : List (List UInt8) := if token.isSet then token.queryValues else []

/-- The token with which a page is asked for, as it is sent. -/
def sentBefore (pages : Nat → Page) (i : Nat) : List (List UInt8) := sentAs (tokenBefore pages i)

/-- The pages that follow each other where each one is given by the token that is sent for it. After
a page without a token the first one comes again. -/
def chain (page : List (List UInt8) → Page) : Nat → Page
  | 0 => page []
  | i + 1 => page (sentAs (chain page i).token)

variable {page : List (List UInt8) → Page}

theorem chain_eq (i : Nat) : chain page i = page (sentBefore (chain page) i) := by
  cases i <;> rfl

/-- Where a token comes again, the pages do from there on. -/
theorem chain_add {i j : Nat} (h : sentBefore (chain page) i = sentBefore (chain page) j)
    (k : Nat) : chain page (i + k) = chain page (j + k) := by
  induction k with
  | zero =>
    rw [Nat.add_zero, Nat.add_zero, chain_eq i, chain_eq j, h]
  | succ k ih =>
    show page (sentAs (chain page (i + k)).token) = page (sentAs (chain page (j + k)).token)
    rw [ih]

/-- Up to the first page without a token, no token comes again. -/
theorem sentBefore_ne {n i j : Nat} (hset : ∀ l < n, (chain page l).token.isSet = true)
    (hunset : (chain page n).token.isSet = false) (hij : i < j) (hj : j ≤ n) :
    sentBefore (chain page) i ≠ sentBefore (chain page) j := by
  intro hsame
  -- the page that ends the chain would have been there before
  have hagain := chain_add hsame (n - j)
  rw [Nat.add_sub_cancel' hj] at hagain
  have hearlier := hset (i + (n - j)) (by omega)
  rw [hagain, hunset] at hearlier
  cases hearlier

/-- No token is sent twice on the way to the end of a chain: a repeat would go on for ever. -/
theorem nodup_sentBefore {n : Nat} (hset : ∀ l < n, (chain page l).token.isSet = true)
    (hunset : (chain page n).token.isSet = false) :
    ((List.range (n + 1)).map (sentBefore (chain page))).Nodup := by
  refine List.Nodup.map_on ?_ List.nodup_range
  intro i hi j hj hsame
  rw [List.mem_range] at hi hj
  rcases Nat.lt_trichotomy i j with hless | heq | hless
  · exact absurd hsame (sentBefore_ne hset hunset hless (by omega))
  · exact heq
  · exact absurd hsame.symm (sentBefore_ne hset hunset hless (by omega))

/-- A chain that ends does so at a first token. -/
theorem exists_first_unset {pages : Nat → Page} (h : ∃ n, (pages n).token.isSet = false) :
    ∃ n, (pages n).token.isSet = false ∧ ∀ l < n, (pages l).token.isSet = true := by
  refine ⟨Nat.find h, Nat.find_spec h, ?_⟩
  intro l hl
  have hbefore := Nat.find_min h hl
  simpa using hbefore

/-! ### Following the chain -/

/-- An exchange whose answers depend on the tokens of the queries alone. It keeps the queries. -/
def byToken (directory : List (List UInt8) → Answer) : Exchange (List Query) :=
  fun q asked => (directory q.sentToken, asked ++ [q])

/-- A listing that comes to an outcome. -/
def Ends {σ : Type} (c : Client) (exchange : Exchange σ) (tagKey : String) (tagValue : Value)
    (s : σ) : Prop :=
  ∃ fuel outcome s', c.collect exchange tagKey tagValue fuel .null s = (some outcome, s')

variable {c : Client} {tagKey : String} {tagValue : Value}
  {directory : List (List UInt8) → Answer}

theorem sentToken_query (token : Value) :
    (c.query tagKey tagValue token).sentToken = sentAs token := by
  unfold Query.sentToken query sentAs
  by_cases hset : token.isSet = true
  · rw [if_pos hset, if_pos hset]
    rfl
  · rw [if_neg hset, if_neg hset]
    rfl

/-- The tokens that are sent are those of the pages before. -/
theorem map_sentToken_firstQueries {pages : Nat → Page} {n : Nat}
    (h : ∀ i < n, (pages i).token.isSet = true) :
    (c.firstQueries tagKey tagValue pages (n + 1)).map Query.sentToken =
      (List.range (n + 1)).map (sentBefore pages) := by
  unfold firstQueries
  rw [List.map_map]
  refine List.map_congr_left fun i hi => ?_
  rw [List.mem_range] at hi
  have hbefore : ∀ l < i, (pages l).token.isSet = true := fun l hl => h l (by omega)
  show (c.pageQuery tagKey tagValue pages i).sentToken = sentAs (tokenBefore pages i)
  rw [← query_tokenBefore hbefore, sentToken_query]

/-- The answer to the query for a page of the chain is this page. -/
theorem page_byToken {i : Nat}
    (hpage : IsPage (directory (sentBefore (chain page) i)) (chain page i))
    (hset : ∀ l < i, (chain page l).token.isSet = true) :
    c.page (byToken directory) tagKey tagValue (tokenBefore (chain page) i)
        (c.firstQueries tagKey tagValue (chain page) i) =
      (.ok (chain page i), c.firstQueries tagKey tagValue (chain page) (i + 1)) := by
  rw [page_eq, byToken, sentToken_query, firstQueries_succ, query_tokenBefore hset]
  exact congrArg (Prod.mk · _) (pageOf_eq_ok_iff.mpr hpage)

/-- A listing goes on as long as tokens are set. -/
theorem goesOn_byToken {n : Nat}
    (hpages : ∀ i, IsPage (directory (sentBefore (chain page) i)) (chain page i))
    (hset : ∀ i < n, (chain page i).token.isSet = true) :
    GoesOn c (byToken directory) tagKey tagValue (chain page)
      (c.firstQueries tagKey tagValue (chain page)) n := by
  intro i hi
  have hbefore : ∀ l < i, (chain page l).token.isSet = true := fun l hl =>
    hset l (Nat.lt_trans hl hi)
  exact ⟨page_byToken (hpages i) hbefore, hset i hi⟩

/-- As long as all tokens are set there is no outcome, only one query after the other. -/
theorem collect_endless {fuel : Nat}
    (hpages : ∀ i, IsPage (directory (sentBefore (chain page) i)) (chain page i))
    (hset : ∀ i < fuel, (chain page i).token.isSet = true) :
    c.collect (byToken directory) tagKey tagValue fuel .null [] =
      (none, c.firstQueries tagKey tagValue (chain page) fuel) :=
  collect_goesOn (goesOn_byToken hpages hset) 0

/-- With fuel for its pages, a chain that ends gives the records of all of them. -/
theorem collect_chain {n fuel : Nat}
    (hpages : ∀ i, IsPage (directory (sentBefore (chain page) i)) (chain page i))
    (hset : ∀ i < n, (chain page i).token.isSet = true)
    (hunset : (chain page n).token.isSet = false) (hfuel : n < fuel) :
    c.collect (byToken directory) tagKey tagValue fuel .null [] =
      (some (.ok (firstRecords (chain page) (n + 1))),
        c.firstQueries tagKey tagValue (chain page) (n + 1)) := by
  obtain ⟨fuel, rfl⟩ : ∃ f, fuel = n + (f + 1) := ⟨fuel - n - 1, by omega⟩
  have hcourse : GoesOn c (byToken directory) tagKey tagValue (chain page)
      (c.firstQueries tagKey tagValue (chain page)) n := goesOn_byToken hpages hset
  rw [firstRecords_succ]
  exact hcourse.collect_of_last (page_byToken (hpages n) hset) hunset fuel

/-- A directory that answers by the tokens alone, and with a page for each token that comes up. A
listing ends exactly if the chain of tokens comes to one that is not set. If so, it has made one
query for each page up to there, never two with the same token, and found the records of all these
pages. If a token comes up a second time, it never ends. -/
theorem ends_iff (c : Client) (tagKey : String) (tagValue : Value)
    (directory : List (List UInt8) → Answer) (page : List (List UInt8) → Page)
    (hpages : ∀ i, IsPage (directory (sentBefore (chain page) i)) (chain page i)) :
    (Ends c (byToken directory) tagKey tagValue [] ↔
      ∃ n, (chain page n).token.isSet = false) ∧
    (∀ n, (∀ i < n, (chain page i).token.isSet = true) → (chain page n).token.isSet = false →
      ∃ asked, (∀ fuel, n < fuel →
          c.collect (byToken directory) tagKey tagValue fuel .null [] =
            (some (.ok (firstRecords (chain page) (n + 1))), asked)) ∧
        asked.length = n + 1 ∧
        asked.map Query.sentToken = (List.range (n + 1)).map (sentBefore (chain page)) ∧
        (asked.map Query.sentToken).Nodup) ∧
    ∀ i j, i < j → (∀ l < j, (chain page l).token.isSet = true) →
      sentBefore (chain page) i = sentBefore (chain page) j →
      ¬ Ends c (byToken directory) tagKey tagValue [] := by
  have hends : Ends c (byToken directory) tagKey tagValue [] ↔
      ∃ n, (chain page n).token.isSet = false := by
    constructor
    · rintro ⟨fuel, outcome, asked, houtcome⟩
      by_contra hnone
      have hset : ∀ i < fuel, (chain page i).token.isSet = true := by
        intro i _
        by_contra hunset
        exact hnone ⟨i, by simpa using hunset⟩
      -- as many tokens as there is fuel, so that no fuel is enough
      rw [collect_endless hpages hset] at houtcome
      cases houtcome
    · intro h
      obtain ⟨n, hunset, hset⟩ := exists_first_unset h
      exact ⟨n + 1, _, _, collect_chain hpages hset hunset (Nat.lt_succ_self n)⟩
  refine ⟨hends, ?_, ?_⟩
  · intro n hset hunset
    have htokens := @map_sentToken_firstQueries c tagKey tagValue (chain page) n hset
    refine ⟨c.firstQueries tagKey tagValue (chain page) (n + 1),
      fun fuel hfuel => collect_chain hpages hset hunset hfuel, length_firstQueries _, htokens, ?_⟩
    rw [htokens]
    exact nodup_sentBefore hset hunset
  · intro i j hij hset hsame hend
    obtain ⟨n, hunset, hfirst⟩ := exists_first_unset (hends.mp hend)
    -- the chain would end behind the repeat, where it goes round
    have hj : j ≤ n := by
      by_contra hless
      rw [hset n (by omega)] at hunset
      cases hunset
    exact sentBefore_ne hfirst hunset hij hj hsame

/-- A directory of two pages, of which the second one has the token 7. -/
def tokenDirectory : List (List UInt8) → Answer
  | [] => twoAnswers 0
  | [[0x37]] => twoAnswers 1
  | _ => twoAnswers 2

/-- The pages of this directory. -/
def tokenPages : List (List UInt8) → Page
  | [] => twoAnswered 0
  | _ => twoAnswered 1

theorem ends_iff_tokenDirectory :
    (∀ i, IsPage (tokenDirectory (sentBefore (chain tokenPages) i)) (chain tokenPages i)) ∧
    Ends pagingClient (byToken tokenDirectory) "application" (.text "my-app") [] ∧
    ∃ asked, (∀ fuel, 1 < fuel →
        pagingClient.collect (byToken tokenDirectory) "application" (.text "my-app") fuel .null [] =
          (some (.ok [namedPipeline "a", namedPipeline "b", namedPipeline "a"]), asked)) ∧
      asked.map Query.sentToken = [[], [[0x37]]] := by
  have hseven : sentAs (.int 7) = [[0x37]] := by decide +kernel
  have hsent : ∀ i, sentBefore (chain tokenPages) i = [] ∨
      sentBefore (chain tokenPages) i = [[0x37]] := by
    intro i
    induction i with
    | zero => exact Or.inl rfl
    | succ i ih =>
      show sentAs (chain tokenPages i).token = [] ∨ sentAs (chain tokenPages i).token = [[0x37]]
      rw [chain_eq]
      rcases ih with hfirst | hsecond
      · rw [hfirst]
        exact Or.inr hseven
      · rw [hsecond]
        exact Or.inl rfl
  have hfirst : pagingClient.pageOf (twoAnswers 0) = .ok (twoAnswered 0) := rfl
  have hsecond : pagingClient.pageOf (twoAnswers 1) = .ok (twoAnswered 1) := rfl
  have hpages : ∀ i,
      IsPage (tokenDirectory (sentBefore (chain tokenPages) i)) (chain tokenPages i) := by
    intro i
    rw [chain_eq]
    rcases hsent i with h | h
    · rw [h]
      exact pageOf_eq_ok_iff.mp hfirst
    · rw [h]
      exact pageOf_eq_ok_iff.mp hsecond
  obtain ⟨hends, hcollects, -⟩ := ends_iff pagingClient "application" (.text "my-app")
    tokenDirectory tokenPages hpages
  have hset : ∀ i < 1, (chain tokenPages i).token.isSet = true := by
    intro i hi
    obtain rfl : i = 0 := by omega
    rfl
  obtain ⟨asked, hfound, -, htokens, -⟩ := hcollects 1 hset rfl
  refine ⟨hpages, hends.mpr ⟨1, rfl⟩, asked, hfound, htokens.trans ?_⟩
  show [[], sentAs (.int 7)] = [[], [[0x37]]]
  rw [hseven]

end Client

end AppReport
