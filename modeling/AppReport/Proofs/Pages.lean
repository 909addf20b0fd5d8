import AppReport.Directory.Client

/-!
# The pages of a listing

A listing that succeeds has gone through all pages, from the first one to the one without a token
(`Client.Pages`): its records are those of all pages in their order, each of them checked
(`Client.collect_spec`).
-/

namespace AppReport.Client

variable {σ : Type}

/-- A record of a page is what the check makes of it. -/
theorem readRecord_eq_ok_iff {v : Value} {r : Pipeline} :
    readRecord v = .ok r ↔ Pipeline.ofValue v = .ok r := by
  rw [readRecord]
  split
  · rename_i hcheck
    rw [hcheck]
    exact ⟨nofun, nofun⟩
  · rename_i hcheck
    rw [hcheck]

theorem map_ofValue_of_readRecord {vs : List Value} {rs : List Pipeline}
    (h : mapUntilFailure readRecord vs = .ok rs) : vs.map Pipeline.ofValue = rs.map .ok :=
  map_eq_map_of_imp (fun _ _ => readRecord_eq_ok_iff.mp) (mapUntilFailure_eq_ok_iff.mp h)

/-- The documents of the pages of a listing from a token on: an exchange gives them one after the
other, each one for the token of the page before it, and the last one has no token that is set. -/
inductive Pages (c : Client) (exchange : Exchange σ) (tagKey : String) (tagValue : Value) :
    (token : Value) → σ → List Fields → σ → Prop
  | last {token : Value} {s s' : σ} {response : Response} {fields : Fields}
    (hask : exchange (c.query tagKey tagValue token) s = (.ok response, s'))
    (hpayload : payload response = .ok fields) (htoken : (tokenOf fields).isSet = false) :
    Pages c exchange tagKey tagValue token s [fields] s'
  | next {token : Value} {s s' s'' : σ} {response : Response} {fields : Fields}
    {pages : List Fields}
    (hask : exchange (c.query tagKey tagValue token) s = (.ok response, s'))
    (hpayload : payload response = .ok fields) (htoken : (tokenOf fields).isSet = true)
    (hrest : Pages c exchange tagKey tagValue (tokenOf fields) s' pages s'') :
    Pages c exchange tagKey tagValue token s (fields :: pages) s''

variable {c : Client} {exchange : Exchange σ} {tagKey : String} {tagValue : Value}

/-- A page that can be read is one whose document holds records that pass the check. -/
theorem page_eq_ok {token : Value} {s s' : σ} {page : Page}
    (h : c.page exchange tagKey tagValue token s = (.ok page, s')) :
    ∃ response fields items, exchange (c.query tagKey tagValue token) s = (.ok response, s') ∧
      payload response = .ok fields ∧ recordsOf? fields = some items ∧
      items.map Pipeline.ofValue = page.records.map .ok ∧ page.token = tokenOf fields := by
  rw [Client.page] at h
  rcases hask : exchange (c.query tagKey tagValue token) s with ⟨cause | response, s₁⟩
  · rw [hask] at h
    cases h
  rw [hask] at h
  simp only [Prod.mk.injEq] at h
  obtain ⟨hpage, rfl⟩ := h
  -- the exchange has succeeded, and now the payload and the records must be right
  rw [Page.ofResponse] at hpage
  split at hpage
  · cases hpage
  rename_i fields hpayload
  rw [Page.ofPayload] at hpage
  split at hpage
  · rename_i items hitems
    split at hpage
    · cases hpage
    · rename_i records hrecords
      cases hpage
      exact ⟨response, fields, items, rfl, hpayload, hitems, map_ofValue_of_readRecord hrecords,
        rfl⟩
  · cases hpage

/-- What a listing collects are the records of its pages, all of them, in their order. -/
theorem collect_spec {fuel : Nat} {token : Value} {s s' : σ} {found : List Pipeline}
    (h : c.collect exchange tagKey tagValue fuel token s = (some (.ok found), s')) :
    ∃ (pages : List Fields) (items : List (List Value)),
      Pages c exchange tagKey tagValue token s pages s' ∧
      pages.map recordsOf? = items.map some ∧
      items.flatten.map Pipeline.ofValue = found.map .ok := by
  induction fuel generalizing token s s' found with
  | zero => cases h
  | succ fuel ih =>
    rw [collect] at h
    rcases hpage : c.page exchange tagKey tagValue token s with ⟨e | page, s₁⟩
    · rw [hpage] at h
      cases h
    rw [hpage] at h
    obtain ⟨response, fields, items, hask, hpayload, hitems, hrecords, htoken⟩ := page_eq_ok hpage
    dsimp only at h
    split at h
    · -- there are further pages
      rename_i hset
      rcases hrest : c.collect exchange tagKey tagValue fuel page.token s₁ with ⟨outcome, s₂⟩
      rw [hrest] at h
      rcases outcome with _ | _ | rest
      · cases h
      · cases h
      · cases h
        obtain ⟨pages, itemsOfRest, hpages, hall, hmap⟩ := ih hrest
        rw [htoken] at hset hpages
        refine ⟨fields :: pages, items :: itemsOfRest, .next hask hpayload hset hpages, ?_, ?_⟩
        · rw [List.map_cons, List.map_cons, hitems, hall]
        · rw [List.flatten_cons, List.map_append, List.map_append, hrecords, hmap]
    · -- this is the last page
      rename_i hset
      cases h
      rw [htoken, Bool.not_eq_true] at hset
      refine ⟨[fields], [items], .last hask hpayload hset, ?_, ?_⟩
      · rw [List.map_singleton, List.map_singleton, hitems]
      · rw [List.flatten_singleton, hrecords]

/-- What a client finds are the records of the pages that a script gives from the first one on. -/
theorem find_spec {script script' : Script} {found : List Pipeline}
    (h : c.find tagKey tagValue script = (.ok found, script')) :
    ∃ (pages : List Fields) (items : List (List Value)),
      Pages c Script.ask tagKey tagValue .null script pages script' ∧
      pages.map recordsOf? = items.map some ∧
      items.flatten.map Pipeline.ofValue = found.map .ok := by
  rw [find] at h
  split at h
  · rename_i outcome script₁ hcollect
    cases h
    exact collect_spec hcollect
  · cases h

end AppReport.Client
