import AppReport.Log.Block
import Mathlib.Data.List.Basic
import Mathlib.Data.List.Induction

/-!
# What records see in blocks

The blocks that enclose a record are those that stand around it in the program
(`Program.outline`). Fields set in several blocks are one context, in which each key stands where it
was first set, with the value that was set last (`Context.IsMerge`).

A program that runs keeps no list of the blocks around it: there is only the context in force, which
a block changes and puts back. Running leaves the context as it was, whether the program fails or
not, and all that is logged meanwhile sees the fields of the blocks that enclose it
(`Program.run_foldl_merge`, by induction on the program). From the start these are the merge of the
enclosing blocks and nothing else (`Program.run_nested`).
-/

namespace AppReport

namespace Fields

/-! ### Setting a key -/

/-- A new key comes last; a key that is there stays where it is. -/
theorem keys_put (key : String) (value : Value) (fields : Fields) :
    (fields.put key value).map Prod.fst =
      if key ∈ fields.map Prod.fst then fields.map Prod.fst
      else fields.map Prod.fst ++ [key] := by
  induction fields with
  | nil => rfl
  | cons field fields ih =>
    by_cases hkey : field.1 = key
    · simp [put, hkey]
    · have hne : ¬ key = field.1 := Ne.symm hkey
      rw [put, if_neg hkey, List.map_cons, ih]
      simp only [List.map_cons, List.mem_cons, hne, false_or]
      split <;> rfl

theorem get?_cons (field : String × Value) (fields : Fields) (key : String) :
    get? (field :: fields) key = if key = field.1 then some field.2 else get? fields key :=
  lookup_cons_ite key field.1 field.2 fields

/-- Under a key stands what was put there last. -/
theorem get?_put (key : String) (value : Value) (fields : Fields) (other : String) :
    (fields.put key value).get? other = if other = key then some value else fields.get? other := by
  induction fields with
  | nil => exact get?_cons (key, value) [] other
  | cons field fields ih =>
    obtain ⟨first, old⟩ := field
    by_cases hfirst : first = key
    · rw [put, if_pos hfirst, get?_cons, get?_cons, hfirst]
      by_cases hother : other = key
      · rw [if_pos hother, if_pos hother]
      · simp only [hother, if_false]
    · rw [put, if_neg hfirst, get?_cons, get?_cons, ih]
      by_cases hother : other = first
      · simp only [hother, if_true, hfirst, if_false]
      · simp only [hother, if_false]

/-- Fields are known by their keys and the values of these. -/
theorem eq_filterMap (fields : Fields) (hnodup : (fields.map Prod.fst).Nodup) :
    fields = (fields.map Prod.fst).filterMap fun key =>
      (fields.get? key).map fun value => (key, value) := by
  induction fields with
  | nil => rfl
  | cons field fields ih =>
    rw [List.map_cons, List.nodup_cons] at hnodup
    have hrest : ∀ key ∈ fields.map Prod.fst, get? (field :: fields) key = get? fields key := by
      intro key hmem
      have hne : ¬ key = field.1 := fun heq => hnodup.1 (heq ▸ hmem)
      rw [get?_cons, if_neg hne]
    have hfirst : get? (field :: fields) field.1 = some field.2 := by rw [get?_cons, if_pos rfl]
    rw [List.map_cons, List.filterMap_cons, hfirst]
    have htail := List.filterMap_congr fun key hmem =>
      congrArg (Option.map fun value => (key, value)) (hrest key hmem)
    rw [htail, ← ih hnodup.2]
    rfl

/-! ### Keys that are set repeatedly -/

/-- A key behind all others is a new one or is left out. -/
theorem eraseDups_concat (keys : List String) (key : String) :
    (keys ++ [key]).eraseDups =
      if key ∈ keys then keys.eraseDups else keys.eraseDups ++ [key] := by
  rw [List.eraseDups_append]
  by_cases hkey : key ∈ keys
  · simp [List.removeAll, hkey]
  · simp [List.removeAll, hkey, List.eraseDups_cons]

theorem nodup_eraseDups (keys : List String) : keys.eraseDups.Nodup := by
  induction keys using List.reverseRecOn with
  | nil => exact List.nodup_nil
  | append_singleton keys key ih =>
    rw [eraseDups_concat]
    by_cases hkey : key ∈ keys
    · rw [if_pos hkey]
      exact ih
    · have hnew : ∀ old ∈ keys.eraseDups, ∀ new ∈ [key], old ≠ new := by
        intro old hold new hnew heq
        rw [List.mem_eraseDups, heq, List.mem_singleton.mp hnew] at hold
        exact hkey hold
      rw [if_neg hkey, List.nodup_append]
      exact ⟨ih, by simp, hnew⟩

theorem ofPairs_concat (pairs : List (String × Value)) (pair : String × Value) :
    ofPairs (pairs ++ [pair]) = put pair.1 pair.2 (ofPairs pairs) := by
  rw [ofPairs, List.foldl_append]
  rfl

/-- Keys stand where they appear first. -/
theorem keys_ofPairs (pairs : List (String × Value)) :
    (ofPairs pairs).map Prod.fst = (pairs.map Prod.fst).eraseDups := by
  induction pairs using List.reverseRecOn with
  | nil => rfl
  | append_singleton pairs pair ih =>
    rw [ofPairs_concat, keys_put, ih, List.map_append, List.map_singleton, eraseDups_concat]
    simp only [List.mem_eraseDups]

/-- Under a key stands what was given last. -/
theorem get?_ofPairs (pairs : List (String × Value)) (key : String) :
    (ofPairs pairs).get? key = pairs.reverse.lookup key := by
  induction pairs using List.reverseRecOn with
  | nil => rfl
  | append_singleton pairs pair ih =>
    have hlookup := get?_cons pair pairs.reverse key
    rw [ofPairs_concat, get?_put, ih, List.reverse_append, List.reverse_singleton,
      List.singleton_append]
    exact hlookup.symm

end Fields

namespace Log

/-! ### The merge of blocks -/

namespace Context

variable {blocks : List Context} {c : Context}

/-- The fields of blocks, the outermost first, as one context. -/
structure IsMerge (blocks : List Context) (c : Context) : Prop where
  /-- Each key stands where it was first set. -/
  keys : c.map Prod.fst = (blocks.flatten.map Prod.fst).eraseDups
  /-- It has the value that was set last. -/
  values : ∀ key, Fields.get? c key = blocks.flatten.reverse.lookup key

/-- The fields of blocks that are entered one after the other. -/
def merged (blocks : List Context) : Context := blocks.foldl merge []

theorem merged_eq_ofPairs (blocks : List Context) :
    merged blocks = Fields.ofPairs blocks.flatten := by
  rw [Fields.ofPairs, List.foldl_flatten]
  rfl

/-- Blocks have one merge. -/
theorem isMerge_iff : IsMerge blocks c ↔ c = merged blocks := by
  have hkeys : (merged blocks).map Prod.fst = (blocks.flatten.map Prod.fst).eraseDups := by
    rw [merged_eq_ofPairs]
    exact Fields.keys_ofPairs _
  have hvalues (key : String) :
      Fields.get? (merged blocks) key = blocks.flatten.reverse.lookup key := by
    rw [merged_eq_ofPairs]
    exact Fields.get?_ofPairs _ key
  constructor
  · intro h
    have hnodup := Fields.nodup_eraseDups (blocks.flatten.map Prod.fst)
    rw [Fields.eq_filterMap c (by rw [h.keys]; exact hnodup),
      Fields.eq_filterMap (merged blocks) (by rw [hkeys]; exact hnodup), h.keys, hkeys]
    simp only [h.values, hvalues]
  · rintro rfl
    exact ⟨hkeys, hvalues⟩

end Context

namespace Program

/-! ### Runs -/

/-- How a program ends, and what it logs: the records, each with the blocks that enclose it, the
outermost first. -/
def outline : Program → List Context → Except Failure Unit × List (List Context × Record)
  | .done, _ => (.ok (), [])
  | .log record, blocks => (.ok (), [(blocks, record)])
  | .fail f, _ => (.error f, [])
  | .andThen first next, blocks =>
    match first.outline blocks with
    | (.ok (), events) => ((next.outline blocks).1, events ++ (next.outline blocks).2)
    | (.error f, events) => (.error f, events)
  | .orElse first handler, blocks =>
    match first.outline blocks with
    | (.ok (), events) => (.ok (), events)
    | (.error f, events) =>
      (((handler f).outline blocks).1, events ++ ((handler f).outline blocks).2)
  | .within fields body, blocks => body.outline (blocks ++ [fields])

/-- A program leaves the context as it was, and what it logs sees the fields of the blocks around
it, put in force one after the other. -/
theorem run_foldl_merge (p : Program) (base : Context) (blocks : List Context)
    (seen : List (Context × Record)) :
    p.run ⟨blocks.foldl Context.merge base, seen⟩ =
      ((p.outline blocks).1, ⟨blocks.foldl Context.merge base,
        seen ++ (p.outline blocks).2.map (Prod.map (List.foldl Context.merge base) id)⟩) := by
  -- Induction on the program: the context in force is that of the blocks around each part of it.
  induction p generalizing blocks seen with
  | done => simp [run, outline]
  | log record => rfl
  | fail f => simp [run, outline]
  | andThen first next ihFirst ihNext =>
    rw [run, ihFirst, outline]
    cases hfirst : first.outline blocks with
    | mk outcome events =>
      cases outcome with
      | error f => rfl
      | ok =>
        show next.run _ = _
        rw [ihNext, List.map_append, List.append_assoc]
  | orElse first handler ihFirst ihHandler =>
    rw [run, ihFirst, outline]
    cases hfirst : first.outline blocks with
    | mk outcome events =>
      cases outcome with
      | error f =>
        show (handler f).run _ = _
        rw [ihHandler, List.map_append, List.append_assoc]
      | ok => rfl
  | within fields body ih =>
    -- Inside, one more block is around; leaving puts back the context noted at the start.
    have henter : (Journal.enter fields ⟨blocks.foldl Context.merge base, seen⟩) =
        (blocks.foldl Context.merge base,
          ⟨(blocks ++ [fields]).foldl Context.merge base, seen⟩) := by
      rw [List.foldl_append]
      rfl
    rw [run, henter]
    dsimp only
    rw [ih]
    rfl

/-- Whatever a program does, a record in it sees the merge of the fields of the blocks that enclose
it: each key of them stands where it was first set, with the value that was set last. After the
program, and so after each block of it, the context is what it was before, whether the program has
failed or not. -/
theorem run_nested (p : Program) :
    (∀ j, (p.run j).2.now = j.now) ∧
    p.run .start = ((p.outline []).1,
      ⟨[], (p.outline []).2.map (Prod.map Context.merged id)⟩) ∧
    ∀ blocks c, Context.IsMerge blocks c ↔ c = Context.merged blocks := by
  refine ⟨?_, run_foldl_merge p [] [] [], fun blocks c => Context.isMerge_iff⟩
  intro j
  have hrun := run_foldl_merge p j.now [] j.seen
  exact congrArg (fun result => result.2.now) hrun

-- A failure leaves the inner block, and the next record sees the outer one as it was.
example (first second : Record) (f : Failure) :
    ((within [("app", .text "a")] (.andThen
      (.orElse (within [("step", .text "b"), ("app", .text "c")] (.andThen (.log first) (.fail f)))
        fun _ => .done)
      (.log second))).run .start).2.seen =
    [([("app", .text "c"), ("step", .text "b")], first), ([("app", .text "a")], second)] := rfl

end Program

end Log

end AppReport
