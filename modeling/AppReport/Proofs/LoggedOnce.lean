import AppReport.Log.Registry

/-!
# Records are shown once

Before a program is configured, a logger that is asked for may get a handler and a level of its own,
and its name is noted down (`Registry.IsFresh`). The first configuration takes back all that the
noted names have been given, so that nothing is set on any logger but the root and those of
libraries (`Registry.IsFresh.configure`), and later calls change nothing
(`Registry.performAll_of_configured`). All that a record of the program's own meets on its way is
then the handler and the level of the root (`Registry.IsSettled.emit_eq`): with a level that the
root lets through it is shown once, and else not at all. Records at level zero or below are never
shown, even if the level of the root is not above theirs (`Registry.emit_unset_level`).
-/

namespace AppReport.Log.Registry

variable {r : Registry} {name other : String} {level thirdPartyLevel : Level}

/-- A call that sets up the loggers of a program. -/
inductive SetUp where
  /-- A part of the program asks for the logger with its name. -/
  | get (name : String)
  /-- The program is configured. -/
  | configure (level thirdPartyLevel : Level)

/-- The loggers after a call. -/
def perform (r : Registry) : SetUp → Registry
  | .get name => r.get name
  | .configure level thirdPartyLevel => r.configure level thirdPartyLevel

/-- The levels that a call gives to the root and to the loggers of libraries. -/
def SetUp.levels? : SetUp → Option (Level × Level)
  | .get _ => none
  | .configure level thirdPartyLevel => some (level, thirdPartyLevel)

/-- The loggers after calls, one after the other. -/
def performAll (r : Registry) (calls : List SetUp) : Registry := calls.foldl perform r

/-- Whether a name lies below another one. -/
def IsBelow (name above : String) : Prop := above.toList ++ ['.'] <+: name.toList

instance : DecidableRel IsBelow := fun name above =>
  inferInstanceAs (Decidable (above.toList ++ ['.'] <+: name.toList))

/-- The name of a part of the program: not the root, no library, and nothing below a library. -/
def IsOwn (name : String) : Prop :=
  isRoot name = false ∧ ∀ library ∈ thirdParties, name ≠ library ∧ ¬ IsBelow name library

instance : DecidablePred IsOwn := fun name =>
  inferInstanceAs (Decidable (isRoot name = false ∧
    ∀ library ∈ thirdParties, name ≠ library ∧ ¬ IsBelow name library))

/-! ### What is set on loggers -/

/-- What has been set for a name that is not that of the root. -/
def entry (r : Registry) (name : String) : Logger := (r.loggers.lookup name).getD .unset

theorem logger_eq_entry (hname : isRoot name = false) : r.logger name = r.entry name := by
  simp [logger, entry, hname]

theorem lookup_putLogger (name other : String) (l : Logger) (loggers : List (String × Logger)) :
    (putLogger name l loggers).lookup other =
      if other = name then some l else loggers.lookup other := by
  induction loggers with
  | nil => exact lookup_cons_ite other name l []
  | cons first rest ih =>
    obtain ⟨n, old⟩ := first
    by_cases hn : n = name
    · rw [putLogger, if_pos hn, lookup_cons_ite, lookup_cons_ite, hn]
      by_cases hother : other = name
      · rw [if_pos hother, if_pos hother]
      · simp only [hother, if_false]
    · rw [putLogger, if_neg hn, lookup_cons_ite, lookup_cons_ite, ih]
      by_cases hother : other = n
      · simp only [hother, if_true, hn, if_false]
      · simp only [hother, if_false]

theorem set_of_not_isRoot (hname : isRoot name = false) (l : Logger) :
    r.set name l = { r with loggers := putLogger name l r.loggers } := by
  simp [set, hname]

theorem entry_set (hname : isRoot name = false) (l : Logger) :
    (r.set name l).entry other = if other = name then l else r.entry other := by
  rw [set_of_not_isRoot hname, entry, lookup_putLogger]
  by_cases h : other = name
  · simp [h]
  · simp [h, entry]

/-- Registries that agree on everything but what is set for names. -/
structure AgreesBesidesEntries (r r' : Registry) : Prop where
  root : r'.root = r.root
  configured : r'.configured = r.configured
  fallbacks : r'.fallbacks = r.fallbacks

/-- The loggers with certain names are changed one after the other, each in a way that makes no
difference when it is done again. -/
theorem foldl_set {f : Logger → Logger} (hf : ∀ l, f (f l) = f l) {names : List String}
    (hnames : ∀ name ∈ names, isRoot name = false) (r : Registry) :
    let r' := names.foldl (fun r name => r.set name (f (r.logger name))) r
    AgreesBesidesEntries r r' ∧
      ∀ other, r'.entry other = if other ∈ names then f (r.entry other) else r.entry other := by
  induction names generalizing r with
  | nil => exact ⟨⟨rfl, rfl, rfl⟩, fun other => by simp⟩
  | cons name rest ih =>
    have hname : isRoot name = false := hnames name (by simp)
    obtain ⟨hagrees, hentry⟩ := ih (fun n hn => hnames n (by simp [hn]))
      (r.set name (f (r.logger name)))
    have hset := set_of_not_isRoot (r := r) hname (f (r.logger name))
    refine ⟨⟨hagrees.root.trans (by rw [hset]), hagrees.configured.trans (by rw [hset]),
      hagrees.fallbacks.trans (by rw [hset])⟩, ?_⟩
    intro other
    rw [List.foldl_cons, hentry other, entry_set hname, logger_eq_entry hname]
    by_cases hother : other = name
    · -- The name may come once more among the rest: this is where `hf` is needed.
      subst hother
      by_cases hmem : other ∈ rest <;> simp [hmem, hf]
    · simp [hother]

/-! ### Before the configuration -/

/-- The program is not configured, and nothing is set on loggers but on those whose names are noted
down. -/
structure IsFresh (r : Registry) : Prop where
  configured : r.configured = false
  root : r.root = ⟨[], warning⟩
  noted : ∀ name ∈ r.fallbacks, isRoot name = false
  entry : ∀ name, name ∉ r.fallbacks → r.entry name = .unset

theorem isFresh_empty : empty.IsFresh where
  configured := rfl
  root := rfl
  noted := by simp [empty]
  entry := by simp [empty, Registry.entry]

theorem mem_noted_iff (names : List String) (name other : String) :
    other ∈ (if names.contains name then names else names ++ [name]) ↔
      other ∈ names ∨ other = name := by
  by_cases hnoted : name ∈ names
  · simp only [List.contains_iff_mem, hnoted, if_true]
    constructor
    · exact Or.inl
    · rintro (hother | rfl)
      · exact hother
      · exact hnoted
  · simp [hnoted]

/-- A logger that gets a handler is noted down. -/
theorem IsFresh.get (h : r.IsFresh) (hname : isRoot name = false) : (r.get name).IsFresh := by
  by_cases hown : (r.logger name).handlers.isEmpty = true
  · -- before the configuration a logger without a handler gets one, and only such a logger
    have hget : r.get name = { r.set name ⟨[.contextual], warning⟩ with
        fallbacks := if r.fallbacks.contains name then r.fallbacks
          else r.fallbacks ++ [name] } := by
      simp [Registry.get, h.configured, h.root, hown]
    rw [hget, set_of_not_isRoot hname]
    refine ⟨h.configured, h.root, ?_, ?_⟩
    · intro n hn
      rcases (mem_noted_iff _ _ _).mp hn with hn | rfl
      · exact h.noted n hn
      · exact hname
    · intro n hn
      have hnew := not_or.mp (mt (mem_noted_iff _ _ _).mpr hn)
      have hentry : (r.set name ⟨[.contextual], warning⟩).entry n = .unset := by
        rw [entry_set hname, if_neg hnew.2]
        exact h.entry n hnew.1
      rw [set_of_not_isRoot hname] at hentry
      exact hentry
  · have hget : r.get name = r := by
      simp [Registry.get, hown]
    rw [hget]
    exact h

theorem isFresh_performAll {names : List String} (h : r.IsFresh)
    (hnames : ∀ name ∈ names, isRoot name = false) :
    (r.performAll (names.map .get)).IsFresh := by
  induction names generalizing r with
  | nil => exact h
  | cons name rest ih =>
    have hfirst : (r.get name).IsFresh := h.get (hnames name (by simp))
    exact ih hfirst fun n hn => hnames n (by simp [hn])

/-! ### The configuration -/

/-- The program is configured: the root has the only handler, and nothing but the levels of
libraries is set on other loggers. -/
structure IsSettled (r : Registry) (level thirdPartyLevel : Level) : Prop where
  configured : r.configured = true
  root : r.root = ⟨[.contextual], level⟩
  entry : ∀ name, r.entry name =
    if name ∈ thirdParties then ⟨[], thirdPartyLevel⟩ else .unset

/-- What the noted loggers have been given is taken back. -/
theorem IsFresh.configure (h : r.IsFresh) (level thirdPartyLevel : Level) :
    (r.configure level thirdPartyLevel).IsSettled level thirdPartyLevel := by
  have hlibraries : ∀ name ∈ thirdParties, isRoot name = false := by decide
  -- the three steps of a configuration: the root, the noted loggers, the libraries
  let start : Registry := { r with configured := true, root := ⟨[], level⟩ }
  let cleared : Registry := start.fallbacks.foldl (fun r name => r.set name .unset) start
  let rooted : Registry := { cleared with
    fallbacks := [], root := ⟨cleared.root.handlers ++ [.contextual], cleared.root.level⟩ }
  obtain ⟨hcleared, hunset⟩ := foldl_set (f := fun _ => .unset) (fun _ => rfl) h.noted start
  obtain ⟨hsettled, hlevels⟩ := foldl_set (f := fun l => { l with level := thirdPartyLevel })
    (fun _ => rfl) hlibraries rooted
  have hconfigure : r.configure level thirdPartyLevel = thirdParties.foldl
      (fun r name => r.set name { r.logger name with level := thirdPartyLevel }) rooted := by
    simp only [Registry.configure, h.configured]
    rfl
  -- what was not noted down had no handler of its own in the first place
  have hentry : ∀ name, rooted.entry name = .unset := by
    intro name
    have hname : rooted.entry name = if name ∈ r.fallbacks then .unset else r.entry name :=
      hunset name
    rw [hname]
    by_cases hnoted : name ∈ r.fallbacks
    · exact if_pos hnoted
    · rw [if_neg hnoted]
      exact h.entry name hnoted
  rw [hconfigure]
  refine ⟨?_, ?_, ?_⟩
  · exact hsettled.configured.trans hcleared.configured
  · have hroot : cleared.root = ⟨[], level⟩ := hcleared.root
    rw [hsettled.root]
    show (⟨cleared.root.handlers ++ [.contextual], cleared.root.level⟩ : Logger) = _
    rw [hroot]
    rfl
  · intro name
    rw [hlevels name, hentry name]
    rfl

/-! ### After the configuration -/

/-- Once the program is configured, a call changes nothing. -/
theorem perform_of_configured (h : r.configured = true) (call : SetUp) : r.perform call = r := by
  cases call with
  | get name => simp [perform, Registry.get, h]
  | configure level thirdPartyLevel => simp [perform, Registry.configure, h]

theorem performAll_of_configured (h : r.configured = true) (calls : List SetUp) :
    r.performAll calls = r := by
  induction calls with
  | nil => rfl
  | cons call rest ih =>
    rw [performAll, List.foldl_cons, perform_of_configured h]
    exact ih

/-- A name lies below the names above it. -/
theorem prefix_of_mem_ancestorsWithin {cs : List Char} {count : Nat} {above : String}
    (h : above ∈ ancestorsWithin cs count) : above.toList ++ ['.'] <+: cs := by
  fun_induction ancestorsWithin cs count with
  | case1 => cases h
  | case2 => cases h
  | case3 count hdot ih =>
    rcases List.mem_cons.mp h with rfl | h
    · obtain ⟨hlt, hget⟩ := List.getElem?_eq_some_iff.mp hdot
      have hsplit : cs.take (count + 1) ++ ['.'] = cs.take (count + 2) := by
        rw [List.take_succ_eq_append_getElem hlt, hget]
      rw [String.toList_ofList, hsplit]
      exact List.take_prefix _ _
    · exact ih h
  | case4 count hdot ih => exact ih h

theorem isBelow_of_mem_ancestors {above : String} (h : above ∈ ancestors name) :
    IsBelow name above :=
  prefix_of_mem_ancestorsWithin h

namespace IsSettled

variable (h : r.IsSettled level thirdPartyLevel) (hname : IsOwn name)

include h hname

/-- Nothing is set on the way from a logger of the program to the root. -/
theorem chain_eq : r.chain name =
    List.replicate ((ancestors name).length + 1) .unset ++ [⟨[.contextual], level⟩] := by
  have hunset : ∀ n ∈ name :: ancestors name, (r.loggers.lookup n).getD .unset = .unset := by
    intro n hn
    have hlibrary : n ∉ thirdParties := by
      intro hmem
      rcases List.mem_cons.mp hn with rfl | habove
      · exact (hname.2 n hmem).1 rfl
      · exact (hname.2 n hmem).2 (isBelow_of_mem_ancestors habove)
    exact (h.entry n).trans (if_neg hlibrary)
  have hmap : (name :: ancestors name).map (fun n => (r.loggers.lookup n).getD .unset) =
      List.replicate ((ancestors name).length + 1) .unset := by
    rw [List.eq_replicate_iff]
    refine ⟨by simp, ?_⟩
    intro l hl
    obtain ⟨n, hn, rfl⟩ := List.mem_map.mp hl
    exact hunset n hn
  simp only [chain, hname.1, h.root, hmap, Bool.false_eq_true, if_false]

/-- The level of the root decides. -/
theorem effectiveLevel_eq : r.effectiveLevel name = level := by
  have hnone : (List.replicate ((ancestors name).length + 1) (0 : Level)).find? (· ≠ 0) = none := by
    simp
  rw [effectiveLevel, h.chain_eq hname, List.map_append, List.map_replicate, List.find?_append]
  show ((((List.replicate _ (0 : Level)).find? (· ≠ 0)).or ([level].find? (· ≠ 0))).getD 0) = level
  rw [hnone]
  by_cases hlevel : level = 0 <;> simp [hlevel]

theorem handlersFor_eq : r.handlersFor name = [.contextual] := by
  simp [handlersFor, h.chain_eq hname, Logger.unset]

/-- A record is shown once if the root lets it through, and else not at all. -/
theorem emit_eq (now : Context) {record : Record} (hrecord : record.logger = name) :
    r.emit now record =
      if 0 < record.level ∧ level ≤ record.level then
        [shownLine ((record.noteContext now).contextual now .full).1]
      else [] := by
  rw [emit, isEnabled, hrecord, h.effectiveLevel_eq hname, h.handlersFor_eq hname]
  by_cases hlevel : 0 < record.level ∧ level ≤ record.level
  · simp only [hlevel, decide_true, Bool.and_self, if_true]
    rfl
  · have hdecide : (decide (0 < record.level) && decide (level ≤ record.level)) = false := by
      simpa using hlevel
    rw [hdecide, if_neg hlevel]
    rfl

end IsSettled

/-! ### All calls -/

/-- Up to the first configuration, parts of the program ask for their loggers. -/
theorem exists_of_findSome?_levels {calls : List SetUp}
    (hfirst : calls.findSome? SetUp.levels? = some (level, thirdPartyLevel)) :
    ∃ (names : List String) (later : List SetUp),
      calls = names.map .get ++ .configure level thirdPartyLevel :: later := by
  induction calls with
  | nil => cases hfirst
  | cons call rest ih =>
    cases call with
    | get name =>
      obtain ⟨names, later, rfl⟩ := ih hfirst
      exact ⟨name :: names, later, rfl⟩
    | configure l t =>
      cases hfirst
      exact ⟨[], rest, rfl⟩

/-- From its first configuration on, the program is settled at the levels of that configuration. -/
theorem isSettled_performAll {calls : List SetUp}
    (hnames : ∀ name, .get name ∈ calls → isRoot name = false)
    (hfirst : calls.findSome? SetUp.levels? = some (level, thirdPartyLevel)) :
    (empty.performAll calls).IsSettled level thirdPartyLevel := by
  obtain ⟨names, later, rfl⟩ := exists_of_findSome?_levels hfirst
  have hfresh : (empty.performAll (names.map .get)).IsFresh :=
    isFresh_performAll isFresh_empty fun name hname => hnames name (by simp [hname])
  have hsettled := hfresh.configure level thirdPartyLevel
  have hrun : empty.performAll (names.map .get ++ .configure level thirdPartyLevel :: later) =
      ((empty.performAll (names.map .get)).configure level thirdPartyLevel).performAll later := by
    rw [performAll, List.foldl_append, List.foldl_cons]
    rfl
  rw [hrun, performAll_of_configured hsettled.configured]
  exact hsettled

/-- Whatever parts of a program have asked for their loggers, and however often and in which order
it has been configured: once it has been configured at all, the root has one handler and the level
of the first configuration, nothing is set on any other logger that is not a library's, and whatever
is called later changes nothing. A record of the program's own is shown once if its level is above
zero and not below that of the root, and else it is not shown. -/
theorem shown_once {calls : List SetUp} (hnames : ∀ name, .get name ∈ calls → isRoot name = false)
    (hfirst : calls.findSome? SetUp.levels? = some (level, thirdPartyLevel)) :
    let r := empty.performAll calls
    r.root = ⟨[.contextual], level⟩ ∧
    (∀ name, isRoot name = false → name ∉ thirdParties → r.logger name = .unset) ∧
    (∀ now (record : Record), IsOwn record.logger → r.emit now record =
      if 0 < record.level ∧ level ≤ record.level then
        [shownLine ((record.noteContext now).contextual now .full).1]
      else []) ∧
    ∀ later, empty.performAll (calls ++ later) = r := by
  have hsettled := isSettled_performAll hnames hfirst
  refine ⟨hsettled.root, ?_, ?_, ?_⟩
  · intro name hname hlibrary
    rw [logger_eq_entry hname, hsettled.entry name, if_neg hlibrary]
  · intro now record hown
    exact hsettled.emit_eq hown now rfl
  · intro later
    have hrun : empty.performAll (calls ++ later) = (empty.performAll calls).performAll later :=
      List.foldl_append
    rw [hrun, performAll_of_configured hsettled.configured]

/-- Loggers below one another, asked for before and after the program is configured twice. -/
def nestedCalls : List SetUp :=
  [.get "report", .get "report.store", .get "report", .configure info warning,
    .get "report.store.rows", .configure debug debug]

/-- A record of a logger, without values. -/
def plainRecord (logger : String) (level : Level) : Record where
  logger := logger
  level := level
  template := "written".toList
  values := []
  context := none
  failure := none

theorem shown_once_nestedCalls :
    (∀ name, .get name ∈ nestedCalls → isRoot name = false) ∧
    nestedCalls.findSome? SetUp.levels? = some (info, warning) ∧
    IsOwn "report.store.rows" ∧
    (empty.performAll nestedCalls).emit [] (plainRecord "report.store.rows" info) =
      ["report.store.rows - INFO - written".toList] := by
  have hnames : ∀ name, .get name ∈ nestedCalls → isRoot name = false := by
    intro name hname
    have hcases : name = "report" ∨ name = "report.store" ∨ name = "report" ∨
        name = "report.store.rows" := by
      simpa [nestedCalls] using hname
    rcases hcases with rfl | rfl | rfl | rfl <;> decide
  have hown : IsOwn (plainRecord "report.store.rows" info).logger := by decide
  refine ⟨hnames, rfl, hown, ?_⟩
  have hemit := (shown_once hnames rfl).2.2.1 [] (plainRecord "report.store.rows" info) hown
  exact hemit.trans (by decide)

/-- The level zero is not above that of the root, and yet a record at this level is not shown. -/
theorem emit_unset_level :
    let r := empty.performAll [.get "report", .configure 0 warning]
    let record := plainRecord "report" 0
    r.root = ⟨[.contextual], 0⟩ ∧ IsOwn record.logger ∧ r.root.level ≤ record.level ∧
      r.emit [] record = [] := by
  decide

end AppReport.Log.Registry
