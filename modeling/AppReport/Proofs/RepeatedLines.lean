import AppReport.Log.Registry
import AppReport.Proofs.ContextLines

/-!
# Records that are written more than once

Writing a record with its context leaves the record with a longer template, so that the next line
starts from there (`Record.getElem?_lines`). The context is that noted on the record when it was
logged, if there are fields in it, and else the one in force when it is written. Each line of a
record without values shows all that was shown before and its own context behind it.

The lines are therefore the one that was meant when the record was logged only as long as nothing is
added again: a record with fields can be written once, and one without any as often as one likes
where no fields are in force (`Record.lines_fixed_iff`). Handlers that show a record one after the
other write it repeatedly (`Registry.handle_replicate`).
-/

namespace AppReport.Log

namespace Record

variable {r : Record} {context : Context} {nows : List Context}

/-- The lines of a record that is written in one context after the other. -/
def lines (r : Record) (form : LineForm) : List Context → List (Except Failure (List Char))
  | [] => []
  | now :: later => (r.contextual now form).1 :: (r.contextual now form).2.lines form later

/-- A record with contexts behind its template. -/
def withContexts (r : Record) (contexts : List Context) : Record :=
  { r with template := r.template ++ contexts.flatMap Context.suffix }

/-! ### One line after the other -/

theorem contextual_snd (r : Record) (now : Context) (form : LineForm) :
    (r.contextual now form).2 = r.withContexts [r.shownContext now] := by
  have hcontext : (r.contextual now form).2 = r.withContext now := rfl
  rw [hcontext, withContext_eq]
  simp [withContexts]

theorem withContexts_cons (r : Record) (context : Context) (contexts : List Context) :
    (r.withContexts [context]).withContexts contexts = r.withContexts (context :: contexts) := by
  simp [withContexts]

/-- A line shows what has been shown before, and then the context of the record. -/
theorem getElem?_lines (r : Record) (form : LineForm) (nows : List Context) (i : Nat) :
    (r.lines form nows)[i]? = nows[i]?.map fun _ =>
      (r.withContexts ((nows.take (i + 1)).map r.shownContext)).line form := by
  -- The record is generalised: the lines that follow are those of the record with a context more.
  induction nows generalizing r i with
  | nil => rfl
  | cons now later ih =>
    cases i with
    | zero =>
      have hline : (r.contextual now form).1 = (r.contextual now form).2.line form := rfl
      rw [lines, List.getElem?_cons_zero, hline, contextual_snd]
      rfl
    | succ i =>
      have hshown : (r.withContexts [r.shownContext now]).shownContext = r.shownContext := rfl
      rw [lines, List.getElem?_cons_succ, List.getElem?_cons_succ, ih, contextual_snd, hshown]
      simp only [List.take_succ_cons, List.map_cons, withContexts_cons]

theorem forall_mem_lines_iff (r : Record) (form : LineForm) (nows : List Context)
    (meant : Except Failure (List Char)) :
    (∀ line ∈ r.lines form nows, line = meant) ↔ ∀ i < nows.length,
      (r.withContexts ((nows.take (i + 1)).map r.shownContext)).line form = meant := by
  constructor
  · intro h i hi
    refine h _ (List.mem_iff_getElem?.mpr ⟨i, ?_⟩)
    rw [getElem?_lines, List.getElem?_eq_getElem hi]
    rfl
  · intro h line hline
    obtain ⟨i, hi⟩ := List.mem_iff_getElem?.mp hline
    rw [getElem?_lines] at hi
    obtain ⟨now, hnow, rfl⟩ := Option.map_eq_some_iff.mp hi
    exact h i (List.getElem?_eq_some_iff.mp hnow).1

/-! ### Lines that differ -/

theorem suffix_eq_nil_iff (context : Context) : context.suffix = [] ↔ context = [] := by
  cases context <;> simp [Context.suffix]

theorem two_le_length_suffix (h : context ≠ []) : 2 ≤ context.suffix.length := by
  obtain ⟨field, fields, rfl⟩ := List.exists_cons_of_ne_nil h
  simp [Context.suffix]

/-- Either nothing is shown of some contexts, or more than a line feed. -/
theorem flatMap_suffix_short (contexts : List Context) :
    contexts.flatMap Context.suffix = [] ∨ 2 ≤ (contexts.flatMap Context.suffix).length := by
  induction contexts with
  | nil => exact Or.inl rfl
  | cons context contexts ih =>
    rw [List.flatMap_cons]
    by_cases hcontext : context = []
    · have hnone : context.suffix = [] := (suffix_eq_nil_iff context).mpr hcontext
      rw [hnone, List.nil_append]
      exact ih
    · have hlength := two_le_length_suffix hcontext
      right
      rw [List.length_append]
      omega

/-- A full line is as long as its message, but for what is the same for all messages and a line
feed at the most. -/
theorem exists_length_setOut (r : Record) : ∃ extra, ∀ text, ∃ line,
    r.setOut .full text = .ok line ∧
      text.length + extra ≤ line.length ∧ line.length ≤ text.length + extra + 1 := by
  cases hfailure : r.failure with
  | none =>
    refine ⟨r.heading.length, ?_⟩
    intro text
    refine ⟨_, setOut_full hfailure text, ?_, ?_⟩ <;> rw [List.length_append] <;> omega
  | some f =>
    refine ⟨r.heading.length + (failureLine f).length, ?_⟩
    intro text
    let line := r.heading ++ text
    have hsetOut : r.setOut .full text = .ok
        ((if line.getLast? = some '\n' then line else line ++ ['\n']) ++ failureLine f) := by
      simp only [setOut, hfailure]
      rfl
    refine ⟨_, hsetOut, ?_, ?_⟩ <;> split <;> simp [line] <;> omega

theorem setOut_full_ne {text longer : List Char} (h : text.length + 2 ≤ longer.length) :
    r.setOut .full longer ≠ r.setOut .full text := by
  obtain ⟨extra, hextra⟩ := exists_length_setOut r
  obtain ⟨line, hline, -, hle⟩ := hextra text
  obtain ⟨line', hline', hge, -⟩ := hextra longer
  rw [hline, hline']
  intro heq
  cases heq
  omega

theorem line_withContexts (hvalues : r.values = []) (contexts : List Context) :
    (r.withContexts contexts).line .full =
      r.setOut .full (r.template ++ contexts.flatMap Context.suffix) := by
  have hmessage : (r.withContexts contexts).message =
      .ok (r.template ++ contexts.flatMap Context.suffix) := message_of_values_eq_nil hvalues
  rw [line, hmessage]
  rfl

/-- Fields that are shown behind others make another line. -/
theorem line_withContexts_append_eq_iff (hvalues : r.values = []) (shown more : List Context) :
    (r.withContexts (shown ++ more)).line .full = (r.withContexts shown).line .full ↔
      ∀ context ∈ more, context = [] := by
  have hnone : (∀ context ∈ more, context = []) ↔ more.flatMap Context.suffix = [] := by
    simp only [List.flatMap_eq_nil_iff, suffix_eq_nil_iff]
  rw [hnone, line_withContexts hvalues, line_withContexts hvalues, List.flatMap_append,
    ← List.append_assoc]
  constructor
  · intro h
    rcases flatMap_suffix_short more with hnil | hlength
    · exact hnil
    · refine absurd h (setOut_full_ne ?_)
      simp only [List.length_append]
      omega
  · intro h
    rw [h, List.append_nil]

/-! ### Lines that stay the same -/

theorem shownContext_of_noted (h : r.context = some context) (now : Context) :
    r.shownContext now = if context = [] then now else context := by
  rw [shownContext, h]
  cases context <;> rfl

/-- Of a record without fields of its own, the line stays the same where no fields are in force. -/
theorem lines_same_iff_of_noted_nil (hvalues : r.values = []) (hnoted : r.context = some []) :
    (∀ line ∈ r.lines .full nows, line = r.setOut .full r.template) ↔ ∀ now ∈ nows, now = [] := by
  have hshown : r.shownContext = id := funext (shownContext_of_noted hnoted)
  have hmeant : r.setOut .full r.template = (r.withContexts []).line .full := by
    rw [line_withContexts hvalues, List.flatMap_nil, List.append_nil]
  have hline (i : Nat) : (r.withContexts ((nows.take (i + 1)).map r.shownContext)).line .full =
      r.setOut .full r.template ↔ ∀ now ∈ nows.take (i + 1), now = [] := by
    rw [hshown, List.map_id, hmeant]
    exact line_withContexts_append_eq_iff hvalues [] _
  simp only [forall_mem_lines_iff, hline]
  constructor
  · intro h now hnow
    obtain ⟨i, hi, rfl⟩ := List.mem_iff_getElem.mp hnow
    refine h i hi _ (List.mem_iff_getElem?.mpr ⟨i, ?_⟩)
    rw [List.getElem?_take_of_lt (Nat.lt_succ_self i), List.getElem?_eq_getElem hi]
  · intro h i _ now hnow
    exact h now (List.mem_of_mem_take hnow)

/-- A record with fields of its own shows them once more in each line. -/
theorem lines_same_iff_of_noted (hvalues : r.values = []) (hnoted : r.context = some context)
    (hne : context ≠ []) :
    (∀ line ∈ r.lines .full nows, line = r.setOut .full (r.template ++ context.suffix)) ↔
      nows.length ≤ 1 := by
  have hshown (now : Context) : r.shownContext now = context := by
    rw [shownContext_of_noted hnoted, if_neg hne]
  have hmeant : r.setOut .full (r.template ++ context.suffix) =
      (r.withContexts [context]).line .full := by
    rw [line_withContexts hvalues, List.flatMap_singleton]
  rw [forall_mem_lines_iff, hmeant]
  cases nows with
  | nil => simp
  | cons now later =>
    -- The first line is the one that is meant; each later one has contexts behind it.
    have hline (i : Nat) : (r.withContexts (((now :: later).take (i + 1)).map r.shownContext)).line
        .full = (r.withContexts [context]).line .full ↔ ∀ _ ∈ later.take i, context = [] := by
      rw [List.take_succ_cons, List.map_cons, hshown, ← List.singleton_append,
        line_withContexts_append_eq_iff hvalues]
      simp only [List.mem_map, forall_exists_index, and_imp, hshown]
      exact ⟨fun h now hnow => h _ now hnow rfl, fun h _ now hnow heq => heq ▸ h now hnow⟩
    simp only [hline, hne, imp_false]
    cases later with
    | nil => simp
    | cons second later =>
      have hsecond : second ∈ (second :: later).take 1 := List.mem_singleton_self second
      have hlength : 1 < (now :: second :: later).length := by simp
      exact ⟨fun h => absurd hsecond (h 1 hlength second), fun h => absurd h (by omega)⟩

end Record

namespace Registry

/-- Handlers note the context once, and then each of them writes the record that the one before it
has left. -/
theorem handle_replicate (now : Context) (count : Nat) (record : Record) :
    handle now (List.replicate count .contextual) record =
      ((record.noteContext now).lines .full (List.replicate count now)).map shownLine := by
  induction count generalizing record with
  | zero => rfl
  | succ count ih =>
    let left := ((record.noteContext now).contextual now .full).2
    have hnoted : left.noteContext now = left := by
      have hleft : left = (record.noteContext now).withContexts
          [(record.noteContext now).shownContext now] := Record.contextual_snd _ _ _
      rw [hleft]
      rfl
    have hhandle : handle now (List.replicate (count + 1) .contextual) record =
        shownLine ((record.noteContext now).contextual now .full).1 ::
          handle now (List.replicate count .contextual) left := rfl
    rw [hhandle, ih, hnoted]
    rfl

end Registry

namespace Record

/-- What comes of a record without values that is logged in one context and then written in others.
Each line shows what the lines before it have shown, and then the fields noted on the record, or
those in force if it has none. All lines are the one that shows the noted fields once, or no
brackets if there are none, exactly if the record is written once at the most, or has no fields and
is written only where none are in force. Handlers that show the record in turn write it once more
each. -/
theorem lines_fixed_iff (hvalues : r.values = []) (now : Context) :
    let context : Context := r.context.getD now
    let logged := r.noteContext now
    let meant := logged.setOut .full (r.template ++ context.suffix)
    (∀ later, logged.shownContext later = if context = [] then later else context) ∧
    (∀ nows form i, (logged.lines form nows)[i]? = nows[i]?.map fun _ =>
      (logged.withContexts ((nows.take (i + 1)).map logged.shownContext)).line form) ∧
    (∀ nows, (∀ line ∈ logged.lines .full nows, line = meant) ↔
      if context = [] then ∀ later ∈ nows, later = [] else nows.length ≤ 1) ∧
    ∀ count, Registry.handle now (List.replicate count .contextual) r =
      (logged.lines .full (List.replicate count now)).map Registry.shownLine := by
  intro context logged meant
  have hnoted : logged.context = some context := rfl
  refine ⟨shownContext_of_noted hnoted, fun nows form i => getElem?_lines logged form nows i, ?_,
    fun count => Registry.handle_replicate now count r⟩
  intro nows
  -- a context without fields counts as none, and the one in force is shown instead
  by_cases hcontext : context = []
  · have hmeant : meant = logged.setOut .full logged.template := by
      show logged.setOut .full (r.template ++ context.suffix) = _
      rw [hcontext, Context.suffix, List.append_nil]
      rfl
    rw [if_pos hcontext, hmeant]
    rw [hcontext] at hnoted
    exact lines_same_iff_of_noted_nil (r := logged) hvalues hnoted
  · rw [if_neg hcontext]
    exact lines_same_iff_of_noted (r := logged) hvalues hnoted hcontext

/-- A record that is logged where one field is in force. -/
theorem lines_fixed_iff_oneField :
    (failureRecord "log" "Read" (.of .timeout "late")).values = [] ∧
    ¬ ∀ line ∈ ((failureRecord "log" "Read" (.of .timeout "late")).noteContext
        [("app", .text "my-app")]).lines .full [[], []],
      line = ((failureRecord "log" "Read" (.of .timeout "late")).noteContext
        [("app", .text "my-app")]).setOut .full "Read: late [app=my-app]".toList := by
  have hvalues : (failureRecord "log" "Read" (.of .timeout "late")).values = [] := rfl
  refine ⟨hvalues, ?_⟩
  have hlines := (lines_fixed_iff hvalues [("app", .text "my-app")]).2.2.1 [[], []]
  exact fun h => absurd (hlines.mp h) (by decide)

/-- Two loggers show a record of the one below, and the second line has the field twice. Logged
where no fields are in force, the record shows the field of the place where it is written. -/
theorem lines_twoHandlers :
    let registry := (Registry.empty.get "t").get "t.b"
    let r : Record := ⟨"t.b", 40, "dup".toList, [], none, none⟩
    registry.emit [("k", .text "v")] r =
      ["t.b - ERROR - dup [k=v]".toList, "t.b - ERROR - dup [k=v] [k=v]".toList] ∧
    ((r.noteContext []).contextual [("k", .text "now")] .full).1 =
      .ok "t.b - ERROR - dup [k=now]".toList :=
  ⟨rfl, rfl⟩

end Record

end AppReport.Log
