import AppReport.Gather
import AppReport.Proofs.Filling
import AppReport.Store.ConfigStore

/-!
# What a context does to a message

A record shows its context in brackets behind its message (`Context.suffix`). The brackets are put
behind the template, before the values are filled in. That makes no difference for a record without
values, whose template is its message, and for a context without `%` (`Record.message_withContext`).
Else the context is filled like a part of the template, with the values that the template itself
leaves: if these are values in order, none are left, and all that can come of it is a message with
half of the `%` of the context, or a failure (`Record.message_withContext_iff`).

Reads are traced with the name of the application among the values and in the context as well, so
that these records show what they should exactly for names without `%`
(`Record.contextual_shows`).
-/

namespace AppReport.Log

open Template

/-! ### The text of a context -/

/-- A field in a line. -/
def fieldText (field : String × Value) : List Char :=
  field.1.toList ++ '=' :: field.2.shown.toList

/-- What a context adds to a message: its fields in their order, in brackets, and nothing if there
are no fields. -/
def Context.suffix : Context → List Char
  | [] => []
  | field :: fields =>
    " [".toList ++ [' '].intercalate ((field :: fields).map fieldText) ++ "]".toList

theorem Context.text_eq (context : Context) :
    Context.text context = [' '].intercalate (context.map fieldText) := by
  fun_induction Context.text context with
  | case1 => rfl
  | case2 k v => simp [fieldText]
  | case3 k v rest hrest ih =>
    obtain ⟨field, fields, rfl⟩ := List.exists_cons_of_ne_nil hrest
    rw [ih]
    simp [fieldText, List.intercalate]

/-- Whether every field of a context has a value with a text. -/
def Context.IsShown (context : Context) : Prop :=
  ∀ field ∈ context, ∃ text, field.2.shown? = .ok text

/-- Whether there is a `%` in what a context shows. -/
def Context.HasPercent (context : Context) : Prop :=
  ∃ field ∈ context, '%' ∈ field.1.toList ∨ '%' ∈ field.2.shown.toList

theorem percent_mem_intercalate_iff (parts : List (List Char)) :
    '%' ∈ [' '].intercalate parts ↔ ∃ part ∈ parts, '%' ∈ part := by
  induction parts with
  | nil => simp [List.intercalate]
  | cons part parts ih =>
    cases parts with
    | nil => simp [List.intercalate]
    | cons next parts =>
      have hcons : [' '].intercalate (part :: next :: parts) =
          part ++ ' ' :: [' '].intercalate (next :: parts) := by simp [List.intercalate]
      have hspace : ¬ '%' = ' ' := by decide
      rw [hcons, List.mem_append, List.mem_cons, ih]
      simp only [hspace, false_or, List.mem_cons, exists_eq_or_imp]

/-- All that brackets, equals signs and spaces add is no `%`. -/
theorem Context.percent_mem_suffix_iff (context : Context) :
    '%' ∈ context.suffix ↔ context.HasPercent := by
  have hfield (field : String × Value) :
      '%' ∈ fieldText field ↔ '%' ∈ field.1.toList ∨ '%' ∈ field.2.shown.toList := by
    have hequals : ¬ '%' = '=' := by decide
    rw [fieldText, List.mem_append, List.mem_cons]
    simp only [hequals, false_or]
  cases context with
  | nil => simp [suffix, HasPercent]
  | cons field fields =>
    have hopen : '%' ∉ " [".toList := by decide
    have hclose : '%' ∉ "]".toList := by decide
    rw [suffix, List.mem_append, List.mem_append, percent_mem_intercalate_iff]
    simp only [hopen, hclose, false_or, or_false, List.mem_map, HasPercent]
    constructor
    · rintro ⟨_, ⟨shown, hmem, rfl⟩, hpercent⟩
      exact ⟨shown, hmem, (hfield shown).mp hpercent⟩
    · rintro ⟨shown, hmem, hpercent⟩
      exact ⟨_, ⟨shown, hmem, rfl⟩, (hfield shown).mpr hpercent⟩

/-- A record with its context is one with a longer template. -/
theorem Record.withContext_eq (r : Record) (now : Context) :
    r.withContext now = { r with template := r.template ++ (r.shownContext now).suffix } := by
  unfold withContext
  cases r.shownContext now with
  | nil => simp [Context.suffix]
  | cons field fields => simp [Context.suffix, Context.text_eq]

namespace Record

variable {r : Record} {message text : List Char} {now : Context}

/-! ### Messages with a context -/

theorem message_of_values_eq_nil (h : r.values = []) : r.message = .ok r.template := by
  simp [message, h]

theorem message_of_values_ne_nil (h : r.values ≠ []) :
    r.message = fill r.template (templateArgs r.values) := by
  simp [message, h]

theorem values_withContext (r : Record) (now : Context) :
    (r.withContext now).values = r.values := by
  rw [withContext_eq]

theorem template_withContext (r : Record) (now : Context) :
    (r.withContext now).template = r.template ++ (r.shownContext now).suffix := by
  rw [withContext_eq]

/-- The values of a record have keys: there is an object alone, with fields. -/
def IsKeyed (r : Record) : Prop := ∃ field fields, r.values = [.object (field :: fields)]

theorem byKey_eq_none (h : ¬ r.IsKeyed) : (templateArgs r.values).supply.byKey = none := by
  unfold templateArgs
  split
  · rename_i field fields hvalues
    exact absurd ⟨field, fields, hvalues⟩ h
  · rfl

/-- A context is filled with the values that the template of its record leaves. -/
theorem message_withContext_eq_ok_iff (now : Context) (hvalues : r.values ≠ [])
    (h : r.message = .ok message) :
    ∃ left : Supply, left.byKey = (templateArgs r.values).supply.byKey ∧ left.IsDone ∧
      ∀ text, (r.withContext now).message = .ok text ↔
        ∃ tail s', Fills left (r.shownContext now).suffix tail s' ∧ s'.IsDone ∧
          text = message ++ tail := by
  rw [message_of_values_ne_nil hvalues, fill_eq_ok_iff] at h
  obtain ⟨left, hfills, hdone⟩ := h
  refine ⟨left, hfills.byKey, hdone, ?_⟩
  intro text
  have hvalues' : (r.withContext now).values ≠ [] := by
    rw [values_withContext]
    exact hvalues
  rw [message_of_values_ne_nil hvalues', values_withContext, template_withContext, fill_eq_ok_iff]
  constructor
  · rintro ⟨s', hall, hdone'⟩
    obtain ⟨tail, htail, rfl⟩ := hfills.split hall
    exact ⟨tail, s', htail, hdone', rfl⟩
  · rintro ⟨tail, s', htail, hdone', rfl⟩
    exact ⟨s', hfills.append htail, hdone'⟩

/-- Without values, and without `%` in the context, a record shows its message and its context. -/
theorem message_withContext (h : r.message = .ok message)
    (hplain : r.values = [] ∨ ¬ (r.shownContext now).HasPercent) :
    (r.withContext now).message = .ok (message ++ (r.shownContext now).suffix) := by
  by_cases hvalues : r.values = []
  · have hvalues' : (r.withContext now).values = [] := by
      rw [values_withContext]
      exact hvalues
    rw [message_of_values_eq_nil hvalues] at h
    cases h
    rw [message_of_values_eq_nil hvalues', template_withContext]
  · have hpercent : '%' ∉ (r.shownContext now).suffix := by
      rw [Context.percent_mem_suffix_iff]
      exact hplain.resolve_left hvalues
    obtain ⟨left, -, hdone, hiff⟩ := message_withContext_eq_ok_iff now hvalues h
    exact (hiff _).mpr ⟨_, left, .of_not_mem left hpercent, hdone, rfl⟩

/-- Values in order are used up by the template, and the context is filled without values. -/
theorem message_withContext_iff (hvalues : r.values ≠ [])
    (horder : ¬ r.IsKeyed) (h : r.message = .ok message) :
    (r.withContext now).message = .ok text ↔
      ∃ tail, halved (r.shownContext now).suffix = some tail ∧ text = message ++ tail := by
  obtain ⟨⟨next, byKey⟩, hkey, hdone, hiff⟩ := message_withContext_eq_ok_iff now hvalues h
  rw [byKey_eq_none horder] at hkey
  obtain rfl : byKey = none := hkey
  obtain rfl : next = [] := hdone rfl
  rw [hiff]
  constructor
  · rintro ⟨tail, s', htail, -, rfl⟩
    exact ⟨tail, (fills_spent_iff.mp htail).1, rfl⟩
  · rintro ⟨tail, htail, rfl⟩
    exact ⟨tail, .spent, fills_spent_iff.mpr ⟨htail, rfl⟩, hdone, rfl⟩

/-- Values by key can be asked for again, and the context is filled with them. -/
theorem message_withContext_keyed_iff {field : String × Value} {fields : Fields} (now : Context)
    (hvalues : r.values = [.object (field :: fields)]) (h : r.message = .ok message) :
    ∃ left : Supply, left.byKey = some (field :: fields) ∧
      ∀ text, (r.withContext now).message = .ok text ↔
        ∃ tail s', Fills left (r.shownContext now).suffix tail s' ∧ text = message ++ tail := by
  have hne : r.values ≠ [] := by simp [hvalues]
  obtain ⟨left, hkey, -, hiff⟩ := message_withContext_eq_ok_iff now hne h
  have hleft : left.byKey = some (field :: fields) := by
    rw [hkey, hvalues]
    rfl
  refine ⟨left, hleft, ?_⟩
  intro text
  rw [hiff]
  constructor
  · rintro ⟨tail, s', htail, -, rfl⟩
    exact ⟨tail, s', htail, rfl⟩
  · rintro ⟨tail, s', htail, rfl⟩
    have hdone : s'.IsDone := by
      intro hnone
      rw [htail.byKey, hleft] at hnone
      cases hnone
    exact ⟨tail, s', htail, hdone, rfl⟩

/-- A record with values in order shows its context exactly if there is no `%` in it. -/
theorem message_withContext_literal_iff (hvalues : r.values ≠ [])
    (horder : ¬ r.IsKeyed) (h : r.message = .ok message) :
    (r.withContext now).message = .ok (message ++ (r.shownContext now).suffix) ↔
      ¬ (r.shownContext now).HasPercent := by
  constructor
  · intro hliteral hpercent
    have hmem := (Context.percent_mem_suffix_iff _).mpr hpercent
    obtain ⟨tail, htail, heq⟩ := (message_withContext_iff hvalues horder h).mp hliteral
    rw [List.append_cancel_left_eq] at heq
    exact halved_ne_self hmem (htail.trans (by rw [heq]))
  · intro hpercent
    exact message_withContext h (Or.inr hpercent)

/-- The line of a record with its context, around its message. -/
theorem contextual_eq (r : Record) (now : Context) (form : LineForm) :
    (r.contextual now form).1 =
      (r.withContext now).message.bind ((r.withContext now).setOut form) := by
  show (r.withContext now).line form = _
  unfold line
  cases (r.withContext now).message <;> rfl

/-! ### Traces of reads -/

/-- The records for tracing the reads of an application: when its description begins, when a read
has failed, and when the store looks for it or has found what belongs to it. -/
inductive IsTrace (name : String) : Record → Prop
  | begins : IsTrace name (Gather.trace "Describing application" [])
  | fails (slot : Slot) (cause : Failure) :
    IsTrace name (Gather.failureTrace slot (.text name) cause)
  | searches : IsTrace name (ConfigStore.searchTrace (.text name))
  | findsEnvironments (count : Nat) :
    IsTrace name (ConfigStore.foundTrace "environments" count (.text name))
  | findsServices (count : Nat) :
    IsTrace name (ConfigStore.foundTrace "services" count (.text name))

theorem IsTrace.exists_message {name : String} (h : IsTrace name r) :
    ∃ message, r.message = .ok message := by
  cases h with
  | begins => exact ⟨_, rfl⟩
  | fails slot cause => exact ⟨_, rfl⟩
  | searches => exact ⟨_, rfl⟩
  | findsEnvironments count => exact ⟨_, rfl⟩
  | findsServices count => exact ⟨_, rfl⟩

/-- What stands in front of the message in a full line. -/
def heading (r : Record) : List Char :=
  r.logger.toList ++ " - ".toList ++ (levelName r.level).toList ++ " - ".toList

theorem setOut_full (hfailure : r.failure = none) (text : List Char) :
    r.setOut .full text = .ok (r.heading ++ text) := by
  simp [setOut, hfailure, heading]

/-- The full line of a record that tells of no failure shows its message behind the heading. -/
theorem contextual_full_eq_ok_iff (hfailure : r.failure = none) (now : Context)
    (text : List Char) :
    (r.contextual now .full).1 = .ok (r.heading ++ text) ↔
      (r.withContext now).message = .ok text := by
  have hfailure' : (r.withContext now).failure = none := by
    rw [withContext_eq]
    exact hfailure
  have hheading : (r.withContext now).heading = r.heading := by
    rw [withContext_eq]
    rfl
  rw [contextual_eq]
  cases (r.withContext now).message with
  | error e => exact ⟨nofun, nofun⟩
  | ok shown =>
    show (r.withContext now).setOut .full shown = _ ↔ _
    rw [setOut_full hfailure', hheading, Except.ok.injEq, Except.ok.injEq,
      List.append_cancel_left_eq]

theorem IsTrace.failure_eq {name : String} (h : IsTrace name r) : r.failure = none := by
  cases h <;> rfl

theorem IsTrace.shownContext_eq {name : String} (h : IsTrace name r) (field : String × Value)
    (fields : Context) : r.shownContext (field :: fields) = field :: fields := by
  cases h <;> rfl

theorem IsTrace.not_isKeyed {name : String} (h : IsTrace name r) : ¬ r.IsKeyed := by
  rintro ⟨field, fields, hvalues⟩
  cases h <;> cases hvalues

/-- The trace of a read shows the name of its application as it is, in the context as well, exactly
if it has no values or there is no `%` in the name. -/
theorem IsTrace.contextual_iff {name : String} (h : IsTrace name r)
    (hmessage : r.message = .ok message) :
    (r.contextual [("app", .text name)] .full).1 =
        .ok (r.heading ++ (message ++ (" [app=".toList ++ name.toList ++ "]".toList))) ↔
      r.values = [] ∨ '%' ∉ name.toList := by
  let now : Context := [("app", .text name)]
  have hshown : r.shownContext now = now := h.shownContext_eq _ _
  have hsuffix : now.suffix = " [app=".toList ++ name.toList ++ "]".toList := by
    simp [now, Context.suffix, fieldText, Value.shown]
  have hpercent : now.HasPercent ↔ '%' ∈ name.toList := by
    simp [now, Context.HasPercent, Value.shown]
  rw [contextual_full_eq_ok_iff h.failure_eq, ← hsuffix]
  -- without values nothing is filled in, and a `%` stays as it is
  by_cases hvalues : r.values = []
  · have hmessage' : (r.withContext now).message = .ok (message ++ (r.shownContext now).suffix) :=
      message_withContext hmessage (Or.inl hvalues)
    rw [hshown] at hmessage'
    exact ⟨fun _ => Or.inl hvalues, fun _ => hmessage'⟩
  · have hliteral : (r.withContext now).message =
          .ok (message ++ (r.shownContext now).suffix) ↔ ¬ (r.shownContext now).HasPercent :=
      message_withContext_literal_iff hvalues h.not_isKeyed hmessage
    rw [hshown] at hliteral
    rw [hliteral, hpercent]
    simp only [hvalues, false_or]

/-- What comes of a record whose message can be written, and whose context can be shown. Its line is
laid out around the message with the context. Without values, and without `%` in the context, that
is its message with the fields of the context in brackets behind it, in their order and as they are.
With values in order and a `%` in the context it is something else, or nothing: each `%` of the
context must stand next to another one, and of each two only one is shown. With values by key the
context is filled with these. The records for tracing the reads of an application show what they
should exactly if they have no values or there is no `%` in the name. -/
theorem contextual_shows (r : Record) (now : Context) :
    (∀ message, r.message = .ok message → (r.shownContext now).IsShown →
      let context := r.shownContext now
      let shown := r.withContext now
      (∀ form, (r.contextual now form).1 = shown.message.bind (shown.setOut form)) ∧
      (r.values = [] ∨ ¬ context.HasPercent →
        shown.message = .ok (message ++ context.suffix)) ∧
      (r.values ≠ [] → ¬ r.IsKeyed →
        (shown.message = .ok (message ++ context.suffix) ↔ ¬ context.HasPercent) ∧
        ∀ text, shown.message = .ok text ↔
          ∃ tail, halved context.suffix = some tail ∧ text = message ++ tail) ∧
      (∀ field fields, r.values = [.object (field :: fields)] →
        ∃ left : Supply, left.byKey = some (field :: fields) ∧
          ∀ text, shown.message = .ok text ↔
            ∃ tail s', Fills left context.suffix tail s' ∧ text = message ++ tail)) ∧
    ∀ name : String, IsTrace name r → ∃ message, r.message = .ok message ∧
      ((r.contextual [("app", .text name)] .full).1 =
          .ok (r.heading ++ (message ++ (" [app=".toList ++ name.toList ++ "]".toList))) ↔
        r.values = [] ∨ '%' ∉ name.toList) := by
  constructor
  · intro message h _
    refine ⟨contextual_eq r now, message_withContext h, ?_, ?_⟩
    · intro hvalues horder
      exact ⟨message_withContext_literal_iff hvalues horder h,
        fun text => message_withContext_iff hvalues horder h⟩
    · intro field fields hvalues
      exact message_withContext_keyed_iff now hvalues h
  · intro name htrace
    obtain ⟨message, hmessage⟩ := htrace.exists_message
    exact ⟨message, hmessage, htrace.contextual_iff hmessage⟩

/-- A record with a value, and a context with two fields. -/
theorem contextual_shows_twoFields :
    (Gather.trace "read %s" [.text "tables"]).message = .ok "read tables".toList ∧
    Context.IsShown [("app", .text "my-app"), ("step", .text "read")] ∧
    ¬ Context.HasPercent [("app", .text "my-app"), ("step", .text "read")] ∧
    ((Gather.trace "read %s" [.text "tables"]).withContext
        [("app", .text "my-app"), ("step", .text "read")]).message =
      .ok "read tables [app=my-app step=read]".toList := by
  have hmessage : (Gather.trace "read %s" [.text "tables"]).message =
      .ok "read tables".toList := rfl
  have hplain : ¬ Context.HasPercent [("app", .text "my-app"), ("step", .text "read")] := by
    rw [← Context.percent_mem_suffix_iff]
    decide
  have hshown : Context.IsShown [("app", .text "my-app"), ("step", .text "read")] := by
    simp only [Context.IsShown, List.forall_mem_cons]
    exact ⟨⟨_, rfl⟩, ⟨_, rfl⟩, nofun⟩
  exact ⟨hmessage, hshown, hplain,
    ((contextual_shows _ _).1 _ hmessage hshown).2.1 (Or.inr hplain)⟩

/-- The name of an application ends with a `%`, and the record of the search for it cannot be
written with its context, though it can be without. -/
theorem contextual_percentName :
    let r := ConfigStore.searchTrace (.text "50%")
    let now : Context := [("app", .text "50%")]
    r.message = .ok "Getting application 50%".toList ∧ now.suffix = " [app=50%]".toList ∧
    r.shownContext now = now ∧
    (r.contextual now .message).1 =
      .error (.of .typeMismatch "not enough arguments for format string") :=
  ⟨rfl, rfl, rfl, rfl⟩

end Record

end AppReport.Log
