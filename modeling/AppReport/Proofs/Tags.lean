import AppReport.Proofs.Lookup
import AppReport.Proofs.ReadBack

/-!
# The tags of an application

The column of the tags may hold any text. Of a JSON object they are the fields with their values as
texts, and of every other text they are none (`shownTags`), but for two kinds of text: one whose
containers nest too deep and one with an integer of too many digits (`Json.IsExcessive`). Such a
text is no application (`Application.ofRow_of_isExcessive`), and one row with it is enough for the
applications not to be listed (`ConfigStore.tags_contained`).

Every value that is read can be written as a text: it nests no deeper than the reader goes, and its
integers have no more digits than it takes (`Value.IsBounded`). So the fields of an object that is
read never spoil the tags.
-/

namespace AppReport

open Number Json

/-! ### Values within bounds -/

/-- A value with no more containers around any part than there is `room` for, and with no integer of
too many digits. -/
structure Value.IsBounded (room : Nat) (v : Value) : Prop where
  depth_le : v.depth ≤ room
  hasLongInt_eq : v.hasLongInt = false

namespace Value

variable {room : Nat}

/-- What is within bounds is within wider ones. -/
theorem IsBounded.mono {more : Nat} {v : Value} (h : v.IsBounded room) (hle : room ≤ more) :
    v.IsBounded more := ⟨h.depth_le.trans hle, h.hasLongInt_eq⟩

/-- What is no container and no integer is within any bounds. -/
theorem isBounded_null : IsBounded room null := ⟨Nat.zero_le room, rfl⟩

theorem isBounded_bool (b : Bool) : IsBounded room (bool b) := ⟨Nat.zero_le room, rfl⟩

theorem isBounded_float (x : Binary64) : IsBounded room (float x) := ⟨Nat.zero_le room, rfl⟩

theorem isBounded_text (s : String) : IsBounded room (text s) := ⟨Nat.zero_le room, rfl⟩

theorem isBounded_int {n : Int} (h : n.natAbs < Nat.pow 10 maxDigits) : IsBounded room (int n) := by
  refine ⟨Nat.zero_le room, ?_⟩
  rw [hasLongInt, decide_eq_false_iff_not, Nat.not_le]
  exact h

/-- A list needs room for one more container than its items. -/
theorem isBounded_list {items : List Value} (h : ∀ v ∈ items, v.IsBounded room) :
    IsBounded (room + 1) (list items) := by
  have hdepth : itemsDepth items ≤ room := itemsDepth_le_iff.mpr fun v hv => (h v hv).depth_le
  have hshort : anyLongInt items = false :=
    anyLongInt_eq_false_iff.mpr fun v hv => (h v hv).hasLongInt_eq
  exact ⟨Nat.succ_le_succ hdepth, hshort⟩

/-- An object needs room for one more container than its values. -/
theorem isBounded_object_iff {fields : Fields} :
    IsBounded (room + 1) (object fields) ↔ ∀ field ∈ fields, field.2.IsBounded room := by
  constructor
  · rintro ⟨hdepth, hshort⟩ field hfield
    have hdepths := fieldsDepth_le_iff.mp (Nat.le_of_succ_le_succ hdepth)
    have hshorts := anyLongIntField_eq_false_iff.mp hshort
    exact ⟨hdepths field hfield, hshorts field hfield⟩
  · intro h
    have hdepth : fieldsDepth fields ≤ room :=
      fieldsDepth_le_iff.mpr fun field hfield => (h field hfield).depth_le
    have hshort : anyLongIntField fields = false :=
      anyLongIntField_eq_false_iff.mpr fun field hfield => (h field hfield).hasLongInt_eq
    exact ⟨Nat.succ_le_succ hdepth, hshort⟩

/-- A value within the bounds of the reader has a text. -/
theorem shown?_of_isBounded {v : Value} (h : v.IsBounded deepest) : v.shown? = .ok v.shown := by
  have hdepth : ¬ deepest < v.depth := Nat.not_lt.mpr h.depth_le
  unfold shown?
  rw [if_neg hdepth, h.hasLongInt_eq]
  rfl

end Value

namespace Fields

/-- A field that is put into an object keeps what holds of all values. -/
theorem forall_mem_put {P : Value → Prop} {key : String} {value : Value} {fields : Fields}
    (hvalue : P value) (hfields : ∀ field ∈ fields, P field.2) :
    ∀ field ∈ put key value fields, P field.2 := by
  induction fields with
  | nil => exact List.forall_mem_singleton.mpr hvalue
  | cons field fields ih =>
    rw [List.forall_mem_cons] at hfields
    unfold put
    split
    · exact List.forall_mem_cons.mpr ⟨hvalue, hfields.2⟩
    · exact List.forall_mem_cons.mpr ⟨hfields.1, ih hfields.2⟩

/-- What holds of the values of pairs holds of those of the object that they make. -/
theorem forall_mem_ofPairs {P : Value → Prop} {pairs : List (String × Value)}
    (h : ∀ pair ∈ pairs, P pair.2) : ∀ field ∈ ofPairs pairs, P field.2 := by
  -- each pair is put into an object of which it holds
  apply List.foldlRecOn (motive := fun fields : Fields => ∀ field ∈ fields, P field.2)
  · exact nofun
  · intro fields hfields pair hpair
    exact forall_mem_put (h pair hpair) hfields

/-- Fields within the bounds of the reader all have texts. -/
theorem shown_of_isBounded {fields : Fields}
    (h : ∀ field ∈ fields, field.2.IsBounded deepest) :
    Fields.shown fields = .ok (fields.map fun field => (field.1, field.2.shown)) := by
  induction fields with
  | nil => rfl
  | cons field fields ih =>
    rw [List.forall_mem_cons] at h
    rw [Fields.shown, Value.shown?_of_isBounded h.1, ih h.2]
    rfl

end Fields

/-! ### What is read -/

namespace Json

variable {room : Nat} {cs rest : List Char} {v : Value}

theorem isBounded_of_unsignedNumber {negative : Bool}
    (h : unsignedNumber negative cs = some (.ok (v, rest))) : v.IsBounded room := by
  unfold unsignedNumber at h
  split at h
  · cases h
  rename_i whole afterWhole _
  dsimp only at h
  split at h
  · cases h
    exact Value.isBounded_float _
  split_ifs at h with hplaces hlength
  · cases h
    exact Value.isBounded_float _
  · cases h
  all_goals
    -- an integer has as many digits as are read, and these are not too many
    cases h
    have hlt := ofDigits_lt (Nat.not_lt.mp hlength)
    apply Value.isBounded_int
    omega

theorem isBounded_of_number (h : number cs = some (.ok (v, rest))) : v.IsBounded room := by
  unfold number at h
  split at h
  · exact isBounded_of_unsignedNumber h
  · exact isBounded_of_unsignedNumber h

theorem isBounded_of_readScalar (h : readScalar cs = .ok (v, rest)) : v.IsBounded room := by
  unfold readScalar at h
  split at h
  · split at h
    · cases h
    · cases h
      exact Value.isBounded_text _
  · cases h
    exact Value.isBounded_null
  · cases h
    exact Value.isBounded_bool _
  · cases h
    exact Value.isBounded_bool _
  · cases h
    exact Value.isBounded_float _
  · cases h
    exact Value.isBounded_float _
  · cases h
    exact Value.isBounded_float _
  · -- neither a text nor a word: what is left is a number
    cases hnumber : number cs with
    | none =>
      rw [hnumber] at h
      cases h
    | some r =>
      rw [hnumber, Option.getD_some] at h
      exact isBounded_of_number (hnumber.trans (congrArg some h))

section

variable {item : List Char → Reading Value}
  (hitem : ∀ cs v rest, item cs = .ok (v, rest) → v.IsBounded room)

include hitem

/-- The items that are read are within bounds, if each one is. -/
theorem isBounded_of_readItems {fuel : Nat} {items : List Value}
    (h : readItems item fuel cs = .ok (items, rest)) : ∀ v ∈ items, v.IsBounded room := by
  -- one item is read in each step
  induction fuel generalizing cs items rest with
  | zero => cases h
  | succ fuel ih =>
    unfold readItems at h
    split at h
    · cases h
    rename_i v after hv
    have hfirst := hitem _ _ _ hv
    split at h
    · cases h
      exact List.forall_mem_singleton.mpr hfirst
    · split at h
      · cases h
      · rename_i hitems
        cases h
        exact List.forall_mem_cons.mpr ⟨hfirst, ih hitems⟩
    · cases h

/-- The fields that are read are within bounds, if each value is. -/
theorem isBounded_of_readFields {fuel : Nat} {fields : List (String × Value)}
    (h : readFields item fuel cs = .ok (fields, rest)) :
    ∀ field ∈ fields, field.2.IsBounded room := by
  -- as with items, but that a key and a colon come first
  induction fuel generalizing cs fields rest with
  | zero => cases h
  | succ fuel ih =>
    unfold readFields at h
    split at h
    · split at h
      · cases h
      split at h
      · split at h
        · cases h
        rename_i v after hv
        have hfirst := hitem _ _ _ hv
        split at h
        · cases h
          exact List.forall_mem_singleton.mpr hfirst
        · split at h
          · cases h
          · rename_i hfields
            cases h
            exact List.forall_mem_cons.mpr ⟨hfirst, ih hfields⟩
        · cases h
      · cases h
    · cases h

theorem isBounded_of_readContainer {isList : Bool}
    (h : readContainer item isList cs = .ok (v, rest)) : v.IsBounded (room + 1) := by
  unfold readContainer at h
  split at h
  · cases h
    exact Value.isBounded_list nofun
  · split at h
    · cases h
    · rename_i hitems
      cases h
      exact Value.isBounded_list (isBounded_of_readItems hitem hitems)
  · cases h
    exact Value.isBounded_object_iff.mpr nofun
  · split at h
    · cases h
    · rename_i hpairs
      cases h
      exact Value.isBounded_object_iff.mpr
        (Fields.forall_mem_ofPairs (isBounded_of_readFields hitem hpairs))

end

/-- A text begins a list, or an object, or it is read as no container. -/
theorem readValue_cases (cs : List Char) : (∃ tail, cs = '[' :: tail) ∨
    (∃ tail, cs = '\x7b' :: tail) ∨ ∀ room, readValue room cs = readScalar cs := by
  cases cs with
  | nil =>
    right; right
    intro room
    cases room <;> rfl
  | cons c tail =>
    by_cases hlist : c = '['
    · exact Or.inl ⟨tail, by rw [hlist]⟩
    by_cases hobject : c = '\x7b'
    · exact Or.inr (Or.inl ⟨tail, by rw [hobject]⟩)
    · exact Or.inr (Or.inr fun room => readValue_eq_readScalar hlist hobject)

/-- What is read with room for so many containers is within these bounds. -/
theorem isBounded_of_readValue (h : readValue room cs = .ok (v, rest)) : v.IsBounded room := by
  -- the parts of a container are read with one less of room
  induction room generalizing cs v rest with
  | zero =>
    obtain ⟨tail, rfl⟩ | ⟨tail, rfl⟩ | hscalar := readValue_cases cs
    · cases h
    · cases h
    · rw [hscalar] at h
      exact isBounded_of_readScalar h
  | succ room ih =>
    have hitem : ∀ cs v rest, readValue room cs = .ok (v, rest) → v.IsBounded room :=
      fun _ _ _ hv => ih hv
    obtain ⟨tail, rfl⟩ | ⟨tail, rfl⟩ | hscalar := readValue_cases cs
    · exact isBounded_of_readContainer hitem h
    · exact isBounded_of_readContainer hitem h
    · rw [hscalar] at h
      exact isBounded_of_readScalar h

/-- Whatever is read is within the bounds of the reader. -/
theorem isBounded_of_read {s : String} (h : read s = .ok v) : v.IsBounded deepest := by
  unfold read at h
  split at h
  · rename_i hdocument
    cases h
    unfold readDocument at hdocument
    split at hdocument
    · cases hdocument
    · split at hdocument
      · cases hdocument
      · rename_i hvalue
        split at hdocument
        · cases hdocument
          exact isBounded_of_readValue hvalue
        · cases hdocument
  · cases h

/-- Too many digits for an integer are all that is read of them. -/
theorem read_ones {n : Nat} (h : maxDigits < n) :
    read (String.ofList (List.replicate n '1')) = .error (.tooManyDigits n) := by
  have hne : List.replicate n '1' ≠ [] := by simp; omega
  have hones : IsWhole (List.replicate n '1') := by
    refine Or.inr ⟨hne, ?_, ?_⟩
    · intro hhead
      have hmem := List.eq_of_mem_replicate (List.mem_of_head? hhead)
      exact absurd hmem (by decide)
    · intro c hc
      rw [List.eq_of_mem_replicate hc]
      rfl
  have hwhole : wholePart (List.replicate n '1' ++ []) = some (List.replicate n '1', []) :=
    wholePart_append hones nofun
  -- neither a point nor an exponent follows, so that the digits are those of an integer
  have hnumber : unsignedNumber false (List.replicate n '1') =
      some (.error (.tooManyDigits n)) := by
    rw [List.append_nil] at hwhole
    unfold unsignedNumber
    rw [hwhole]
    simp [fraction, readExponent?, h]
  obtain ⟨c, tail, htext, hc⟩ := hones.exists_cons
  have hvalue := readValue_signed ⟨c, tail, htext, hc⟩ hnumber deepest
  have hbegins := beginsValue_of_isDigit hc tail
  rw [signed, if_neg Bool.false_ne_true, htext] at hvalue
  rw [htext, read, String.toList_ofList, readDocument, hbegins.skipSpace_eq, hvalue]
  · rfl
  · rintro tail' heq
    obtain ⟨c', _, hcons, -, -, hmark⟩ := hbegins
    exact hmark (List.cons.inj (hcons.symm.trans heq)).1

/-- A text that the reader gives up: its containers nest too deep, or one of its integers has too
many digits. -/
def IsExcessive (s : String) : Prop :=
  read s = .error .tooDeep ∨ ∃ n, read s = .error (.tooManyDigits n)

end Json

/-! ### Tags -/

/-- The tags in a column: of a text that is read as an object they are its fields, with their values
as texts, and of everything else they are none. -/
def shownTags : Option Stored → List (String × String)
  | some (.text s) =>
    match read s with
    | .ok (.object fields) => fields.map fun field => (field.1, field.2.shown)
    | _ => []
  | _ => []

/-- A column of tags with a text that the reader gives up. -/
def ExcessiveTags : Option Stored → Prop
  | some (.text s) => IsExcessive s
  | _ => False

/-- Excessive tags are a failure of the reader, which is not caught. -/
theorem Value.tags_text_of_isExcessive {s : String} (h : IsExcessive s) :
    ∃ f, (text s).tags = .error f ∧ (f.kind? = some .recursion ∨ f.kind? = some .value) := by
  have hne : s ≠ "" := by
    -- the empty text breaks the grammar
    rintro rfl
    rcases h with h | ⟨n, h⟩ <;> cases h
  rw [tags, if_neg hne]
  rcases h with h | ⟨n, h⟩
  · rw [h]
    exact ⟨_, rfl, Or.inl rfl⟩
  · rw [h]
    exact ⟨_, rfl, Or.inr rfl⟩

/-- All other tags have a value, be it none. -/
theorem Value.tags_text_of_not_isExcessive {s : String} (h : ¬ IsExcessive s) :
    (text s).tags = .ok (shownTags (some (.text s))) := by
  rw [tags, shownTags]
  by_cases hempty : s = ""
  · rw [if_pos hempty, hempty]
    rfl
  rw [if_neg hempty]
  cases hread : read s with
  | error e =>
    cases e with
    | malformed problem place line column => rfl
    | tooManyDigits n => exact absurd (Or.inr ⟨n, hread⟩) h
    | tooDeep => exact absurd (Or.inl hread) h
  | ok v =>
    cases v with
    | object fields =>
      have hbounded : IsBounded (deepest - 1 + 1) (object fields) := isBounded_of_read hread
      have hfields := isBounded_object_iff.mp hbounded
      exact Fields.shown_of_isBounded fun field hfield => (hfields field hfield).mono (by omega)
    | _ => rfl

/-- What a column of tags gives. -/
theorem tags_storedValue (column : Option Stored) :
    (ExcessiveTags column → ∃ f, (storedValue column).tags = .error f ∧
      (f.kind? = some .recursion ∨ f.kind? = some .value)) ∧
    (¬ ExcessiveTags column → (storedValue column).tags = .ok (shownTags column)) := by
  rcases column with _ | (s | b | ⟨b, h⟩)
  · exact ⟨False.elim, fun _ => rfl⟩
  · exact ⟨Value.tags_text_of_isExcessive, Value.tags_text_of_not_isExcessive⟩
  · exact ⟨False.elim, fun _ => rfl⟩
  · exact ⟨False.elim, fun _ => rfl⟩

namespace Application

theorem ofRow_toFields (r : ApplicationRow) :
    ofRow r.toFields =
      match (storedValue r.tags).tags with
      | .error e => .error e
      | .ok tags => .ok ⟨r.name.value, (storedValue r.accountId).orEmpty,
        (storedValue r.domain).orEmpty, storedValue r.version, tags⟩ := rfl

/-- Excessive tags are no tags, and then the row is no application. -/
theorem ofRow_of_excessiveTags {r : ApplicationRow} (h : ExcessiveTags r.tags) :
    ∃ f, ofRow r.toFields = .error f ∧ (f.kind? = some .recursion ∨ f.kind? = some .value) := by
  obtain ⟨f, hf, hkind⟩ := (tags_storedValue r.tags).1 h
  rw [ofRow_toFields, hf]
  exact ⟨f, rfl, hkind⟩

/-- Any other row is an application, with the tags of its column. -/
theorem ofRow_of_not_excessiveTags {r : ApplicationRow} (h : ¬ ExcessiveTags r.tags) :
    ∃ app, ofRow r.toFields = .ok app ∧ app.tags = shownTags r.tags := by
  rw [ofRow_toFields, (tags_storedValue r.tags).2 h]
  exact ⟨_, rfl, rfl⟩

/-- A row is that of an application unless its tags are excessive. -/
theorem exists_ofRow_eq_ok_iff {r : ApplicationRow} :
    (∃ app, ofRow r.toFields = .ok app) ↔ ¬ ExcessiveTags r.tags := by
  constructor
  · rintro ⟨app, happ⟩ h
    obtain ⟨f, hf, -⟩ := ofRow_of_excessiveTags h
    rw [happ] at hf
    cases hf
  · intro h
    obtain ⟨app, happ, -⟩ := ofRow_of_not_excessiveTags h
    exact ⟨app, happ⟩

end Application

namespace ConfigStore

variable {store : ConfigStore} {files : Files} {t : Tables}

/-- A stored application is found by its name if its row can be read, unless its own tags are
excessive. -/
theorem exists_application_iff (ht : (store.tables files).1 = .ok t) {r : ApplicationRow}
    (hr : r ∈ t.applications.rows) :
    (∃ app, (store.application r.name.value files).1 = .ok app) ↔
      r.IsReadable ∧ ¬ ExcessiveTags r.tags := by
  by_cases hname : r.name.IsReadable
  · have hlookup := Tables.application?_eq_some_iff.mpr ⟨hr, rfl⟩
    rw [application_of_tables ht hname, hlookup]
    simp only [Option.elim_some, read_bind_ofRow_eq_ok_iff, exists_and_left,
      Application.exists_ofRow_eq_ok_iff]
  · -- a name that cannot be read is that of no value
    have hvalue : r.name.value = .null := by
      cases hname' : r.name with
      | malformed b h => rfl
      | text s => exact absurd (hname' ▸ trivial) hname
      | bytes b => exact absurd (hname' ▸ trivial) hname
    rw [hvalue]
    constructor
    · rintro ⟨app, happ⟩
      exact absurd happ (application_null files app)
    · rintro ⟨hreadable, -⟩
      exact absurd hreadable.name hname

/-- The applications can be listed if all rows can be read, unless the tags of one of them are
excessive. -/
theorem exists_applications_iff (ht : (store.tables files).1 = .ok t) :
    (∃ apps, (store.applications files).1 = .ok apps) ↔
      ∀ r ∈ t.applications.rows, r.IsReadable ∧ ¬ ExcessiveTags r.tags := by
  simp only [applications_eq_ok_iff ht, exists_and_left, exists_map_eq_map_ok_iff,
    Application.exists_ofRow_eq_ok_iff, Tables.mem_applicationRows_iff, forall₂_and]

/-- What the tags of a row do to a store whose tables can be read. Excessive tags are a failure,
whoever reads the row; with any others the row is an application, and its tags are those of the
column. So an application whose row can be read is found by its name as long as its own tags are not
excessive, whatever those of the others are, and applications whose rows can be read can be listed
as long as the tags of none of them are. -/
theorem tags_contained (ht : (store.tables files).1 = .ok t) :
    (∀ r : ApplicationRow, ExcessiveTags r.tags → ∃ f, Application.ofRow r.toFields = .error f ∧
      (f.kind? = some .recursion ∨ f.kind? = some .value)) ∧
    (∀ r : ApplicationRow, ¬ ExcessiveTags r.tags →
      ∃ app, Application.ofRow r.toFields = .ok app ∧ app.tags = shownTags r.tags) ∧
    (∀ r ∈ t.applications.rows, (∃ app, (store.application r.name.value files).1 = .ok app) ↔
      r.IsReadable ∧ ¬ ExcessiveTags r.tags) ∧
    ((∃ apps, (store.applications files).1 = .ok apps) ↔
      ∀ r ∈ t.applications.rows, r.IsReadable ∧ ¬ ExcessiveTags r.tags) := by
  refine ⟨?_, ?_, ?_, exists_applications_iff ht⟩
  · intro r h
    exact Application.ofRow_of_excessiveTags h
  · intro r h
    exact Application.ofRow_of_not_excessiveTags h
  · intro r hr
    exact exists_application_iff ht hr

/-- Tables with two applications, of which the second one has a number of 5000 digits for tags. -/
def numericTags : Tables where
  applications := ⟨[⟨1, .text "first", none, none, none, none⟩,
    ⟨2, .text "second", none, none, none,
      some (.text (String.ofList (List.replicate 5000 '1')))⟩], 2⟩
  environments := .empty
  workloads := .empty
  ids_nodup := by decide
  names_nodup := by decide

theorem excessiveTags_ones :
    ExcessiveTags (some (.text (String.ofList (List.replicate 5000 '1')))) :=
  Or.inr ⟨5000, read_ones (by decide)⟩

theorem tags_contained_numericTags :
    (rootStore.tables (filesWith numericTags)).1 = .ok numericTags ∧
    (∃ app, (rootStore.application (.text "first") (filesWith numericTags)).1 = .ok app) ∧
    ¬ ∃ apps, (rootStore.applications (filesWith numericTags)).1 = .ok apps := by
  have ht := tables_rootStore numericTags
  obtain ⟨-, -, hfound, hlisted⟩ := tags_contained ht
  have hreadable : ApplicationRow.IsReadable ⟨1, .text "first", none, none, none, none⟩ :=
    ⟨trivial, nofun, nofun, nofun, nofun⟩
  refine ⟨ht, (hfound _ (.head _)).mpr ⟨hreadable, id⟩, fun h => ?_⟩
  exact (hlisted.mp h _ (.tail _ (.head _))).2 excessiveTags_ones

/-- The tags of the second application make the listing of both fail, and its own look-up. -/
theorem applications_numericTags :
    (¬ ∃ apps, (rootStore.applications (filesWith numericTags)).1 = .ok apps) ∧
    ¬ ∃ app, (rootStore.application (.text "second") (filesWith numericTags)).1 = .ok app := by
  have ht := tables_rootStore numericTags
  constructor
  · intro h
    exact ((exists_applications_iff ht).mp h _ (.tail _ (.head _))).2 excessiveTags_ones
  · intro h
    exact ((exists_application_iff ht (.tail _ (.head _))).mp h).2 excessiveTags_ones

end ConfigStore

end AppReport
