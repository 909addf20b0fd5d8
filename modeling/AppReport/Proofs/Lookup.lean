import AppReport.Proofs.Decoding
import AppReport.Proofs.Listings
import AppReport.Proofs.Opening
import AppReport.Proofs.Views
import AppReport.Selector
import Mathlib.Data.String.Basic
import Mathlib.Tactic.SplitIfs

/-!
# Applications listed and looked up

Applications are listed in the order of their names, which is that of the bytes of a text, with all
texts before all bytes (`Stored.Precedes`). UTF-8 keeps the order of characters
(`Text.encode_lt_encode_iff`), so that the order of texts by characters is the same. Each
application that is listed is found by its name, and no other name is that of an application
(`ConfigStore.listing_agrees_with_lookup`): whoever selects a listed application will find it, as
long as the tables stay as they are and the store can be opened.
-/

namespace AppReport

/-! ### The order of bytes -/

namespace Text

/-- The first byte decides between texts of bytes. -/
theorem cons_ofNat_lt {m n : Nat} (h : m < n) (hn : n < 256) (x y : List UInt8) :
    UInt8.ofNat m :: x < UInt8.ofNat n :: y := by
  have hbyte : UInt8.ofNat m < UInt8.ofNat n := by
    rw [UInt8.lt_iff_toNat_lt, UInt8.toNat_ofNat', UInt8.toNat_ofNat']
    omega
  exact List.cons_lt_cons_iff.mpr (Or.inl hbyte)

/-- Greater numbers have greater rows of bytes, whatever comes after these. -/
def Ascends (bound : Nat) (row : Nat → List UInt8) : Prop :=
  ∀ ⦃v w : Nat⦄, v < w → w < bound → ∀ x y, row v ++ x < row w ++ y

/-- First bytes tell numbers apart as far as there is room for them. -/
theorem ascends_lead {size base : Nat} (h : size + base ≤ 256) :
    Ascends size fun v => [UInt8.ofNat (v % size + base)] := by
  intro v w hlt hw x y
  have hv : v % size = v := Nat.mod_eq_of_lt (Nat.lt_trans hlt hw)
  have hw' : w % size = w := Nat.mod_eq_of_lt hw
  show UInt8.ofNat (v % size + base) :: x < UInt8.ofNat (w % size + base) :: y
  rw [hv, hw']
  exact cons_ofNat_lt (by omega) (by omega) x y

/-- One byte more tells numbers apart that differ in the last six bits only. -/
theorem Ascends.continued {bound : Nat} {row : Nat → List UInt8} (h : Ascends bound row) :
    Ascends (bound * 64) fun v => row (v / 64) ++ [UInt8.ofNat (v % 64 + 128)] := by
  intro v w hlt hw x y
  have hdigits : v / 64 < w / 64 ∨ v / 64 = w / 64 ∧ v % 64 < w % 64 := by omega
  simp only [List.append_assoc, List.singleton_append]
  rcases hdigits with hless | ⟨hsame, hless⟩
  · exact h hless (by omega) _ _
  · rw [hsame]
    exact List.append_left_lt (cons_ofNat_lt (by omega) (by omega) x y)

/-- Characters of two bytes are in the order of these bytes. -/
theorem ascends_two : Ascends 0x800 fun v =>
    [UInt8.ofNat (v / 64 % 32 + 192), UInt8.ofNat (v % 64 + 128)] := by
  have hlead : Ascends 32 fun v => [UInt8.ofNat (v % 32 + 192)] := ascends_lead (by decide)
  exact hlead.continued

/-- Characters of three bytes are in the order of these bytes. -/
theorem ascends_three : Ascends 0x10000 fun v =>
    [UInt8.ofNat (v / 4096 % 16 + 224), UInt8.ofNat (v / 64 % 64 + 128),
      UInt8.ofNat (v % 64 + 128)] := by
  have hlead : Ascends 16 fun v => [UInt8.ofNat (v % 16 + 224)] := ascends_lead (by decide)
  simpa [Nat.div_div_eq_div_mul] using hlead.continued.continued

/-- Characters of four bytes are in the order of these bytes. -/
theorem ascends_four : Ascends 0x200000 fun v =>
    [UInt8.ofNat (v / 262144 % 8 + 240), UInt8.ofNat (v / 4096 % 64 + 128),
      UInt8.ofNat (v / 64 % 64 + 128), UInt8.ofNat (v % 64 + 128)] := by
  have hlead : Ascends 8 fun v => [UInt8.ofNat (v % 8 + 240)] := ascends_lead (by decide)
  simpa [Nat.div_div_eq_div_mul] using hlead.continued.continued.continued

theorem toNat_val_lt (c : Char) : c.val.toNat < 0x110000 := by
  rcases c.valid with hlow | ⟨-, hhigh⟩
  · exact Nat.lt_trans hlow (by decide)
  · exact hhigh

/-- A greater character has greater bytes, whatever comes after them. -/
theorem utf8EncodeChar_append_lt {c d : Char} (h : c < d) (x y : List UInt8) :
    String.utf8EncodeChar c ++ x < String.utf8EncodeChar d ++ y := by
  have hlt : c.val.toNat < d.val.toNat := h
  have hmax := toNat_val_lt d
  unfold String.utf8EncodeChar
  generalize c.val.toNat = v at hlt
  generalize d.val.toNat = w at hlt hmax
  dsimp only
  split_ifs
  all_goals try omega
  -- a character with more bytes has a greater first byte
  · exact cons_ofNat_lt (by omega) (by omega) _ _
  · exact cons_ofNat_lt (by omega) (by omega) _ _
  · exact cons_ofNat_lt (by omega) (by omega) _ _
  · exact cons_ofNat_lt (by omega) (by omega) _ _
  · exact ascends_two hlt (by omega) x y
  · exact cons_ofNat_lt (by omega) (by omega) _ _
  · exact cons_ofNat_lt (by omega) (by omega) _ _
  · exact ascends_three hlt (by omega) x y
  · exact cons_ofNat_lt (by omega) (by omega) _ _
  · exact ascends_four hlt (by omega) x y

/-- Texts are in the order of their bytes. -/
theorem encode_lt_encode {cs ds : List Char} (h : cs < ds) : encode cs < encode ds := by
  induction cs generalizing ds with
  | nil =>
    cases ds with
    | nil => exact absurd h (List.lt_irrefl [])
    | cons d ds =>
      have hlength := String.length_utf8EncodeChar d
      have hsize := d.utf8Size_pos
      obtain ⟨b, bs, hbytes⟩ : ∃ b bs, String.utf8EncodeChar d = b :: bs :=
        List.exists_cons_of_length_pos (by omega)
      show [] < String.utf8EncodeChar d ++ encode ds
      rw [hbytes]
      exact List.nil_lt_cons b _
  | cons c cs ih =>
    cases ds with
    | nil => exact absurd h (List.not_lt_nil _)
    | cons d ds =>
      show String.utf8EncodeChar c ++ encode cs < String.utf8EncodeChar d ++ encode ds
      rcases List.cons_lt_cons_iff.mp h with hless | ⟨rfl, hrest⟩
      · exact utf8EncodeChar_append_lt hless _ _
      · exact List.append_left_lt (ih hrest)

/-- The bytes of texts are in the order of the texts, equal ones included. -/
theorem encode_le_encode_iff {cs ds : List Char} : encode cs ≤ encode ds ↔ cs ≤ ds := by
  constructor
  · intro h
    by_contra hnot
    exact Std.not_lt.mpr h (encode_lt_encode (Std.not_le.mp hnot))
  · intro h
    rcases Std.le_iff_lt_or_eq.mp h with hless | rfl
    · exact Std.le_of_lt (encode_lt_encode hless)
    · exact Std.le_refl _

end Text

namespace Stored

/-- The bytes of what a column of texts holds. -/
def content : Stored → List UInt8
  | text s => Text.encode s.toList
  | malformed b _ => b
  | bytes b => b

/-- Whether what a column of texts holds is bytes, and no text. -/
def IsBytes : Stored → Prop
  | bytes _ => True
  | _ => False

/-- The order of a database for names: texts by their bytes, then bytes as they are. -/
def Precedes (a b : Stored) : Prop :=
  ¬ a.IsBytes ∧ b.IsBytes ∨ (a.IsBytes ↔ b.IsBytes) ∧ a.content < b.content

variable {a b : Stored}

/-- Two texts, and two rows of bytes, with the same content are the same. -/
theorem content_injective (hsort : a.IsBytes ↔ b.IsBytes) (h : a.content = b.content) : a = b := by
  cases a <;> cases b <;> simp only [content, IsBytes, iff_true, iff_false, not_true] at h hsort
  case text.text s t =>
    have hdecoded := congrArg Text.decode? h
    simp only [Text.decode?_encode, Option.some.injEq] at hdecoded
    rw [String.toList_inj.mp hdecoded]
  case malformed.malformed =>
    subst h
    rfl
  case bytes.bytes => rw [h]
  -- the bytes of a text are those of one
  case text.malformed s c hc =>
    rw [← h, Text.decode?_encode] at hc
    cases hc
  case malformed.text c hc s =>
    rw [h, Text.decode?_encode] at hc
    cases hc

/-- Texts come before bytes, and otherwise the contents decide. -/
theorem le_iff : a.le b = true ↔
    ¬ a.IsBytes ∧ b.IsBytes ∨ (a.IsBytes ↔ b.IsBytes) ∧ a.content ≤ b.content := by
  cases a <;> cases b <;>
    simp [le, IsBytes, content, Text.encode_le_encode_iff, String.le_iff_toList_le]

/-- Of two different names that are in order, the first precedes the second. -/
theorem precedes_of_le (h : a.le b = true) (hne : a ≠ b) : a.Precedes b := by
  rcases le_iff.mp h with hsorts | ⟨hsort, hle⟩
  · exact Or.inl hsorts
  · have hcontent : a.content ≠ b.content := fun hsame => hne (content_injective hsort hsame)
    exact Or.inr ⟨hsort, Std.lt_of_le_of_ne hle hcontent⟩

theorem le_trans {a b c : Stored} (hab : a.le b = true) (hbc : b.le c = true) : a.le c = true := by
  rw [le_iff] at *
  rcases hab with ⟨ha, hb⟩ | ⟨hsort, hab⟩
  · rcases hbc with ⟨hnot, -⟩ | ⟨hsort, -⟩
    · exact absurd hb hnot
    · exact Or.inl ⟨ha, hsort.mp hb⟩
  · rcases hbc with ⟨hb, hc⟩ | ⟨hsort', hbc⟩
    · exact Or.inl ⟨hsort.not.mpr hb, hc⟩
    · exact Or.inr ⟨hsort.trans hsort', Std.le_trans hab hbc⟩

theorem le_total (a b : Stored) : (a.le b || b.le a) = true := by
  rw [Bool.or_eq_true, le_iff, le_iff]
  by_cases ha : a.IsBytes <;> by_cases hb : b.IsBytes <;> simp [ha, hb, Std.le_total]

theorem not_precedes_self (a : Stored) : ¬ a.Precedes a := by
  rintro (⟨hnot, h⟩ | ⟨-, h⟩)
  · exact hnot h
  · exact List.lt_irrefl _ h

/-- Different names that can be read are read as different values. -/
theorem value_injective (ha : a.IsReadable) (hb : b.IsReadable) (h : a.value = b.value) :
    a = b := by
  cases a <;> cases b <;> cases h <;> trivial

end Stored

/-! ### Listing and looking up -/

namespace Tables

theorem mem_applicationRows_iff {t : Tables} {row : ApplicationRow} :
    row ∈ t.applicationRows ↔ row ∈ t.applications.rows :=
  (List.mergeSort_perm _ _).mem_iff

/-- The rows of applications are listed in ascending order of their names, which all differ. -/
theorem pairwise_applicationRows (t : Tables) :
    t.applicationRows.Pairwise fun r s => r.name.Precedes s.name := by
  have hsorted : t.applicationRows.Pairwise fun r s => r.name.le s.name = true := by
    unfold applicationRows
    apply List.pairwise_mergeSort
    · intro r s u hrs hsu
      exact Stored.le_trans hrs hsu
    · intro r s
      exact Stored.le_total r.name s.name
  have hperm : t.applicationRows.Perm t.applications.rows := List.mergeSort_perm _ _
  have hnodup := (hperm.map ApplicationRow.name).nodup_iff.mpr t.names_nodup
  exact (hsorted.and (List.pairwise_map.mp hnodup)).imp fun h => Stored.precedes_of_le h.1 h.2

end Tables

namespace Selector

/-- The chosen name is one of those that are offered. -/
theorem mem_of_choose {promptText : List Char} {names : List Value}
    {entered left : List (List Char)} {name : Value} {shown : List Char}
    (h : choose promptText names entered = (some name, left, shown)) : name ∈ names := by
  induction entered generalizing shown with
  | nil => cases h
  | cons line rest ih =>
    rw [choose] at h
    rcases hrest : choose promptText names rest with ⟨choice, left', shown'⟩
    rw [hrest] at h ih
    dsimp only at h
    split at h
    · -- an empty line asks again
      cases h
      exact ih rfl
    · split at h
      · rename_i found hfound
        cases h
        exact List.mem_of_find?_eq_some hfound
      · cases h
        exact ih rfl

/-- What is selected is the name of one of the applications that are listed. -/
theorem exists_of_select {apps : List Application} {promptText help : String}
    {entered : List (List Char)} {name : Value}
    (h : (select (.ok apps) promptText help entered).outcome = .ok name) :
    ∃ app ∈ apps, app.name = name := by
  unfold select at h
  split at h
  · cases h
  · cases h
  · rename_i app hlisted
    cases hlisted
    cases h
    exact ⟨app, List.mem_singleton_self app, rfl⟩
  · rename_i listed _ _ hlisted
    cases hlisted
    dsimp only at h
    split at h
    · cases h
    · rename_i found _ _ hchoose
      cases h
      exact List.mem_map.mp (mem_of_choose hchoose)

end Selector

namespace ConfigStore

variable {store : ConfigStore} {files : Files} {t : Tables} {apps : List Application}

/-- An application is looked up in the tables of the store. -/
theorem application_of_tables (ht : (store.tables files).1 = .ok t) {name : Stored}
    (hname : name.IsReadable) :
    (store.application name.value files).1 =
      (t.application? name).elim (.error (.unknownApplication name.value))
        fun row => row.read.bind Application.ofRow := by
  have hsearch := search_of_tables ht hname fun t name => name.bind t.application?
  rw [application]
  rcases hfound : store.search name.value (fun t name => name.bind t.application?) files with
    ⟨e | row?, files'⟩
  · rw [hfound] at hsearch
    cases hsearch
  · rw [hfound] at hsearch
    obtain rfl : row? = t.application? name := Except.ok.inj hsearch
    cases t.application? name <;> rfl

/-- A look-up in a store that cannot be opened fails as opening does. -/
theorem application_of_error {e : Failure} (he : (store.tables files).1 = .error e) (v : Value) :
    (store.application v files).1 = .error e := by
  rw [application, search]
  rcases hread : store.tables files with ⟨e' | t, files'⟩
  · rw [hread] at he
    cases he
    rfl
  · rw [hread] at he
    cases he

/-- No application has the name of no value. -/
theorem application_null (files : Files) (app : Application) :
    (store.application .null files).1 ≠ .ok app := by
  intro happ
  rw [application, search] at happ
  rcases hread : store.tables files with ⟨e | t, files'⟩ <;> rw [hread] at happ <;> cases happ

/-- Applications are listed by reading all rows first, and making records of them then. -/
theorem applications_of_tables (ht : (store.tables files).1 = .ok t) :
    (store.applications files).1 =
      (mapUntilFailure ApplicationRow.read t.applicationRows).bind
        (mapUntilFailure Application.ofRow) := by
  rw [applications]
  rcases hread : store.tables files with ⟨e | t', files'⟩
  · rw [hread] at ht
    cases ht
  · rw [hread] at ht
    obtain rfl : t' = t := Except.ok.inj ht
    rfl

/-- Applications are listed if all of their rows can be read, and each of them makes one. -/
theorem applications_eq_ok_iff (ht : (store.tables files).1 = .ok t) :
    (store.applications files).1 = .ok apps ↔
      (∀ row ∈ t.applicationRows, row.IsReadable) ∧
        t.applicationRows.map (fun row => Application.ofRow row.toFields) = apps.map .ok := by
  have hmade : mapUntilFailure Application.ofRow (t.applicationRows.map ApplicationRow.toFields) =
      .ok apps ↔
        t.applicationRows.map (fun row => Application.ofRow row.toFields) = apps.map .ok := by
    rw [mapUntilFailure_eq_ok_iff, List.map_map]
    rfl
  rw [applications_of_tables ht]
  cases hread : mapUntilFailure ApplicationRow.read t.applicationRows with
  | ok read =>
    obtain ⟨hreadable, rfl⟩ := ApplicationRow.readAll_eq_ok_iff.mp hread
    rw [Except.bind, hmade]
    exact (and_iff_right hreadable).symm
  | error f =>
    constructor
    · exact nofun
    · rintro ⟨hreadable, -⟩
      rw [ApplicationRow.readAll_eq_ok_iff.mpr ⟨hreadable, rfl⟩] at hread
      cases hread

/-- A listing of applications is made of the records of all rows. -/
theorem applications_eq_ok (h : (store.applications files).1 = .ok apps) :
    ∃ t, (store.tables files).1 = .ok t ∧ (∀ row ∈ t.applicationRows, row.IsReadable) ∧
      t.applicationRows.map (fun row => Application.ofRow row.toFields) = apps.map .ok := by
  cases htables : (store.tables files).1 with
  | ok t => exact ⟨t, rfl, (applications_eq_ok_iff htables).mp h⟩
  | error e =>
    rw [applications] at h
    rcases hread : store.tables files with ⟨e' | t, files'⟩ <;> rw [hread] at h htables
    · cases h
    · cases htables

/-- A store whose applications can be listed. They are listed in ascending order of their names, no
name twice. As long as the tables are the same, each of them is what is found by its name, and no
other text is the name of an application. So a name that someone selects from the list is found as
what was listed, unless the store cannot be opened any more; that no application has the name is
never said of it. -/
theorem listing_agrees_with_lookup (h : (store.applications files).1 = .ok apps) :
    (∃ names : List Stored, apps.map Application.name = names.map Stored.value ∧
      names.Pairwise Stored.Precedes) ∧
    (apps.map Application.name).Nodup ∧
    (∀ files', (store.tables files').1 = (store.tables files).1 →
      (∀ app ∈ apps, (store.application app.name files').1 = .ok app) ∧
      ∀ n : String, (∀ app ∈ apps, app.name ≠ .text n) →
        (store.application (.text n) files').1 = .error (.unknownApplication (.text n))) ∧
    ∀ files', (∀ t, (store.tables files').1 = .ok t → (store.tables files).1 = .ok t) →
      ∀ promptText help entered name,
        (Selector.select (.ok apps) promptText help entered).outcome = .ok name →
        ∃ app ∈ apps, app.name = name ∧
          ((store.application name files').1 = .ok app ∨
            ∃ f, (store.application name files').1 = .error f ∧
              (store.tables files').1 = .error f ∧ f.kind? ≠ some .unknownApplication) := by
  obtain ⟨t, ht, hreadable, hrows⟩ := applications_eq_ok h
  have hnames : t.applicationRows.map (fun row => row.name.value) = apps.map Application.name :=
    map_eq_map_of_imp (fun row app hrow => (Application.ofRow_eq_ok hrow).1.symm) hrows
  have hascending := t.pairwise_applicationRows
  -- used twice: for the names of the list, and for the one that is selected
  have hfound : ∀ files', (store.tables files').1 = .ok t →
      ∀ app ∈ apps, (store.application app.name files').1 = .ok app := by
    intro files' ht' app happ
    have hmem : Except.ok app ∈ t.applicationRows.map fun row => Application.ofRow row.toFields :=
      hrows ▸ List.mem_map_of_mem happ
    obtain ⟨row, hrow, hmade⟩ := List.mem_map.mp hmem
    have hlookup := Tables.application?_eq_some_iff.mpr
      ⟨Tables.mem_applicationRows_iff.mp hrow, rfl⟩
    have hread := hreadable row hrow
    rw [(Application.ofRow_eq_ok hmade).1, application_of_tables ht' hread.name, hlookup]
    exact read_bind_ofRow_eq_ok_iff.mpr ⟨hread, hmade⟩
  refine ⟨⟨t.applicationRows.map ApplicationRow.name, ?_, ?_⟩, ?_, ?_, ?_⟩
  · rw [← hnames, List.map_map]
    rfl
  · exact List.pairwise_map.mpr hascending
  · rw [← hnames]
    refine List.pairwise_map.mpr (hascending.imp_of_mem fun hrow hrow' hless hsame => ?_)
    have hname := Stored.value_injective (hreadable _ hrow).name (hreadable _ hrow').name hsame
    exact Stored.not_precedes_self _ (hname ▸ hless)
  · intro files' hsame
    refine ⟨hfound files' (hsame.trans ht), ?_⟩
    intro n hother
    have hnone : t.application? (.text n) = none := by
      refine Tables.application?_eq_none_iff.mpr fun row hrow hname => ?_
      have hmem : row.name.value ∈ apps.map Application.name :=
        hnames ▸ List.mem_map_of_mem (Tables.mem_applicationRows_iff.mpr hrow)
      obtain ⟨app, happ, hsame⟩ := List.mem_map.mp hmem
      exact hother app happ (hsame.trans (congrArg Stored.value hname))
    have hlookup := @application_of_tables _ _ _ (hsame.trans ht) (.text n) trivial
    rw [hnone] at hlookup
    exact hlookup
  · intro files' hunchanged promptText help entered name hselected
    obtain ⟨app, happ, rfl⟩ := Selector.exists_of_select hselected
    refine ⟨app, happ, rfl, ?_⟩
    cases htables : (store.tables files').1 with
    | ok t' =>
      have hsame : t' = t := Except.ok.inj ((hunchanged t' htables).symm.trans ht)
      exact Or.inl (hfound files' (hsame ▸ htables) app happ)
    | error f =>
      -- a store that cannot be opened never fails for want of an application
      refine Or.inr ⟨f, application_of_error htables _, rfl, fun hkind => ?_⟩
      have hopening := isOpening_tables store files' f htables
      rw [Failure.isKind, hkind] at hopening
      cases hopening

/-- The applications of the tables `sharedTables`, the one with a text for its name first. -/
def sharedApplications : List Application :=
  [⟨.text "a", .text "", .text "", .null, []⟩, ⟨.bytes [0x61], .text "", .text "", .null, []⟩]

theorem applications_sharedTables :
    (rootStore.applications (filesWith sharedTables)).1 = .ok sharedApplications := by
  have hrows : sharedTables.applicationRows = sharedTables.applications.rows :=
    List.mergeSort_of_pairwise (by decide)
  show (mapUntilFailure _ sharedTables.applicationRows).bind _ = _
  rw [hrows]
  rfl

/-- The files after these applications have been listed. -/
def filesListed : Files := (rootStore.applications (filesWith sharedTables)).2

theorem listing_agrees_with_lookup_sharedTables :
    (rootStore.applications (filesWith sharedTables)).1 = .ok sharedApplications ∧
    (sharedApplications.map Application.name).Nodup ∧
    (∀ app ∈ sharedApplications, (rootStore.application app.name filesListed).1 = .ok app) ∧
    (rootStore.application (.text "b") filesListed).1 =
      .error (.unknownApplication (.text "b")) ∧
    (Selector.select (.ok sharedApplications) "Application" "" [['a']]).outcome = .ok (.text "a") ∧
    ∃ app ∈ sharedApplications, app.name = .text "a" := by
  have hsame :
      (rootStore.tables filesListed).1 = (rootStore.tables (filesWith sharedTables)).1 := by
    rfl
  have hselected :
      (Selector.select (.ok sharedApplications) "Application" "" [['a']]).outcome =
        .ok (.text "a") := by
    rfl
  obtain ⟨-, hnodup, hlookup, hchosen⟩ := listing_agrees_with_lookup applications_sharedTables
  obtain ⟨hfound, hunknown⟩ := hlookup filesListed hsame
  obtain ⟨app, happ, hname, -⟩ :=
    hchosen filesListed (fun t ht => hsame.symm.trans ht) "Application" "" [['a']] (.text "a")
      hselected
  refine ⟨applications_sharedTables, hnodup, hfound, ?_, hselected, app, happ, hname⟩
  exact hunknown "b" (by simp [sharedApplications])

end ConfigStore

end AppReport
