import AppReport.Json.Writer
import AppReport.Proofs.Numerals
import AppReport.Record

/-!
# Values read back

A document can hold values without bytes and with finite numbers, whose objects have each key once
and which do not nest too deep (`Value.IsDocument`). What is written of such a value is read as this
value, as long as none of its integers is too long (`Json.read_write`).
-/

namespace AppReport

open Number Text

namespace Value

/-! ### Values by their parts -/

/-- What holds of a value as soon as it holds of its parts holds of every value. -/
@[elab_as_elim]
theorem induction {P : Value → Prop} (null : P null) (bool : ∀ b, P (bool b))
    (int : ∀ n, P (int n)) (float : ∀ x, P (float x)) (text : ∀ s, P (text s))
    (bytes : ∀ b, P (bytes b)) (list : ∀ items, (∀ v ∈ items, P v) → P (list items))
    (object : ∀ fields, (∀ field ∈ fields, P field.2) → P (object fields)) (v : Value) : P v :=
  @Value.rec P (fun items => ∀ v ∈ items, P v) (fun fields => ∀ field ∈ fields, P field.2)
    (fun field => P field.2) null bool int float text bytes list object nofun
    (fun _ _ hv hitems => List.forall_mem_cons.mpr ⟨hv, hitems⟩) nofun
    (fun _ _ hfield hfields => List.forall_mem_cons.mpr ⟨hfield, hfields⟩) (fun _ _ hv => hv) v

mutual

/-- Whether every object in a value has each key once. -/
def isKeyed : Value → Bool
  | list items => itemsKeyed items
  | object fields => decide (fields.map Prod.fst).Nodup && fieldsKeyed fields
  | _ => true

/-- Whether every object in the items of a list has each key once. -/
def itemsKeyed : List Value → Bool
  | [] => true
  | v :: rest => v.isKeyed && itemsKeyed rest

/-- Whether every object in the fields of an object has each key once. -/
def fieldsKeyed : List (String × Value) → Bool
  | [] => true
  | (_, v) :: rest => v.isKeyed && fieldsKeyed rest

end

mutual

/-- Whether a value holds neither bytes nor a number that is not finite. -/
def isPlain : Value → Bool
  | float x => x.isFinite
  | bytes _ => false
  | list items => itemsPlain items
  | object fields => fieldsPlain fields
  | _ => true

/-- Whether the items of a list hold neither bytes nor a number that is not finite. -/
def itemsPlain : List Value → Bool
  | [] => true
  | v :: rest => v.isPlain && itemsPlain rest

/-- Whether the fields of an object hold neither bytes nor a number that is not finite. -/
def fieldsPlain : List (String × Value) → Bool
  | [] => true
  | (_, v) :: rest => v.isPlain && fieldsPlain rest

end

/-- A list is keyed if its items are. -/
theorem itemsKeyed_iff {items : List Value} :
    itemsKeyed items = true ↔ ∀ v ∈ items, v.isKeyed = true := by
  induction items with
  | nil => exact ⟨fun _ => nofun, fun _ => rfl⟩
  | cons v items ih => rw [itemsKeyed, Bool.and_eq_true, ih, List.forall_mem_cons]

theorem isKeyed_list_map {α : Type} {xs : List α} {value : α → Value}
    (h : ∀ x ∈ xs, (value x).isKeyed = true) : (list (xs.map value)).isKeyed = true :=
  itemsKeyed_iff.mpr (List.forall_mem_map.mpr h)

/-- The fields of an object are keyed if their values are. -/
theorem fieldsKeyed_iff {fields : List (String × Value)} :
    fieldsKeyed fields = true ↔ ∀ field ∈ fields, field.2.isKeyed = true := by
  induction fields with
  | nil => exact ⟨fun _ => nofun, fun _ => rfl⟩
  | cons field fields ih => rw [fieldsKeyed, Bool.and_eq_true, ih, List.forall_mem_cons]

/-- A list is plain if its items are. -/
theorem itemsPlain_iff {items : List Value} :
    itemsPlain items = true ↔ ∀ v ∈ items, v.isPlain = true := by
  induction items with
  | nil => exact ⟨fun _ => nofun, fun _ => rfl⟩
  | cons v items ih => rw [itemsPlain, Bool.and_eq_true, ih, List.forall_mem_cons]

theorem fieldsPlain_iff {fields : List (String × Value)} :
    fieldsPlain fields = true ↔ ∀ field ∈ fields, field.2.isPlain = true := by
  induction fields with
  | nil => exact ⟨fun _ => nofun, fun _ => rfl⟩
  | cons field fields ih => rw [fieldsPlain, Bool.and_eq_true, ih, List.forall_mem_cons]

theorem anyLongInt_eq_false_iff {items : List Value} :
    anyLongInt items = false ↔ ∀ v ∈ items, v.hasLongInt = false := by
  induction items with
  | nil => exact ⟨fun _ => nofun, fun _ => rfl⟩
  | cons v items ih => rw [anyLongInt, Bool.or_eq_false_iff, ih, List.forall_mem_cons]

theorem anyLongIntField_eq_false_iff {fields : List (String × Value)} :
    anyLongIntField fields = false ↔ ∀ field ∈ fields, field.2.hasLongInt = false := by
  induction fields with
  | nil => exact ⟨fun _ => nofun, fun _ => rfl⟩
  | cons field fields ih => rw [anyLongIntField, Bool.or_eq_false_iff, ih, List.forall_mem_cons]

/-- A list is as deep as the deepest of its items. -/
theorem itemsDepth_le_iff {items : List Value} {room : ℕ} :
    itemsDepth items ≤ room ↔ ∀ v ∈ items, v.depth ≤ room := by
  induction items with
  | nil => exact ⟨fun _ => nofun, fun _ => Nat.zero_le room⟩
  | cons v items ih => rw [itemsDepth, Nat.max_le, ih, List.forall_mem_cons]

theorem fieldsDepth_le_iff {fields : List (String × Value)} {room : ℕ} :
    fieldsDepth fields ≤ room ↔ ∀ field ∈ fields, field.2.depth ≤ room := by
  induction fields with
  | nil => exact ⟨fun _ => nofun, fun _ => Nat.zero_le room⟩
  | cons field fields ih => rw [fieldsDepth, Nat.max_le, ih, List.forall_mem_cons]

/-! ### Values that documents hold as they are -/

/-- A value that a document can hold as it is where there is `room` for so many containers. -/
structure IsDocument (room : ℕ) (v : Value) : Prop where
  isKeyed : v.isKeyed = true
  isPlain : v.isPlain = true
  depth_le : v.depth ≤ room

/-- What fits into a room fits into a larger one. -/
theorem IsDocument.mono {room more : ℕ} {v : Value} (h : IsDocument room v) (hle : room ≤ more) :
    IsDocument more v := ⟨h.isKeyed, h.isPlain, h.depth_le.trans hle⟩

theorem isDocument_text (room : ℕ) (s : String) : IsDocument room (text s) :=
  ⟨rfl, rfl, Nat.zero_le room⟩

theorem isDocument_bool (room : ℕ) (b : Bool) : IsDocument room (bool b) :=
  ⟨rfl, rfl, Nat.zero_le room⟩

theorem isDocument_null (room : ℕ) : IsDocument room null := ⟨rfl, rfl, Nat.zero_le room⟩

theorem isDocument_int (room : ℕ) (n : ℤ) : IsDocument room (int n) :=
  ⟨rfl, rfl, Nat.zero_le room⟩

/-- A list needs room for one more container than its items do. -/
theorem isDocument_list_iff {room : ℕ} {items : List Value} :
    IsDocument room (list items) ↔ 0 < room ∧ ∀ v ∈ items, IsDocument (room - 1) v := by
  constructor
  · rintro ⟨hkeyed, hplain, hdepth⟩
    rw [depth] at hdepth
    rw [isKeyed, itemsKeyed_iff] at hkeyed
    rw [isPlain, itemsPlain_iff] at hplain
    have hdepths := itemsDepth_le_iff.mp (Nat.le_sub_one_of_lt hdepth)
    exact ⟨by omega, fun v hv => ⟨hkeyed v hv, hplain v hv, hdepths v hv⟩⟩
  · rintro ⟨hroom, hitems⟩
    have hdepths : itemsDepth items ≤ room - 1 :=
      itemsDepth_le_iff.mpr fun v hv => (hitems v hv).depth_le
    exact ⟨itemsKeyed_iff.mpr fun v hv => (hitems v hv).isKeyed,
      itemsPlain_iff.mpr fun v hv => (hitems v hv).isPlain, by rw [depth]; omega⟩

theorem isDocument_list_map {α : Type} {room : ℕ} {xs : List α} {value : α → Value}
    (h : ∀ x ∈ xs, IsDocument room (value x)) : IsDocument (room + 1) (list (xs.map value)) :=
  isDocument_list_iff.mpr ⟨Nat.succ_pos room, List.forall_mem_map.mpr h⟩

/-- An object needs room for one more container than its values do, and a key once. -/
theorem isDocument_object_iff {room : ℕ} {fields : List (String × Value)} :
    IsDocument room (object fields) ↔ 0 < room ∧ (fields.map Prod.fst).Nodup ∧
      ∀ field ∈ fields, IsDocument (room - 1) field.2 := by
  constructor
  · rintro ⟨hkeyed, hplain, hdepth⟩
    rw [depth] at hdepth
    rw [isKeyed, Bool.and_eq_true, decide_eq_true_iff, fieldsKeyed_iff] at hkeyed
    rw [isPlain, fieldsPlain_iff] at hplain
    have hdepths := fieldsDepth_le_iff.mp (Nat.le_sub_one_of_lt hdepth)
    exact ⟨by omega, hkeyed.1, fun field hfield => ⟨hkeyed.2 field hfield, hplain field hfield,
      hdepths field hfield⟩⟩
  · rintro ⟨hroom, hnodup, hfields⟩
    have hdepths : fieldsDepth fields ≤ room - 1 :=
      fieldsDepth_le_iff.mpr fun field hfield => (hfields field hfield).depth_le
    refine ⟨?_, fieldsPlain_iff.mpr fun field hfield => (hfields field hfield).isPlain,
      by rw [depth]; omega⟩
    rw [isKeyed, Bool.and_eq_true, decide_eq_true_iff, fieldsKeyed_iff]
    exact ⟨hnodup, fun field hfield => (hfields field hfield).isKeyed⟩

end Value

/-! ### Objects -/

namespace Fields

/-- A new key goes to the end of an object. -/
theorem put_of_not_mem {key : String} {value : Value} {fields : Fields}
    (h : key ∉ fields.map Prod.fst) : fields.put key value = fields ++ [(key, value)] := by
  induction fields with
  | nil => rfl
  | cons field fields ih =>
    rw [List.map_cons, List.mem_cons, not_or] at h
    rw [put, if_neg (Ne.symm h.1), ih h.2]
    rfl

/-- Fields of different keys are an object as they are. -/
theorem ofPairs_of_nodup {fields : Fields} (h : (fields.map Prod.fst).Nodup) :
    ofPairs fields = fields := by
  have hfoldl : ∀ (rest before : Fields), ((before ++ rest).map Prod.fst).Nodup →
      rest.foldl (fun fields field => put field.1 field.2 fields) before = before ++ rest := by
    intro rest
    induction rest with
    | nil => exact fun before _ => (List.append_nil before).symm
    | cons field rest ih =>
      intro before hnodup
      obtain ⟨key, value⟩ := field
      have hnew : key ∉ before.map Prod.fst := by
        rw [List.map_append, List.nodup_append] at hnodup
        exact fun hmem => hnodup.2.2 _ hmem key (by simp) rfl
      rw [List.foldl_cons]
      dsimp only
      rw [put_of_not_mem hnew, ih _ (by simpa using hnodup), List.append_assoc]
      rfl
  exact hfoldl fields [] h

end Fields

namespace Json

/-! ### Texts -/

theorem hexValue_hexDigit : ∀ d < 16, hexValue (hexDigit d) = some d := by decide

/-- Four digits denote the number that they write. -/
theorem hexValue4_hexDigit {a b c d : ℕ} (ha : a < 16) (hb : b < 16) (hc : c < 16) (hd : d < 16) :
    hexValue4 (hexDigit a) (hexDigit b) (hexDigit c) (hexDigit d) =
      some (4096 * a + 256 * b + 16 * c + d) := by
  rw [hexValue4, hexValue_hexDigit a ha, hexValue_hexDigit b hb, hexValue_hexDigit c hc,
    hexValue_hexDigit d hd]
  rfl

theorem hexDigits_four (n : ℕ) : hexDigits 4 n = [hexDigit (n / 16 / 16 / 16 % 16),
    hexDigit (n / 16 / 16 % 16), hexDigit (n / 16 % 16), hexDigit (n % 16)] := rfl

/-- The number of a character denotes it. -/
theorem charOfNumber_toNat (c : Char) : charOfNumber c.toNat = c := by
  have hvalid : c.toNat.isValidChar := c.valid
  rw [charOfNumber, if_pos hvalid, Char.ofNat_toNat]

/-- An escape by the number of a character is read as the character. -/
theorem readText_codeEscape (start : ℕ) {c : Char} (hc : c < ' ') {rest : List Char}
    (hrest : rest ≠ []) :
    readText start none ('\\' :: 'u' :: (hexDigits 4 c.toNat ++ rest)) =
      (readText start none rest).cons c := by
  have hlt : c.toNat < 32 := hc
  have hempty : rest.isEmpty = false := by simpa using hrest
  have hnumber : hexValue4 (hexDigit (c.toNat / 16 / 16 / 16 % 16))
      (hexDigit (c.toNat / 16 / 16 % 16)) (hexDigit (c.toNat / 16 % 16)) (hexDigit (c.toNat % 16)) =
      some c.toNat := by
    rw [hexValue4_hexDigit (by omega) (by omega) (by omega) (by omega), Option.some.injEq]
    omega
  have hhalf : isHighHalf c.toNat = false := by
    rw [isHighHalf, Bool.and_eq_false_iff, decide_eq_false_iff_not]
    exact Or.inl (by omega)
  rw [hexDigits_four, List.cons_append, List.cons_append, List.cons_append, List.cons_append,
    List.nil_append, readText, hnumber, hempty]
  simp only [hhalf, Bool.false_eq_true, if_false, charOfNumber_toNat]
  rfl

/-- A written character is read as itself. -/
theorem readText_writeChar (start : ℕ) (c : Char) {rest : List Char} (hrest : rest ≠ []) :
    readText start none (writeChar c ++ rest) = (readText start none rest).cons c := by
  unfold writeChar
  split_ifs with hquote hbackslash hfeed hreturn htab hpage hback hcontrol
  · rw [hquote]; rfl
  · rw [hbackslash]; rfl
  · rw [hfeed]; rfl
  · rw [hreturn]; rfl
  · rw [htab]; rfl
  · rw [hpage]; rfl
  · rw [hback]; rfl
  · exact readText_codeEscape start hcontrol hrest
  · -- no other character is a quote, an escape or a control character
    rw [List.singleton_append, readText.eq_def]
    split <;> rename_i heq <;> cases heq
    · exact absurd rfl hquote
    · exact absurd rfl hbackslash
    · exact absurd rfl hbackslash
    · exact absurd rfl hbackslash
    · exact absurd rfl hbackslash
    · rw [if_neg hcontrol]
      rfl

/-- A written text is read as itself. -/
theorem readText_flatMap (start : ℕ) (cs rest : List Char) :
    readText start none (cs.flatMap writeChar ++ '"' :: rest) = .ok (cs, rest) := by
  induction cs with
  | nil => rw [List.flatMap_nil, List.nil_append, readText]; rfl
  | cons c cs ih =>
    rw [List.flatMap_cons, List.append_assoc, readText_writeChar start c (by simp), ih]
    rfl

/-! ### Values -/

/-- A text that begins as a value does: with no blank, no closing bracket and no byte order mark. -/
def BeginsValue (cs : List Char) : Prop :=
  ∃ c tail, cs = c :: tail ∧ isSpace c = false ∧ c ≠ ']' ∧ c ≠ '\uFEFF'

/-- What begins a value does so whatever follows. -/
theorem BeginsValue.append {cs : List Char} (h : BeginsValue cs) (rest : List Char) :
    BeginsValue (cs ++ rest) := by
  obtain ⟨c, tail, rfl, hc⟩ := h
  exact ⟨c, tail ++ rest, rfl, hc⟩

theorem skipSpace_cons {c : Char} (hc : isSpace c = false) (cs : List Char) :
    skipSpace (c :: cs) = c :: cs := by
  rw [skipSpace, List.dropWhile_cons_of_neg (by simp [hc])]

/-- No space stands before a value. -/
theorem BeginsValue.skipSpace_eq {cs : List Char} (h : BeginsValue cs) : skipSpace cs = cs := by
  obtain ⟨c, tail, rfl, hc, -, -⟩ := h
  exact skipSpace_cons hc tail

theorem beginsValue_of_isDigit {c : Char} (hc : c.isDigit = true) (tail : List Char) :
    BeginsValue (c :: tail) := by
  refine ⟨c, tail, rfl, ?_, ?_, ?_⟩
  · rw [← Bool.not_eq_true, isSpace]
    simp only [Bool.or_eq_true, beq_iff_eq]
    rintro (((rfl | rfl) | rfl) | rfl) <;> exact absurd hc (by decide)
  · rintro rfl
    exact absurd hc (by decide)
  · rintro rfl
    exact absurd hc (by decide)

theorem beginsValue_signed {negative : Bool} {cs : List Char}
    (h : ∃ c tail, cs = c :: tail ∧ c.isDigit = true) : BeginsValue (signed negative cs) := by
  obtain ⟨c, tail, rfl, hc⟩ := h
  cases negative with
  | true => exact ⟨'-', c :: tail, rfl, by decide⟩
  | false => exact beginsValue_of_isDigit hc tail

/-- What is written of a plain value begins one. -/
theorem beginsValue_writeValue {v : Value} (h : v.isPlain = true) :
    BeginsValue (writeValue v) := by
  cases v with
  | null => exact ⟨'n', _, rfl, by decide⟩
  | bool b => cases b <;> exact ⟨_, _, rfl, by decide⟩
  | int n =>
    rw [writeValue, intText]
    split
    · exact ⟨'-', _, rfl, by decide⟩
    · obtain ⟨c, tail, hdigits, hc⟩ := (isWhole_digits n.natAbs).exists_cons
      exact hdigits ▸ beginsValue_of_isDigit hc tail
  | float x =>
    cases x with
    | finite negative m e hcanonical =>
      -- a number with a point or an exponent has a digit in front as well
      obtain ⟨n, htext, -⟩ := exists_numeral_of_text (shortest m e)
      obtain ⟨c, tail, hwhole, hc⟩ := n.isWhole.exists_cons
      rw [writeValue, writeFloat, Binary64.text, htext, Numeral.text, hwhole]
      · exact beginsValue_signed ⟨c, _, rfl, hc⟩
      · simp
      · simp
    | infinite => cases h
    | nan => cases h
  | text s => exact ⟨'"', _, rfl, by decide⟩
  | bytes b => cases h
  | list items => exact ⟨'[', _, rfl, by decide⟩
  | object fields => exact ⟨'\x7b', _, rfl, by decide⟩

theorem beginsValue_writeItems {items : List Value} (hne : items ≠ [])
    (h : ∀ v ∈ items, v.isPlain = true) : BeginsValue (writeItems items) := by
  cases items with
  | nil => exact absurd rfl hne
  | cons v items =>
    have hv := beginsValue_writeValue (h v List.mem_cons_self)
    cases items with
    | nil => exact hv
    | cons w items => exact hv.append _

theorem beginsValue_writeFields {fields : List (String × Value)} (hne : fields ≠ []) :
    ∃ tail, writeFields fields = '"' :: tail := by
  cases fields with
  | nil => exact absurd rfl hne
  | cons field fields =>
    obtain ⟨key, v⟩ := field
    cases fields with
    | nil => exact ⟨_, rfl⟩
    | cons next fields => exact ⟨_, rfl⟩

/-- Each item takes a character at least, so that there are steps enough to read all of them. -/
theorem length_le_length_writeItems {items : List Value} (h : ∀ v ∈ items, v.isPlain = true) :
    items.length ≤ (writeItems items).length := by
  induction items with
  | nil => exact Nat.zero_le _
  | cons v items ih =>
    obtain ⟨c, tail, htext, -⟩ := beginsValue_writeValue (h v List.mem_cons_self)
    have hrest := ih fun w hw => h w (List.mem_cons_of_mem v hw)
    cases items with
    | nil => simp [writeItems, htext]
    | cons w items =>
      simp only [writeItems, List.length_cons, List.length_append] at hrest ⊢
      omega

/-- Each field is written with one character at least. -/
theorem length_le_length_writeFields (fields : List (String × Value)) :
    fields.length ≤ (writeFields fields).length := by
  induction fields with
  | nil => exact Nat.zero_le _
  | cons field fields ih =>
    obtain ⟨key, v⟩ := field
    cases fields with
    | nil =>
      simp only [writeFields, List.length_cons, List.length_append, List.length_nil]
      omega
    | cons next fields =>
      simp only [writeFields, List.length_cons, List.length_append] at ih ⊢
      omega

theorem endsNumber_comma (cs : List Char) : EndsNumber (',' :: cs) :=
  endsNumber_cons (by decide) (by decide) (by decide) (by decide)

theorem endsNumber_bracket (cs : List Char) : EndsNumber (']' :: cs) :=
  endsNumber_cons (by decide) (by decide) (by decide) (by decide)

theorem endsNumber_brace (cs : List Char) : EndsNumber ('\x7d' :: cs) :=
  endsNumber_cons (by decide) (by decide) (by decide) (by decide)

/-- A comma and a space stand between two items. -/
theorem writeItems_cons_cons (v w : Value) (items : List Value) :
    writeItems (v :: w :: items) = writeValue v ++ ',' :: ' ' :: writeItems (w :: items) := rfl

/-- A comma and a space stand between two fields. -/
theorem writeFields_cons_cons (key : String) (v : Value) (next : String × Value)
    (fields : List (String × Value)) : writeFields ((key, v) :: next :: fields) =
      writeText key.toList ++ ':' :: ' ' :: writeValue v ++
        ',' :: ' ' :: writeFields (next :: fields) := rfl

theorem skipSpace_colon (cs : List Char) : skipSpace (':' :: cs) = ':' :: cs :=
  skipSpace_cons (by decide) cs

theorem skipSpace_comma (cs : List Char) : skipSpace (',' :: cs) = ',' :: cs :=
  skipSpace_cons (by decide) cs

theorem skipSpace_brace (cs : List Char) : skipSpace ('\x7d' :: cs) = '\x7d' :: cs :=
  skipSpace_cons (by decide) cs

/-- A field that is followed by a closing brace is the last one. -/
theorem readFields_of_brace {item : List Char → Reading Value} {key : String}
    {cs rest : List Char} {v : Value} (h : item (skipSpace cs) = .ok (v, '\x7d' :: rest))
    (fuel : ℕ) :
    readFields item (fuel + 1) (writeText key.toList ++ ':' :: cs) = .ok ([(key, v)], rest) := by
  rw [writeText, List.cons_append, List.append_assoc, List.singleton_append, readFields,
    readText_flatMap]
  simp only [skipSpace_colon, h, skipSpace_brace, String.ofList_toList]

/-- A field that is followed by a comma is followed by the other fields. -/
theorem readFields_of_comma {item : List Char → Reading Value} {key : String}
    {cs rest rest' : List Char} {v : Value} {fields : Fields} {fuel : ℕ}
    (h : item (skipSpace cs) = .ok (v, ',' :: rest))
    (hrest : readFields item fuel (skipSpace rest) = .ok (fields, rest')) :
    readFields item (fuel + 1) (writeText key.toList ++ ':' :: cs) =
      .ok ((key, v) :: fields, rest') := by
  rw [writeText, List.cons_append, List.append_assoc, List.singleton_append, readFields,
    readText_flatMap]
  simp only [skipSpace_colon, h, skipSpace_comma, hrest, String.ofList_toList]

/-- The items of a list are read back, if each of them is. -/
theorem readItems_writeItems {item : List Char → Reading Value} {items : List Value}
    (hne : items ≠ []) (hplain : ∀ v ∈ items, v.isPlain = true)
    (hitem : ∀ v ∈ items, ∀ rest, EndsNumber rest →
      item (writeValue v ++ rest) = .ok (v, rest)) {fuel : ℕ} (hfuel : items.length ≤ fuel)
    (rest : List Char) :
    readItems item fuel (writeItems items ++ ']' :: rest) = .ok (items, rest) := by
  -- the induction is on the items, each of which takes a step
  induction items generalizing fuel with
  | nil => exact absurd rfl hne
  | cons v items ih =>
    obtain ⟨fuel, rfl⟩ : ∃ n, fuel = n + 1 := ⟨fuel - 1, by rw [List.length_cons] at hfuel; omega⟩
    have hv := hitem v List.mem_cons_self
    cases items with
    | nil =>
      rw [writeItems, readItems, hv _ (endsNumber_bracket rest)]
      rfl
    | cons w items =>
      have hplain' : ∀ u ∈ w :: items, u.isPlain = true :=
        fun u hu => hplain u (List.mem_cons_of_mem v hu)
      have hrest := ih (List.cons_ne_nil w items) hplain'
        (fun u hu => hitem u (List.mem_cons_of_mem v hu)) (Nat.le_of_succ_le_succ hfuel)
      have hskip : skipSpace (' ' :: (writeItems (w :: items) ++ ']' :: rest)) =
          writeItems (w :: items) ++ ']' :: rest :=
        ((beginsValue_writeItems (List.cons_ne_nil w items) hplain').append _).skipSpace_eq
      rw [writeItems_cons_cons, List.append_assoc, List.cons_append, List.cons_append, readItems,
        hv _ (endsNumber_comma _)]
      simp only [skipSpace_comma, hskip, hrest]

/-- The fields of an object are read back, if the value of each of them is. -/
theorem readFields_writeFields {item : List Char → Reading Value} {fields : List (String × Value)}
    (hne : fields ≠ []) (hplain : ∀ field ∈ fields, field.2.isPlain = true)
    (hitem : ∀ field ∈ fields, ∀ rest, EndsNumber rest →
      item (writeValue field.2 ++ rest) = .ok (field.2, rest)) {fuel : ℕ}
    (hfuel : fields.length ≤ fuel) (rest : List Char) :
    readFields item fuel (writeFields fields ++ '\x7d' :: rest) = .ok (fields, rest) := by
  -- as with the items of a list, but that a blank follows the colon too
  induction fields generalizing fuel with
  | nil => exact absurd rfl hne
  | cons field fields ih =>
    obtain ⟨key, v⟩ := field
    obtain ⟨fuel, rfl⟩ : ∃ n, fuel = n + 1 := ⟨fuel - 1, by rw [List.length_cons] at hfuel; omega⟩
    have hv : ∀ rest, EndsNumber rest → item (writeValue v ++ rest) = .ok (v, rest) :=
      hitem (key, v) List.mem_cons_self
    have hvalue : ∀ rest, EndsNumber rest →
        item (skipSpace (' ' :: (writeValue v ++ rest))) = .ok (v, rest) := by
      intro rest hrest
      have hskip : skipSpace (' ' :: (writeValue v ++ rest)) = writeValue v ++ rest :=
        ((beginsValue_writeValue (hplain (key, v) List.mem_cons_self)).append rest).skipSpace_eq
      rw [hskip, hv rest hrest]
    cases fields with
    | nil =>
      rw [writeFields, List.append_assoc, List.cons_append, List.cons_append,
        readFields_of_brace (hvalue _ (endsNumber_brace rest))]
    | cons next fields =>
      have hrest := ih (List.cons_ne_nil next fields)
        (fun u hu => hplain u (List.mem_cons_of_mem _ hu))
        (fun u hu => hitem u (List.mem_cons_of_mem _ hu)) (Nat.le_of_succ_le_succ hfuel)
      obtain ⟨tail, htail⟩ := beginsValue_writeFields (List.cons_ne_nil next fields)
      have hskip : skipSpace (' ' :: (writeFields (next :: fields) ++ '\x7d' :: rest)) =
          writeFields (next :: fields) ++ '\x7d' :: rest := by
        rw [htail]
        rfl
      rw [writeFields_cons_cons, List.append_assoc, List.append_assoc, List.cons_append,
        List.cons_append, List.cons_append, List.cons_append]
      refine readFields_of_comma (hvalue _ (endsNumber_comma _)) ?_
      rw [hskip, hrest]

/-- A list that does not end at once has items. -/
theorem readContainer_list {item : List Char → Reading Value} {cs : List Char}
    (h : BeginsValue cs) : readContainer item true cs =
      match readItems item (cs.length + 1) cs with
      | .error e => .error e
      | .ok (items, rest) => .ok (.list items, rest) := by
  unfold readContainer
  rw [h.skipSpace_eq]
  obtain ⟨c, tail, rfl, -, hbracket, -⟩ := h
  split <;> rename_i heq
  · cases heq
    exact absurd rfl hbracket
  · rfl
  · cases ‹true = false›
  · cases ‹true = false›

/-- An object that goes on with a quote has fields. -/
theorem readContainer_object (item : List Char → Reading Value) (tail : List Char) :
    readContainer item false ('"' :: tail) =
      match readFields item (('"' :: tail).length + 1) ('"' :: tail) with
      | .error e => .error e
      | .ok (pairs, rest) => .ok (.object (Fields.ofPairs pairs), rest) := rfl

/-- What is written of a value that a document can hold as it is is read as this value. -/
theorem readValue_writeValue (v : Value) {room : ℕ} {rest : List Char} (h : v.IsDocument room)
    (hshort : v.hasLongInt = false) (hrest : EndsNumber rest) :
    readValue room (writeValue v ++ rest) = .ok (v, rest) := by
  -- the parts of a container are read with one less of room, and in front of a comma or a bracket
  induction v using Value.induction generalizing room rest with
  | null => exact readValue_eq_readScalar (by decide) (by decide)
  | bool b => cases b <;> exact readValue_eq_readScalar (by decide) (by decide)
  | int n =>
    rw [Value.hasLongInt, decide_eq_false_iff_not, not_le] at hshort
    exact readValue_int hshort room hrest
  | float x =>
    have hfinite : x.isFinite = true := h.isPlain
    cases x with
    | finite => exact readValue_float hfinite room hrest
    | infinite => cases hfinite
    | nan => cases hfinite
  | text s =>
    rw [writeValue, writeText, List.cons_append, List.append_assoc, List.singleton_append,
      readValue_eq_readScalar (by decide) (by decide), readScalar, readText_flatMap]
    dsimp only
    rw [String.ofList_toList]
  | bytes b => cases h.isPlain
  | list items ih =>
    obtain ⟨hroom, hitems⟩ := Value.isDocument_list_iff.mp h
    rw [Value.hasLongInt, Value.anyLongInt_eq_false_iff] at hshort
    obtain ⟨room, rfl⟩ : ∃ n, room = n + 1 := ⟨room - 1, by omega⟩
    rw [Nat.add_sub_cancel] at hitems
    rw [writeValue, List.cons_append, List.append_assoc, List.singleton_append, readValue]
    by_cases hne : items = []
    · rw [hne]
      rfl
    · have hplain : ∀ v ∈ items, v.isPlain = true := fun v hv => (hitems v hv).isPlain
      have hbegins := (beginsValue_writeItems hne hplain).append (']' :: rest)
      have hlength : items.length ≤ (writeItems items ++ ']' :: rest).length + 1 := by
        have := length_le_length_writeItems hplain
        rw [List.length_append]
        omega
      rw [readContainer_list hbegins, readItems_writeItems hne hplain
        (fun v hv rest hrest => ih v hv (hitems v hv) (hshort v hv) hrest) hlength]
  | object fields ih =>
    obtain ⟨hroom, hnodup, hfields⟩ := Value.isDocument_object_iff.mp h
    rw [Value.hasLongInt, Value.anyLongIntField_eq_false_iff] at hshort
    obtain ⟨room, rfl⟩ : ∃ n, room = n + 1 := ⟨room - 1, by omega⟩
    rw [Nat.add_sub_cancel] at hfields
    rw [writeValue, List.cons_append, List.append_assoc, List.singleton_append, readValue]
    by_cases hne : fields = []
    · rw [hne]
      rfl
    · have hlength : fields.length ≤ (writeFields fields ++ '\x7d' :: rest).length + 1 := by
        have := length_le_length_writeFields fields
        rw [List.length_append]
        omega
      have hread := readFields_writeFields hne (fun field hfield => (hfields field hfield).isPlain)
        (fun field hfield rest hrest =>
          ih field hfield (hfields field hfield) (hshort field hfield) hrest) hlength rest
      obtain ⟨tail, htail⟩ := beginsValue_writeFields hne
      rw [htail, List.cons_append] at hread ⊢
      rw [readContainer_object, hread]
      -- the keys are all different, so the object has the fields as they were written
      dsimp only
      rw [Fields.ofPairs_of_nodup hnodup]

/-- A line with a value that a document can hold as it is is read as this value. -/
theorem read_write {v : Value} (h : v.IsDocument deepest) (hshort : v.hasLongInt = false) :
    read (write v ++ "\n") = .ok v := by
  have hbegins := (beginsValue_writeValue h.isPlain).append ['\n']
  have hread : readDocument (writeValue v ++ ['\n']) = .ok v := by
    unfold readDocument
    have hends : EndsNumber ['\n'] :=
      endsNumber_cons (by decide) (by decide) (by decide) (by decide)
    have hvalue := readValue_writeValue v h hshort hends
    have hskip := hbegins.skipSpace_eq
    obtain ⟨c, tail, htext, -, -, hmark⟩ := hbegins
    rw [htext] at hvalue hskip ⊢
    split
    · rename_i heq
      cases heq
      exact absurd rfl hmark
    · rw [hskip, hvalue]
      rfl
  rw [read, String.toList_append, write, String.toList_ofList]
  rw [show "\n".toList = ['\n'] from rfl, hread]

end Json
end AppReport
