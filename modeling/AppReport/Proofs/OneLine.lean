import AppReport.Proofs.Roundtrip
import AppReport.Text.Pieces

/-!
# The report for programs is one line

No character below U+0020 is written of any value, whatever characters its texts and its keys have
(`Json.showable_writeValue`): a text is written between quotes with an escape for each of them, and
all else that is written is digits, words and marks. So the one line feed of a report is the one
that ends it (`Report.document_one_line`), and whoever reads reports line by line has each of them
in one piece.
-/

namespace AppReport

open Number Text

namespace Json

/-- A text without a character below U+0020. -/
def Showable (cs : List Char) : Prop := ∀ c ∈ cs, ' ' ≤ c

instance (cs : List Char) : Decidable (Showable cs) := List.decidableBAll (' ' ≤ ·) cs

@[simp]
theorem showable_nil : Showable [] := List.forall_mem_nil _

/-- A text is showable if its first character and the rest of it are. -/
@[simp]
theorem showable_cons_iff {c : Char} {cs : List Char} :
    Showable (c :: cs) ↔ ' ' ≤ c ∧ Showable cs := List.forall_mem_cons

@[simp]
theorem showable_append_iff {cs ds : List Char} :
    Showable (cs ++ ds) ↔ Showable cs ∧ Showable ds := List.forall_mem_append

/-- Showable text between two characters that are. -/
theorem Showable.between {first last : Char} {cs : List Char} (h : Showable cs)
    (hfirst : ' ' ≤ first) (hlast : ' ' ≤ last) : Showable (first :: (cs ++ [last])) := by
  simp only [showable_cons_iff, showable_append_iff]
  exact ⟨hfirst, h, hlast, showable_nil⟩

/-! ### Numbers -/

/-- Digits are showable. -/
theorem AllDigits.showable {cs : List Char} (h : AllDigits cs) : Showable cs := by
  intro c hc
  have hdigit := h c hc
  rw [Char.isDigit, Bool.and_eq_true, decide_eq_true_eq] at hdigit
  exact UInt32.le_trans (by decide) hdigit.1

theorem IsWhole.showable {cs : List Char} (h : IsWhole cs) : Showable cs := by
  obtain rfl | ⟨-, -, hdigits⟩ := h
  · exact AllDigits.showable (allDigits_replicate 1)
  · exact hdigits.showable

theorem showable_signed {negative : Bool} {cs : List Char} (h : Showable cs) :
    Showable (signed negative cs) := by
  cases negative with
  | true => exact showable_cons_iff.mpr ⟨by decide, h⟩
  | false => exact h

/-- An exponent is written with digits and a sign. -/
theorem showable_exponentText (e : ℤ) : Showable (exponentText e) := by
  have hdigits : Showable (digits e.natAbs) := (allDigits_digits _).showable
  simp only [exponentText, showable_cons_iff]
  refine ⟨by decide, ?_, ?_⟩
  · split <;> decide
  · split
    · exact showable_cons_iff.mpr ⟨by decide, hdigits⟩
    · exact hdigits

theorem Numeral.showable_text (n : Numeral) : Showable n.text := by
  have hpoint : Showable n.pointText := by
    rw [pointText]
    split
    · exact showable_nil
    · exact showable_cons_iff.mpr ⟨by decide, n.allDigits.showable⟩
  have hpower : Showable n.powerText := by
    rw [powerText]
    cases n.power with
    | none => exact showable_nil
    | some e => exact showable_exponentText e
  simp only [text, showable_append_iff]
  exact ⟨n.isWhole.showable, hpoint, hpower⟩

/-- Each number is showable, and so are the names of what is none. -/
theorem showable_writeFloat (x : Binary64) : Showable (writeFloat x) := by
  cases x with
  | finite negative m e hcanonical =>
    obtain ⟨n, htext, -⟩ := exists_numeral_of_text (shortest m e)
    show Showable (signed negative ((shortest m e).text .plain))
    rw [htext]
    exact showable_signed n.showable_text
  | infinite negative =>
    have hword : Showable "Infinity".toList := by decide
    exact showable_signed hword
  | nan => exact (by decide : Showable "NaN".toList)

/-- An integer is written with digits and a sign. -/
theorem showable_intText (n : ℤ) : Showable (intText n) := by
  have hdigits : Showable (digits n.natAbs) := (allDigits_digits _).showable
  rw [intText]
  split
  · exact showable_cons_iff.mpr ⟨by decide, hdigits⟩
  · exact hdigits

/-! ### Texts -/

/-- The digits of an escape are showable. -/
theorem showable_hexDigits (width n : ℕ) : Showable (hexDigits width n) := by
  have hdigit : ∀ d < 16, ' ' ≤ hexDigit d := by decide
  induction width generalizing n with
  | zero => exact showable_nil
  | succ width ih =>
    have hlast : ' ' ≤ hexDigit (n % 16) := hdigit _ (Nat.mod_lt _ (by decide))
    simp only [hexDigits, showable_append_iff, showable_cons_iff]
    exact ⟨ih (n / 16), hlast, showable_nil⟩

/-- No character is written with one below U+0020: each of these has an escape. -/
theorem showable_writeChar (c : Char) : Showable (writeChar c) := by
  unfold writeChar
  split_ifs with hquote hbackslash hfeed hreturn htab hpage hback hcontrol
  · decide
  · decide
  · decide
  · decide
  · decide
  · decide
  · decide
  · simp only [showable_cons_iff]
    exact ⟨by decide, by decide, showable_hexDigits 4 c.toNat⟩
  · -- all characters that are written as themselves are at least a blank
    exact showable_cons_iff.mpr ⟨Char.not_lt.mp hcontrol, showable_nil⟩

/-- A quoted text is showable: what is not is escaped. -/
theorem showable_writeText (cs : List Char) : Showable (writeText cs) := by
  have hchars : Showable (cs.flatMap writeChar) := by
    intro c hc
    obtain ⟨a, -, ha⟩ := List.mem_flatMap.mp hc
    exact showable_writeChar a c ha
  exact hchars.between (by decide) (by decide)

/-! ### Values -/

/-- Items are showable with commas between them. -/
theorem showable_writeItems {items : List Value} (h : ∀ v ∈ items, Showable (writeValue v)) :
    Showable (writeItems items) := by
  induction items with
  | nil => exact showable_nil
  | cons v items ih =>
    obtain ⟨hv, hitems⟩ := List.forall_mem_cons.mp h
    cases items with
    | nil => exact hv
    | cons w items =>
      simp only [writeItems_cons_cons, showable_append_iff, showable_cons_iff]
      exact ⟨hv, by decide, by decide, ih hitems⟩

/-- Fields are showable with their quoted keys. -/
theorem showable_writeFields {fields : Fields}
    (h : ∀ field ∈ fields, Showable (writeValue field.2)) : Showable (writeFields fields) := by
  induction fields with
  | nil => exact showable_nil
  | cons field fields ih =>
    obtain ⟨key, v⟩ := field
    obtain ⟨hv, hfields⟩ := List.forall_mem_cons.mp h
    have hpair : Showable (writeText key.toList ++ ':' :: ' ' :: writeValue v) := by
      simp only [showable_append_iff, showable_cons_iff]
      exact ⟨showable_writeText _, by decide, by decide, hv⟩
    cases fields with
    | nil => exact hpair
    | cons next fields =>
      rw [writeFields_cons_cons, showable_append_iff, showable_cons_iff, showable_cons_iff]
      exact ⟨hpair, by decide, by decide, ih hfields⟩

/-- No character below U+0020 is written of a value. -/
theorem showable_writeValue (v : Value) : Showable (writeValue v) := by
  induction v using Value.induction with
  | null => exact (by decide : Showable "null".toList)
  | bool b => cases b <;> decide
  | int n => exact showable_intText n
  | float x => exact showable_writeFloat x
  | text s => exact showable_writeText s.toList
  | bytes b => exact showable_writeText (decodeLossy b)
  | list items ih => exact (showable_writeItems ih).between (by decide) (by decide)
  | object fields ih => exact (showable_writeFields ih).between (by decide) (by decide)

end Json

namespace Report

/-- The report for programs is a line without a character below U+0020, and the line feed that ends
it. The line is the first piece of whatever the report is the beginning of. -/
theorem document_one_line {d : Description} {t : String} (h : document d = .ok t) :
    t.toList.count '\n' = 1 ∧ ∃ line, t.toList = line ++ ['\n'] ∧ (∀ c ∈ line, ' ' ≤ c) ∧
      ∀ more, splitOn '\n' (t.toList ++ more) = line :: splitOn '\n' more := by
  obtain ⟨d', -, -, rfl⟩ := document_eq_ok_iff.mp h
  have hshowable : Json.Showable (Json.writeValue d'.value) := Json.showable_writeValue _
  have hfeed : '\n' ∉ Json.writeValue d'.value := fun hmem =>
    absurd (hshowable '\n' hmem) (by decide)
  have ht : (Json.write d'.value ++ "\n").toList = Json.writeValue d'.value ++ ['\n'] := by
    rw [String.toList_append, Json.write, String.toList_ofList]
    rfl
  rw [ht]
  refine ⟨?_, _, rfl, hshowable, fun more => ?_⟩
  · rw [List.count_append, List.count_eq_zero_of_not_mem hfeed]
    rfl
  · rw [List.append_assoc]
    exact splitOn_append_mark hfeed more

/-- A description with control characters in a name, in a key and in a text of untyped data. -/
def unruly : Description where
  name := "shop\n\x00"
  uri := "a\x1fb"
  environments := []
  services := [⟨"web\r\n", "\t"⟩]
  pipelines := [{
    name := "deploy"
    region := ""
    accountId := "1"
    stages := [[("note\n", .list [.text "\x01\n", .bytes [0x0a, 0x0d]])]]
    createdAt := none
    updatedAt := some "\x0b"
    extras := [("", .float (.infinite true)), ("\n", .object [("\x7f\x0c", .null)])] }]

theorem document_one_line_unruly : ∃ t, document unruly = .ok t ∧ t.toList.count '\n' = 1 ∧
    ∃ line, t.toList = line ++ ['\n'] ∧ (∀ c ∈ line, ' ' ≤ c) ∧
      ∀ more, splitOn '\n' (t.toList ++ more) = line :: splitOn '\n' more := by
  have hdocument : ∃ t, document unruly = .ok t := ⟨_, rfl⟩
  obtain ⟨t, ht⟩ := hdocument
  exact ⟨t, ht, document_one_line ht⟩

end Report

end AppReport
