import AppReport.Files.Content
import AppReport.Proofs.Numerals

/-!
# Plain lines

The text of a file is read with one kind of line end (`plainLines`). A reader of documents does the
same with a text and with its plain form (`Reading.Alike`): it finds the same, and it leaves the
plain form of what it leaves, or it breaks off in the same way, if at another place. So it is with
numbers and words, in which no line ends, and with texts, in which neither a carriage return nor a
line feed may stand (`Json.readScalar_plainLines`).
-/

namespace AppReport

variable {c : Char} {cs ds : List Char}

/-! ### Plain lines -/

/-- A character that ends no line. -/
def IsInner (c : Char) : Prop := c ≠ '\r' ∧ c ≠ '\n'

instance : DecidablePred IsInner := fun c => inferInstanceAs (Decidable (c ≠ '\r' ∧ c ≠ '\n'))

theorem plainLines_cons (hc : c ≠ '\r') (cs : List Char) :
    plainLines (c :: cs) = c :: plainLines cs := by
  rw [plainLines]
  · exact fun _ h _ => hc h
  · exact hc

/-- A carriage return becomes a line feed, alone or with the line feed after it. -/
theorem plainLines_return (cs : List Char) : ∃ rest, (cs = rest ∨ cs = '\n' :: rest) ∧
    plainLines ('\r' :: cs) = '\n' :: plainLines rest := by
  rcases cs with _ | ⟨c, cs⟩
  · exact ⟨[], Or.inl rfl, rfl⟩
  by_cases hc : c = '\n'
  · rw [hc]
    exact ⟨cs, Or.inr rfl, rfl⟩
  · refine ⟨c :: cs, Or.inl rfl, ?_⟩
    rw [plainLines]
    exact fun rest h => hc (List.cons.inj h).1

/-- A text begins with a line end, and so does its plain form, or it begins with a character that
stays. -/
theorem plainLines_cases (cs : List Char) : cs = [] ∨
    (∃ c rest, cs = c :: rest ∧ (c = '\r' ∨ c = '\n') ∧ ∃ ds, plainLines cs = '\n' :: ds) ∨
    ∃ c rest, cs = c :: rest ∧ IsInner c ∧ plainLines cs = c :: plainLines rest := by
  rcases cs with _ | ⟨c, cs⟩
  · exact Or.inl rfl
  by_cases hreturn : c = '\r'
  · obtain ⟨rest, -, hrest⟩ := plainLines_return cs
    rw [hreturn]
    exact Or.inr (Or.inl ⟨'\r', cs, rfl, Or.inl rfl, plainLines rest, hrest⟩)
  by_cases hfeed : c = '\n'
  · rw [hfeed]
    exact Or.inr (Or.inl ⟨'\n', cs, rfl, Or.inr rfl, plainLines cs, rfl⟩)
  · exact Or.inr (Or.inr ⟨c, cs, rfl, ⟨hreturn, hfeed⟩, plainLines_cons hreturn cs⟩)

/-- What begins with no line end in its plain form begins so itself. -/
theorem exists_of_plainLines_eq_cons (hc : c ≠ '\n') (h : plainLines cs = c :: ds) :
    ∃ rest, cs = c :: rest ∧ plainLines rest = ds := by
  rcases cs with _ | ⟨d, cs⟩
  · cases h
  by_cases hd : d = '\r'
  · obtain ⟨rest, -, hrest⟩ := plainLines_return cs
    rw [hd, hrest] at h
    exact absurd (List.cons.inj h).1.symm hc
  · rw [plainLines_cons hd] at h
    obtain ⟨rfl, rfl⟩ := List.cons.inj h
    exact ⟨cs, rfl, rfl⟩

theorem plainLines_ne_cons (hc : c ≠ '\n') (h : ∀ rest, cs ≠ c :: rest) (ds : List Char) :
    plainLines cs ≠ c :: ds := by
  intro hplain
  obtain ⟨rest, hrest, -⟩ := exists_of_plainLines_eq_cons hc hplain
  exact h rest hrest

/-- A word without line ends is its own plain form. -/
theorem plainLines_append {word : List Char} (hword : ∀ c ∈ word, IsInner c) (cs : List Char) :
    plainLines (word ++ cs) = word ++ plainLines cs := by
  induction word with
  | nil => rfl
  | cons c word ih =>
    obtain ⟨hc, hrest⟩ := List.forall_mem_cons.mp hword
    rw [List.cons_append, plainLines_cons hc.1, ih hrest, List.cons_append]

/-- What begins with a word without line ends in the plain form does so in the text. -/
theorem exists_of_plainLines_eq_append {word : List Char} (hword : ∀ c ∈ word, IsInner c)
    (h : plainLines cs = word ++ ds) : ∃ rest, cs = word ++ rest ∧ plainLines rest = ds := by
  induction word generalizing cs with
  | nil => exact ⟨cs, rfl, h⟩
  | cons c word ih =>
    obtain ⟨hc, hinner⟩ := List.forall_mem_cons.mp hword
    obtain ⟨tail, rfl, htail⟩ := exists_of_plainLines_eq_cons hc.2 h
    obtain ⟨rest, rfl, hrest⟩ := ih hinner htail
    exact ⟨rest, rfl, hrest⟩

/-- A word without line ends stands at the beginning of a text if it does in the plain form. -/
theorem prefix_plainLines_iff {word : List Char} (hword : ∀ c ∈ word, IsInner c) :
    word <+: plainLines cs ↔ word <+: cs := by
  constructor
  · rintro ⟨ds, hds⟩
    obtain ⟨rest, rfl, -⟩ := exists_of_plainLines_eq_append hword hds.symm
    exact List.prefix_append word rest
  · rintro ⟨rest, rfl⟩
    rw [plainLines_append hword]
    exact List.prefix_append word _

/-- Only the empty text has an empty plain form. -/
theorem plainLines_eq_nil_iff : plainLines cs = [] ↔ cs = [] := by
  constructor
  · intro h
    rcases cs with _ | ⟨c, cs⟩
    · rfl
    by_cases hc : c = '\r'
    · obtain ⟨rest, -, hrest⟩ := plainLines_return cs
      rw [hc, hrest] at h
      cases h
    · rw [plainLines_cons hc] at h
      cases h
  · rintro rfl
    rfl

theorem isEmpty_plainLines (cs : List Char) : (plainLines cs).isEmpty = cs.isEmpty := by
  rw [Bool.eq_iff_iff, List.isEmpty_iff, List.isEmpty_iff, plainLines_eq_nil_iff]

/-- A condition that holds of no line end is met by the same characters at the beginning. -/
theorem takeWhile_plainLines {p : Char → Bool} (hreturn : p '\r' = false) (hfeed : p '\n' = false)
    (cs : List Char) : (plainLines cs).takeWhile p = cs.takeWhile p := by
  induction cs with
  | nil => rfl
  | cons c cs ih =>
    by_cases hc : c = '\r'
    · obtain ⟨rest, -, hrest⟩ := plainLines_return cs
      rw [hc, hrest, List.takeWhile_cons_of_neg (by simp [hfeed]),
        List.takeWhile_cons_of_neg (by simp [hreturn])]
    · rw [plainLines_cons hc, List.takeWhile_cons, List.takeWhile_cons, ih]

/-- What follows the characters that meet a condition, if it holds of both line ends or of none. -/
theorem dropWhile_plainLines {p : Char → Bool} (hp : p '\r' = p '\n') (cs : List Char) :
    (plainLines cs).dropWhile p = plainLines (cs.dropWhile p) := by
  fun_induction plainLines cs with
  | case1 => rfl
  | case2 rest ih =>
    rw [List.dropWhile_cons, List.dropWhile_cons, List.dropWhile_cons, hp, ih]
    split
    · rfl
    · rw [plainLines]
  | case3 rest hrest ih =>
    rw [List.dropWhile_cons, List.dropWhile_cons, hp, ih]
    split
    · rfl
    · rw [plainLines]
      exact hrest
  | case4 c rest hc hne ih =>
    rw [List.dropWhile_cons, List.dropWhile_cons, ih]
    split
    · rfl
    · rw [plainLines_cons hne]

theorem length_plainLines_le_cons (c : Char) (cs : List Char) :
    (plainLines cs).length ≤ (plainLines (c :: cs)).length := by
  by_cases hc : c = '\r'
  · obtain ⟨rest, rfl | rfl, hrest⟩ := plainLines_return cs
    · rw [hc, hrest]
      exact Nat.le_succ _
    · rw [hc, hrest, plainLines_cons (by decide)]
  · rw [plainLines_cons hc]
    exact Nat.le_succ _

/-- The end of a text has no longer plain form than the text. -/
theorem length_plainLines_le_of_suffix (h : ds <:+ cs) :
    (plainLines ds).length ≤ (plainLines cs).length := by
  induction cs with
  | nil => rw [List.suffix_nil.mp h]
  | cons c cs ih =>
    rcases List.suffix_cons_iff.mp h with rfl | h
    · exact Nat.le_refl _
    · exact (ih h).trans (length_plainLines_le_cons c cs)

namespace Json

open Number Text

/-! ### Alike readings -/

/-- Two errors that are alike but for what is wrong and where. -/
inductive Break.Alike : Break → Break → Prop
  | malformed (problem problem' : Problem) (left left' : Nat) :
      Alike (.malformed problem left) (.malformed problem' left')
  | tooManyDigits (count : Nat) : Alike (.tooManyDigits count) (.tooManyDigits count)
  | tooDeep : Alike .tooDeep .tooDeep

/-- What a reader finds in a text and what it finds in the plain form of the text. -/
inductive Reading.Alike {α : Type} (cs : List Char) : Reading α → Reading α → Prop
  | ok (a : α) {rest : List Char} : rest <:+ cs →
      Alike cs (.ok (a, rest)) (.ok (a, plainLines rest))
  | error {e e' : Break} : e.Alike e' → Alike cs (.error e) (.error e')

section

variable {α : Type} {r r' : Reading α}

/-- What is left of the end of a text is left of the text. -/
theorem Reading.Alike.mono (h : Alike ds r r') (hsuffix : ds <:+ cs) : Alike cs r r' := by
  cases h with
  | ok a hrest => exact .ok a (hrest.trans hsuffix)
  | error he => exact .error he

/-- Readers that stop are alike, wherever and for whatever reason they do. -/
theorem Reading.alike_stop (cs : List Char) (problem problem' : Problem) (ds ds' : List Char) :
    Alike cs (stop problem ds : Reading α) (stop problem' ds') :=
  .error (.malformed problem problem' ds.length ds'.length)

end

theorem skipSpace_plainLines (cs : List Char) :
    skipSpace (plainLines cs) = plainLines (skipSpace cs) :=
  dropWhile_plainLines rfl cs

theorem skipSpace_suffix (cs : List Char) : skipSpace cs <:+ cs := List.dropWhile_suffix isSpace

/-! ### Numbers -/

theorem takeWhile_isDigit_plainLines (cs : List Char) :
    (plainLines cs).takeWhile Char.isDigit = cs.takeWhile Char.isDigit :=
  takeWhile_plainLines rfl rfl cs

theorem dropWhile_isDigit_plainLines (cs : List Char) :
    (plainLines cs).dropWhile Char.isDigit = plainLines (cs.dropWhile Char.isDigit) :=
  dropWhile_plainLines rfl cs

/-- A part that is read off a text, with the plain form of what follows it. -/
def plainRest {α : Type} (part : α × List Char) : α × List Char := (part.1, plainLines part.2)

/-- The whole part of a number, which a line end ends. -/
theorem wholePart_plainLines (cs : List Char) :
    wholePart (plainLines cs) = (wholePart cs).map plainRest := by
  rcases plainLines_cases cs with rfl | ⟨c, rest, rfl, hc, ds, hplain⟩ | ⟨c, rest, rfl, hc, hplain⟩
  · rfl
  · rw [hplain]
    rcases hc with rfl | rfl <;> rfl
  · by_cases hzero : c = '0'
    · rw [hplain, hzero]
      rfl
    · have hwhole : ∀ tail, wholePart (c :: tail) =
          if c.isDigit then some ((c :: tail).takeWhile Char.isDigit,
            (c :: tail).dropWhile Char.isDigit) else none := by
        intro tail
        rw [wholePart]
        exact hzero
      rw [hplain, hwhole, hwhole, ← hplain, takeWhile_isDigit_plainLines,
        dropWhile_isDigit_plainLines]
      split <;> rfl

theorem wholePart_suffix {part : List Char × List Char} (h : wholePart cs = some part) :
    part.2 <:+ cs := by
  unfold wholePart at h
  split at h
  · cases h
    exact List.suffix_cons _ _
  · split at h
    · cases h
      exact List.dropWhile_suffix _
    · cases h
  · cases h

/-- The places of a number, which a line end ends. -/
theorem fraction_plainLines (cs : List Char) :
    fraction (plainLines cs) = (fraction cs).map plainRest := by
  rcases plainLines_cases cs with rfl | ⟨c, rest, rfl, hc, ds, hplain⟩ | ⟨c, rest, rfl, hc, hplain⟩
  · rfl
  · rw [hplain]
    rcases hc with rfl | rfl <;> rfl
  · by_cases hpoint : c = '.'
    · rw [hplain, hpoint, fraction, fraction, takeWhile_isDigit_plainLines,
        dropWhile_isDigit_plainLines]
      split <;> rfl
    · rw [hplain, fraction_eq_none (by simpa using hpoint),
        fraction_eq_none (by simpa using hpoint)]
      rfl

theorem fraction_suffix {part : List Char × List Char} (h : fraction cs = some part) :
    part.2 <:+ cs := by
  unfold fraction at h
  split at h
  · dsimp only at h
    split at h
    · cases h
    · cases h
      exact (List.dropWhile_suffix _).trans (List.suffix_cons _ _)
  · cases h

theorem readSign_cons (hminus : c ≠ '-') (hplus : c ≠ '+') (cs : List Char) :
    readSign (c :: cs) = (false, c :: cs) := by
  rw [readSign]
  · exact fun _ h => hminus (List.cons.inj h).1
  · exact fun _ h => hplus (List.cons.inj h).1

/-- A line end is no sign. -/
theorem readSign_plainLines (cs : List Char) :
    readSign (plainLines cs) = plainRest (readSign cs) := by
  rcases plainLines_cases cs with rfl | ⟨c, rest, rfl, hc, ds, hplain⟩ | ⟨c, rest, rfl, hc, hplain⟩
  · rfl
  · have hsign : readSign (c :: rest) = (false, c :: rest) := by
      rcases hc with rfl | rfl <;> exact readSign_cons (by decide) (by decide) rest
    rw [hsign, plainRest, hplain, readSign_cons (by decide) (by decide)]
  · by_cases hminus : c = '-'
    · rw [hplain, hminus]
      rfl
    by_cases hplus : c = '+'
    · rw [hplain, hplus]
      rfl
    · rw [readSign_cons hminus hplus, plainRest, hplain, readSign_cons hminus hplus]

theorem readSign_suffix (cs : List Char) : (readSign cs).2 <:+ cs := by
  unfold readSign
  split
  · exact List.suffix_cons _ _
  · exact List.suffix_cons _ _
  · exact List.suffix_refl _

/-- The exponent of a number, which a line end ends. -/
theorem readExponent?_plainLines (cs : List Char) :
    readExponent? (plainLines cs) = (readExponent? cs).map plainRest := by
  rcases plainLines_cases cs with rfl | ⟨c, rest, rfl, hc, ds, hplain⟩ | ⟨c, rest, rfl, hc, hplain⟩
  · rfl
  · rw [hplain]
    rcases hc with rfl | rfl <;> rfl
  · rw [hplain, readExponent?, readExponent?, readSign_plainLines]
    split
    · rw [plainRest]
      dsimp only
      rw [takeWhile_isDigit_plainLines, dropWhile_isDigit_plainLines]
      split <;> rfl
    · rfl

theorem readExponent?_suffix {part : ℤ × List Char} (h : readExponent? cs = some part) :
    part.2 <:+ cs := by
  unfold readExponent? at h
  split at h
  · split at h
    · dsimp only at h
      split at h
      · cases h
      · cases h
        exact ((List.dropWhile_suffix _).trans (readSign_suffix _)).trans (List.suffix_cons _ _)
    · cases h
  · cases h

/-- Readers that may find nothing to read. -/
abbrev AlikeIfAny (cs : List Char) : Option (Reading Value) → Option (Reading Value) → Prop :=
  Option.Rel (Reading.Alike cs)

theorem AlikeIfAny.mono {r r' : Option (Reading Value)} (h : AlikeIfAny ds r r')
    (hsuffix : ds <:+ cs) : AlikeIfAny cs r r' := by
  cases h with
  | none => exact .none
  | some h => exact .some (h.mono hsuffix)

/-- A number is read off the plain form as off the text, or neither begins with one. -/
theorem unsignedNumber_plainLines (negative : Bool) (cs : List Char) :
    AlikeIfAny cs (unsignedNumber negative cs) (unsignedNumber negative (plainLines cs)) := by
  have hwholes := wholePart_plainLines cs
  unfold unsignedNumber
  rcases hwhole : wholePart cs with _ | ⟨whole, rest⟩
  · rw [hwholes, hwhole]
    exact .none
  have hrest : rest <:+ cs := wholePart_suffix hwhole
  have hfractions := fraction_plainLines rest
  rw [hwholes, hwhole, Option.map_some, plainRest]
  dsimp only
  -- the three parts in their order; what is left of each is the end of what was left before
  rcases hfraction : fraction rest with _ | ⟨places, after⟩
  · rw [hfractions, hfraction, Option.map_none]
    dsimp only
    rw [readExponent?_plainLines]
    rcases hexponent : readExponent? rest with _ | ⟨e, tail⟩
    · rw [Option.map_none]
      dsimp only
      split_ifs
      · exact .some (.ok _ hrest)
      · exact .some (.error (.tooManyDigits _))
      all_goals exact .some (.ok _ hrest)
    · exact .some (.ok _ ((readExponent?_suffix hexponent).trans hrest))
  · have hafter : after <:+ cs := (fraction_suffix hfraction).trans hrest
    rw [hfractions, hfraction, Option.map_some, plainRest]
    dsimp only
    rw [readExponent?_plainLines]
    rcases hexponent : readExponent? after with _ | ⟨e, tail⟩
    · rw [Option.map_none]
      dsimp only
      split_ifs
      · exact .some (.ok _ hafter)
      · exact .some (.error (.tooManyDigits _))
      all_goals exact .some (.ok _ hrest)
    · exact .some (.ok _ ((readExponent?_suffix hexponent).trans hafter))

theorem number_eq_of_ne {cs : List Char} (h : ∀ rest, cs ≠ '-' :: rest) :
    number cs = unsignedNumber false cs := by
  rw [number]
  exact fun rest heq => h rest heq

/-- A number with or without a sign is read off the plain form as off the text. -/
theorem number_plainLines (cs : List Char) :
    AlikeIfAny cs (number cs) (number (plainLines cs)) := by
  by_cases hminus : ∃ rest, cs = '-' :: rest
  · obtain ⟨rest, rfl⟩ := hminus
    rw [plainLines_cons (by decide)]
    exact (unsignedNumber_plainLines true rest).mono (List.suffix_cons _ _)
  · have hother := not_exists.mp hminus
    rw [number_eq_of_ne hother, number_eq_of_ne (plainLines_ne_cons (by decide) hother)]
    exact unsignedNumber_plainLines false cs

/-! ### Texts -/

theorem Reading.Alike.cons {r r' : Reading (List Char)} (h : Alike cs r r') (c : Char) :
    Alike cs (r.cons c) (r'.cons c) := by
  cases h with
  | ok a hrest => exact .ok (c :: a) hrest
  | error he => exact .error he

theorem Reading.Alike.flush {r r' : Reading (List Char)} (h : Alike cs r r') (half : Option ℕ) :
    Alike cs (.flush half r) (.flush half r') := by
  cases half with
  | none => exact h
  | some _ => exact h.cons replacement

/-- A digit of the number of a character is no line end. -/
theorem isInner_of_hexValue {n : ℕ} (h : hexValue c = some n) : IsInner c := by
  constructor
  · rintro rfl
    cases h
  · rintro rfl
    cases h

/-- The characters that write a number are no line ends. -/
theorem isInner_of_hexValue4 {a b c d : Char} {n : ℕ} (h : hexValue4 a b c d = some n) :
    ∀ x ∈ [a, b, c, d], IsInner x := by
  simp only [hexValue4, Option.bind_eq_bind, Option.bind_eq_some_iff] at h
  obtain ⟨_, ha, _, hb, _, hc, _, hd, -⟩ := h
  simp only [List.forall_mem_cons]
  exact ⟨isInner_of_hexValue ha, isInner_of_hexValue hb, isInner_of_hexValue hc,
    isInner_of_hexValue hd, nofun⟩

/-- What follows an escape that begins as one by the number of a character does, but is none: four
digits with more to follow do not stand there. -/
def NoNumber (cs : List Char) : Prop :=
  ∀ a b c d rest, cs = a :: b :: c :: d :: rest → rest ≠ [] → hexValue4 a b c d = none

/-- The plain form puts no number where there is none. -/
theorem NoNumber.plainLines (h : NoNumber cs) : NoNumber (plainLines cs) := by
  intro a b c d ds hplain hne
  rw [← Option.not_isSome_iff_eq_none]
  intro hsome
  -- digits are no line ends, so that a number of the plain form would stand in the text
  obtain ⟨n, hn⟩ := Option.isSome_iff_exists.mp hsome
  obtain ⟨rest, rfl, rfl⟩ := exists_of_plainLines_eq_append (isInner_of_hexValue4 hn) hplain
  rw [h a b c d rest rfl fun hempty => hne (plainLines_eq_nil_iff.mpr hempty)] at hn
  cases hn

section

variable (start : ℕ) (half : Option ℕ)

/-- An escape that begins as one by a number but is none cannot be read. -/
theorem readText_of_noNumber (h : NoNumber cs) : ∃ left,
    readText start half ('\\' :: 'u' :: cs) = .error (.malformed .badUnicodeEscape left) := by
  by_cases hfour : ∃ a b c d rest, cs = a :: b :: c :: d :: rest
  · obtain ⟨a, b, c, d, rest, rfl⟩ := hfour
    rw [readText]
    split
    · rename_i hnumber hrest
      rw [h a b c d rest rfl (by simpa using hrest)] at hnumber
      cases hnumber
    · exact ⟨_, rfl⟩
  · rw [readText]
    · exact ⟨_, rfl⟩
    · exact fun a b c d rest hcs => hfour ⟨a, b, c, d, rest, hcs⟩

section

variable {a b c d : Char} {n : ℕ} (hnumber : hexValue4 a b c d = some n)
  (hempty : cs.isEmpty = false)

include hnumber hempty

/-- An escape by the number of the first half of a pair. -/
theorem readText_highHalf (hhigh : isHighHalf n = true) :
    readText start half ('\\' :: 'u' :: a :: b :: c :: d :: cs) =
      .flush half (readText start (some n) cs) := by
  rw [readText, hnumber, hempty]
  exact if_pos hhigh

/-- An escape by the number of the second half of a pair, after the first one. -/
theorem readText_lowHalf {high : ℕ} (hhigh : ¬ isHighHalf n = true) (hlow : isLowHalf n = true) :
    readText start (some high) ('\\' :: 'u' :: a :: b :: c :: d :: cs) =
      .cons (joinHalves high n) (readText start none cs) := by
  rw [readText, hnumber, hempty]
  refine (if_neg hhigh).trans ?_
  rw [hlow]

/-- An escape by any other number. -/
theorem readText_number (hhigh : ¬ isHighHalf n = true)
    (hpair : ∀ high, half = some high → isLowHalf n = true → False) :
    readText start half ('\\' :: 'u' :: a :: b :: c :: d :: cs) =
      .flush half (.cons (charOfNumber n) (readText start none cs)) := by
  rw [readText, hnumber, hempty]
  refine (if_neg hhigh).trans ?_
  split
  · rename_i high hlow
    exact absurd hlow (hpair high rfl)
  · rfl

end

/-- An escape by a letter. -/
theorem readText_letter {letter : Char} (hletter : letter ≠ 'u')
    (hescape : shortEscape letter = some c) (cs : List Char) :
    readText start half ('\\' :: letter :: cs) =
      .flush half (.cons c (readText start none cs)) := by
  rw [readText, hescape]
  · exact fun _ _ _ _ _ h => absurd h hletter
  · exact hletter

/-- A letter that is no escape. -/
theorem readText_badLetter {letter : Char} (hletter : letter ≠ 'u')
    (hescape : shortEscape letter = none) (cs : List Char) :
    readText start half ('\\' :: letter :: cs) =
      .error (.malformed .badEscape (cs.length + 2)) := by
  rw [readText, hescape]
  · exact fun _ _ _ _ _ h => absurd h hletter
  · exact hletter

/-- A character that stands for itself, or that may not stand in a text. -/
theorem readText_itself (hquote : c ≠ '"') (hbackslash : c ≠ '\\') (cs : List Char) :
    readText start half (c :: cs) =
      if c < ' ' then .error (.malformed .controlCharacter (cs.length + 1))
      else .flush half (.cons c (readText start none cs)) := by
  rw [readText]
  · exact hquote
  · exact fun h => absurd h hbackslash
  · exact fun _ _ _ _ _ h => absurd h hbackslash
  · exact fun _ h => absurd h hbackslash
  · exact fun _ _ h => absurd h hbackslash

end

/-- An escape by a number is its own plain form. -/
theorem plainLines_number {a b c d : Char} {n : ℕ} (h : hexValue4 a b c d = some n)
    (cs : List Char) : plainLines ('\\' :: 'u' :: a :: b :: c :: d :: cs) =
      '\\' :: 'u' :: a :: b :: c :: d :: plainLines cs := by
  rw [plainLines_cons (by decide), plainLines_cons (by decide)]
  exact congrArg _ (congrArg _ (plainLines_append (isInner_of_hexValue4 h) cs))

theorem isInner_of_shortEscape {letter : Char} (h : shortEscape letter = some c) :
    IsInner letter := by
  constructor
  · rintro rfl
    cases h
  · rintro rfl
    cases h

/-- Neither kind of line end may stand in a text, alone or after a backslash. -/
theorem readText_plainLines (start start' : ℕ) (half : Option ℕ) (cs : List Char) :
    Reading.Alike cs (readText start half cs) (readText start' half (plainLines cs)) := by
  fun_induction readText start half cs with
  | case1 half => exact .error (.malformed _ _ _ _)
  | case2 half rest =>
    rw [plainLines_cons (by decide), readText]
    exact (Reading.Alike.ok [] (List.suffix_cons _ _)).flush half
  | case3 half => exact .error (.malformed _ _ _ _)
  | case4 half a b c d rest n hempty hnumber hhigh ih =>
    rw [← isEmpty_plainLines] at hempty
    rw [plainLines_number hnumber, readText_highHalf start' half hnumber hempty hhigh]
    exact (ih.mono ⟨['\\', 'u', a, b, c, d], rfl⟩).flush half
  | case5 a b c d rest n hempty hnumber hhigh high hlow ih =>
    rw [← isEmpty_plainLines] at hempty
    rw [plainLines_number hnumber, readText_lowHalf start' hnumber hempty hhigh hlow]
    exact (ih.mono ⟨['\\', 'u', a, b, c, d], rfl⟩).cons _
  | case6 half a b c d rest n hempty hnumber hhigh hpair ih =>
    rw [← isEmpty_plainLines] at hempty
    rw [plainLines_number hnumber, readText_number start' half hnumber hempty hhigh hpair]
    exact ((ih.mono ⟨['\\', 'u', a, b, c, d], rfl⟩).cons _).flush half
  | case7 half a b c d rest hnone =>
    have hno : NoNumber (a :: b :: c :: d :: rest) := by
      intro a' b' c' d' rest' heq hne
      cases heq
      rw [Option.eq_none_iff_forall_ne_some]
      exact fun n hn => hnone n hn (by simpa using hne)
    obtain ⟨left, hleft⟩ := readText_of_noNumber start' half hno.plainLines
    rw [plainLines_cons (by decide), plainLines_cons (by decide), hleft]
    exact .error (.malformed _ _ _ _)
  | case8 half rest hfew =>
    have hno : NoNumber rest := fun a b c d tail h _ => absurd h (hfew a b c d tail)
    obtain ⟨left, hleft⟩ := readText_of_noNumber start' half hno.plainLines
    rw [plainLines_cons (by decide), plainLines_cons (by decide), hleft]
    exact .error (.malformed _ _ _ _)
  | case9 half letter rest _ hletter c hescape ih =>
    have hinner := isInner_of_shortEscape hescape
    rw [plainLines_cons (by decide), plainLines_cons hinner.1,
      readText_letter start' half hletter hescape]
    exact ((ih.mono ⟨['\\', letter], rfl⟩).cons c).flush half
  | case10 half letter rest _ hletter hescape =>
    rw [plainLines_cons (by decide)]
    -- a line end after the backslash is no escape in either form, though another one
    rcases plainLines_cases (letter :: rest) with h | ⟨c, tail, heq, -, ds, hplain⟩ |
      ⟨c, tail, heq, hc, hplain⟩
    · cases h
    · rw [hplain, readText_badLetter start' half (by decide) rfl]
      exact .error (.malformed _ _ _ _)
    · cases heq
      rw [hplain, readText_badLetter start' half hletter hescape]
      exact .error (.malformed _ _ _ _)
  | case11 half c rest hquote _ _ _ _ hcontrol =>
    have hbackslash : c ≠ '\\' := by
      rintro rfl
      exact absurd hcontrol (by decide)
    rcases plainLines_cases (c :: rest) with h | ⟨_, _, heq, -, ds, hplain⟩ |
      ⟨d, tail, heq, -, hplain⟩
    · cases h
    · rw [hplain, readText_itself start' half (by decide) (by decide), if_pos (by decide)]
      exact .error (.malformed _ _ _ _)
    · cases heq
      rw [hplain, readText_itself start' half hquote hbackslash, if_pos hcontrol]
      exact .error (.malformed _ _ _ _)
  | case12 half c rest hquote hend _ _ hother hcontrol ih =>
    have hbackslash : c ≠ '\\' := by
      rintro rfl
      cases rest with
      | nil => exact hend rfl rfl
      | cons d rest => exact hother d rest rfl rfl
    have hreturn : c ≠ '\r' := by
      rintro rfl
      exact hcontrol (by decide)
    rw [plainLines_cons hreturn, readText_itself start' half hquote hbackslash, if_neg hcontrol]
    exact ((ih.mono (List.suffix_cons _ _)).cons c).flush half

/-! ### Values -/

/-- Goes on after what a reader finds. -/
def Reading.andThen {α β : Type} (r : Reading α) (f : α → List Char → Reading β) : Reading β :=
  match r with
  | .error e => .error e
  | .ok (a, rest) => f a rest

/-- Readings that go on alike are alike. -/
theorem Reading.Alike.andThen {α β : Type} {r r' : Reading α} {f f' : α → List Char → Reading β}
    (h : Alike ds r r')
    (hf : ∀ a rest, rest <:+ ds → Alike cs (f a rest) (f' a (plainLines rest))) :
    Alike cs (r.andThen f) (r'.andThen f') := by
  cases h with
  | ok a hrest => exact hf a _ hrest
  | error he => exact .error he

/-- The words that are values of their own. -/
def wordValues : List (List Char × Value) :=
  [(['n', 'u', 'l', 'l'], .null), (['t', 'r', 'u', 'e'], .bool true),
    (['f', 'a', 'l', 's', 'e'], .bool false), (['N', 'a', 'N'], .float .nan),
    (['I', 'n', 'f', 'i', 'n', 'i', 't', 'y'], .float (.infinite false)),
    (['-', 'I', 'n', 'f', 'i', 'n', 'i', 't', 'y'], .float (.infinite true))]

theorem isInner_of_mem_wordValues : ∀ entry ∈ wordValues, ∀ c ∈ entry.1, IsInner c := by
  simp [wordValues, IsInner]

/-- Each word is read as its value. -/
theorem readScalar_word {word : List Char} {v : Value} (h : (word, v) ∈ wordValues)
    (cs : List Char) : readScalar (word ++ cs) = .ok (v, cs) := by
  simp only [wordValues, List.mem_cons, Prod.mk.injEq, List.not_mem_nil, or_false] at h
  rcases h with ⟨rfl, rfl⟩ | ⟨rfl, rfl⟩ | ⟨rfl, rfl⟩ | ⟨rfl, rfl⟩ | ⟨rfl, rfl⟩ | ⟨rfl, rfl⟩ <;> rfl

/-- What begins neither as a text nor with a word can only be a number. -/
theorem readScalar_eq_number (hquote : ∀ rest, cs ≠ '"' :: rest)
    (hword : ∀ entry ∈ wordValues, ¬ entry.1 <+: cs) :
    readScalar cs = (number cs).getD (stop .expectedValue cs) := by
  simp only [wordValues, List.forall_mem_cons] at hword
  obtain ⟨hnull, htrue, hfalse, hnan, hinfinity, hnegative, -⟩ := hword
  unfold readScalar
  split
  · exact absurd rfl (hquote _)
  · exact absurd (List.prefix_append ['n', 'u', 'l', 'l'] _) hnull
  · exact absurd (List.prefix_append ['t', 'r', 'u', 'e'] _) htrue
  · exact absurd (List.prefix_append ['f', 'a', 'l', 's', 'e'] _) hfalse
  · exact absurd (List.prefix_append ['N', 'a', 'N'] _) hnan
  · exact absurd (List.prefix_append ['I', 'n', 'f', 'i', 'n', 'i', 't', 'y'] _) hinfinity
  · exact absurd (List.prefix_append ['-', 'I', 'n', 'f', 'i', 'n', 'i', 't', 'y'] _) hnegative
  · rfl

theorem readScalar_quote (cs : List Char) :
    readScalar ('"' :: cs) = (readText ('"' :: cs).length none cs).andThen
      fun s rest => .ok (.text (String.ofList s), rest) := by
  rw [readScalar]
  rcases readText ('"' :: cs).length none cs with e | ⟨s, rest⟩ <;> rfl

/-- A value without parts is read off the plain form as off the text. -/
theorem readScalar_plainLines (cs : List Char) :
    Reading.Alike cs (readScalar cs) (readScalar (plainLines cs)) := by
  -- what a value begins with decides, and neither a quote nor a word has a line end in it
  by_cases hquote : ∃ rest, cs = '"' :: rest
  · obtain ⟨rest, rfl⟩ := hquote
    rw [plainLines_cons (by decide), readScalar_quote, readScalar_quote]
    refine (readText_plainLines _ _ none rest).andThen fun s after hafter => ?_
    exact .ok _ (hafter.trans (List.suffix_cons _ _))
  by_cases hword : ∃ entry ∈ wordValues, entry.1 <+: cs
  · obtain ⟨⟨word, v⟩, hmem, rest, rfl⟩ := hword
    rw [plainLines_append (isInner_of_mem_wordValues _ hmem), readScalar_word hmem,
      readScalar_word hmem]
    exact .ok v (List.suffix_append _ _)
  · have hquote := not_exists.mp hquote
    have hword' : ∀ entry ∈ wordValues, ¬ entry.1 <+: plainLines cs := by
      intro entry hmem h
      exact hword ⟨entry, hmem, (prefix_plainLines_iff (isInner_of_mem_wordValues _ hmem)).mp h⟩
    rw [readScalar_eq_number hquote fun entry hmem h => hword ⟨entry, hmem, h⟩,
      readScalar_eq_number (plainLines_ne_cons (by decide) hquote) hword']
    have hnumber := number_plainLines cs
    revert hnumber
    rcases number cs with _ | r <;> rcases number (plainLines cs) with _ | r' <;> intro hnumber <;>
      cases hnumber
    · exact Reading.alike_stop _ _ _ _ _
    · assumption

end Json

end AppReport
