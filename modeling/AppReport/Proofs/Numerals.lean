import AppReport.Json.Reader
import AppReport.Proofs.Rounding

/-!
# Numbers read back

A numeral is digits, a point with more digits, and a power of ten (`Json.Numeral`). The reader
rounds a numeral to the floating-point number nearest to its value (`Json.unsignedNumber_numeral`),
and the text of a decimal is a numeral of the same value (`Json.exists_numeral_of_text`). So a
finite number is read from its own text (`Json.readValue_float`), and so is an integer that is not
too long (`Json.readValue_int`).
-/

namespace AppReport.Json

open Number

/-! ### The parts of a numeral -/

/-- Decimal digits and nothing else. -/
def AllDigits (cs : List Char) : Prop := ∀ c ∈ cs, c.isDigit = true

/-- The digits before a point: a zero alone, or digits of which the first is not zero. -/
def IsWhole (cs : List Char) : Prop := cs = ['0'] ∨ cs ≠ [] ∧ cs.head? ≠ some '0' ∧ AllDigits cs

/-- Digits end in front of what does not begin with one. -/
def EndsDigits (rest : List Char) : Prop := ∀ c ∈ rest.head?, c.isDigit = false

/-- A number ends in front of what begins neither with a digit nor with a point or the mark of a
power of ten. -/
def EndsNumber (rest : List Char) : Prop :=
  ∀ c ∈ rest.head?, c.isDigit = false ∧ c ≠ '.' ∧ c ≠ 'e' ∧ c ≠ 'E'

/-- What ends a number ends its digits. -/
theorem EndsNumber.endsDigits {rest : List Char} (h : EndsNumber rest) : EndsDigits rest :=
  fun c hc => (h c hc).1

theorem endsNumber_cons {c : Char} {cs : List Char} (hdigit : c.isDigit = false) (hpoint : c ≠ '.')
    (he : c ≠ 'e') (hE : c ≠ 'E') : EndsNumber (c :: cs) := by
  rintro c' ⟨⟩
  exact ⟨hdigit, hpoint, he, hE⟩

theorem endsDigits_cons {c : Char} {cs : List Char} (hdigit : c.isDigit = false) :
    EndsDigits (c :: cs) := by
  rintro c' ⟨⟩
  exact hdigit

/-- Digits after digits are digits. -/
theorem AllDigits.append {cs ds : List Char} (hcs : AllDigits cs) (hds : AllDigits ds) :
    AllDigits (cs ++ ds) := fun c hc => (List.mem_append.mp hc).elim (hcs c) (hds c)

theorem allDigits_digits (n : Nat) : AllDigits (digits n) := fun _ => isDigit_of_mem_digits n

theorem allDigits_replicate (k : Nat) : AllDigits (List.replicate k '0') := by
  intro c hc
  rw [(List.mem_replicate.mp hc).2]
  rfl

/-- Digits are read as far as they go. -/
theorem takeWhile_append {ds rest : List Char} (hds : AllDigits ds) (hrest : EndsDigits rest) :
    (ds ++ rest).takeWhile Char.isDigit = ds := by
  rw [List.takeWhile_append_of_pos hds]
  cases rest with
  | nil => rw [List.takeWhile_nil, List.append_nil]
  | cons c rest =>
    rw [List.takeWhile_cons_of_neg (by simp [hrest c rfl]), List.append_nil]

theorem dropWhile_append {ds rest : List Char} (hds : AllDigits ds) (hrest : EndsDigits rest) :
    (ds ++ rest).dropWhile Char.isDigit = rest := by
  rw [List.dropWhile_append_of_pos hds]
  cases rest with
  | nil => rfl
  | cons c rest => rw [List.dropWhile_cons_of_neg (by simp [hrest c rfl])]

/-- A whole part is read as far as it goes. -/
theorem wholePart_append {ds rest : List Char} (hds : IsWhole ds) (hrest : EndsDigits rest) :
    wholePart (ds ++ rest) = some (ds, rest) := by
  rcases hds with rfl | ⟨hne, hzero, hds⟩
  · rfl
  · obtain ⟨c, cs, rfl⟩ := List.exists_cons_of_ne_nil hne
    have hc : c ≠ '0' := fun heq => hzero (by rw [heq]; rfl)
    have htake := takeWhile_append hds hrest
    have hdrop := dropWhile_append hds hrest
    rw [List.cons_append] at htake hdrop ⊢
    unfold wholePart
    split
    · rename_i heq
      cases heq
      exact absurd rfl hc
    · rename_i heq
      cases heq
      rw [if_pos (hds c List.mem_cons_self), htake, hdrop]
    · rename_i heq
      cases heq

/-- The places after a point are read as far as they go. -/
theorem fraction_append {ds rest : List Char} (hne : ds ≠ []) (hds : AllDigits ds)
    (hrest : EndsDigits rest) : fraction ('.' :: (ds ++ rest)) = some (ds, rest) := by
  rw [fraction, takeWhile_append hds hrest, dropWhile_append hds hrest]
  simp [hne]

/-- Without a point there are no places. -/
theorem fraction_eq_none {rest : List Char} (h : rest.head? ≠ some '.') : fraction rest = none := by
  unfold fraction
  split
  · exact absurd rfl h
  · rfl

/-- What ends a number is no exponent. -/
theorem readExponent?_eq_none {rest : List Char} (h : EndsNumber rest) :
    readExponent? rest = none := by
  cases rest with
  | nil => rfl
  | cons c rest =>
    obtain ⟨-, -, he, hE⟩ := h c rfl
    rw [readExponent?, if_neg (by simp [he, hE])]

/-- A power of ten is read back. -/
theorem readExponent?_exponentText (e : ℤ) {rest : List Char} (hrest : EndsDigits rest) :
    readExponent? (exponentText e ++ rest) = some (e, rest) := by
  -- a zero in front of a single digit makes no difference
  obtain ⟨ds, htext, hne, hds, hvalue⟩ : ∃ ds, exponentText e =
      'e' :: (if e < 0 then '-' else '+') :: ds ∧ ds ≠ [] ∧ AllDigits ds ∧
      ofDigits ds = e.natAbs := by
    rw [exponentText]
    by_cases hshort : (digits e.natAbs).length < 2
    · refine ⟨'0' :: digits e.natAbs, by rw [if_pos hshort], List.cons_ne_nil _ _, ?_, ?_⟩
      · exact (allDigits_replicate 1).append (allDigits_digits _)
      · exact (ofDigits_replicate_append 1 _).trans (ofDigits_digits _)
    · exact ⟨digits e.natAbs, by rw [if_neg hshort], digits_ne_nil _, allDigits_digits _,
        ofDigits_digits _⟩
  have hempty : ds.isEmpty = false := by simpa using hne
  rw [htext, List.cons_append, List.cons_append, readExponent?, if_pos (Or.inl rfl)]
  by_cases he : e < 0
  · simp only [if_pos he, readSign, takeWhile_append hds hrest, dropWhile_append hds hrest, hempty,
      hvalue, if_true, Option.some.injEq, Prod.mk.injEq, and_true, Bool.false_eq_true, if_false]
    omega
  · simp only [if_neg he, readSign, takeWhile_append hds hrest, dropWhile_append hds hrest, hempty,
      hvalue, Option.some.injEq, Prod.mk.injEq, and_true, Bool.false_eq_true, if_false]
    omega

/-! ### Numerals -/

/-- Digits with a point, with a power of ten, or with both. -/
structure Numeral where
  whole : List Char
  places : List Char
  power : Option ℤ
  isWhole : IsWhole whole
  allDigits : AllDigits places
  /-- Digits alone are no numeral of this kind. -/
  hasPart : places ≠ [] ∨ power ≠ none

namespace Numeral

/-- The point with the digits behind it, if there are any. -/
def pointText (n : Numeral) : List Char := if n.places = [] then [] else '.' :: n.places

/-- The power of ten, if there is one. -/
def powerText (n : Numeral) : List Char := n.power.elim [] exponentText

/-- The text of a numeral. -/
def text (n : Numeral) : List Char := n.whole ++ (n.pointText ++ n.powerText)

/-- The number that a numeral writes. -/
def value (n : Numeral) : ℚ :=
  ofDigits (n.whole ++ n.places) * 10 ^ (n.power.getD 0 - (n.places.length : ℤ))

variable {rest : List Char}

/-- A power begins neither with a digit nor with a point. -/
theorem head?_powerText_append (n : Numeral) (hrest : EndsNumber rest) :
    ∀ c ∈ (n.powerText ++ rest).head?, c.isDigit = false ∧ c ≠ '.' := by
  rw [powerText]
  cases n.power with
  | none => exact fun c hc => ⟨(hrest c hc).1, (hrest c hc).2.1⟩
  | some e =>
    rintro c ⟨⟩
    decide

/-- A power is read as it was written. -/
theorem readExponent?_powerText (n : Numeral) (hrest : EndsNumber rest) :
    readExponent? (n.powerText ++ rest) = n.power.map fun e => (e, rest) := by
  rw [powerText]
  cases n.power with
  | none => exact readExponent?_eq_none hrest
  | some e => exact readExponent?_exponentText e hrest.endsDigits

theorem endsDigits_pointText_append (n : Numeral) {rest : List Char} (hrest : EndsDigits rest) :
    EndsDigits (n.pointText ++ rest) := by
  rw [pointText]
  split
  · exact hrest
  · exact endsDigits_cons (by decide)

end Numeral

/-- A numeral is read as the number nearest to its value. -/
theorem unsignedNumber_numeral (negative : Bool) (n : Numeral) {rest : List Char}
    (hrest : EndsNumber rest) : unsignedNumber negative (n.text ++ rest) =
      some (.ok (.float (.nearest negative n.value), rest)) := by
  have htail := n.head?_powerText_append hrest
  have hends : EndsDigits (n.powerText ++ rest) := fun c hc => (htail c hc).1
  have hpoint : (n.powerText ++ rest).head? ≠ some '.' := fun h => (htail '.' h).2 rfl
  rw [Numeral.text, List.append_assoc, List.append_assoc, unsignedNumber,
    wholePart_append n.isWhole (n.endsDigits_pointText_append hends), Numeral.value]
  by_cases hplaces : n.places = []
  · -- without digits behind a point there is a power of ten
    have hpart : n.power ≠ none := n.hasPart.resolve_left (not_not.mpr hplaces)
    obtain ⟨e, hpower⟩ := Option.ne_none_iff_exists'.mp hpart
    have htext : n.pointText = [] := if_pos hplaces
    simp only [htext, List.nil_append, fraction_eq_none hpoint, n.readExponent?_powerText hrest,
      hpower, Option.map_some, Option.getD_some, hplaces, Binary64.ofDecimal_eq_nearest,
      List.length_nil]
  · have htext : n.pointText = '.' :: n.places := if_neg hplaces
    have hempty : (!n.places.isEmpty) = true := by simpa using hplaces
    simp only [htext, List.cons_append, fraction_append hplaces n.allDigits hends,
      n.readExponent?_powerText hrest, Binary64.ofDecimal_eq_nearest]
    cases hpower : n.power with
    | some e => rfl
    | none =>
      have htail : n.powerText = [] := by rw [Numeral.powerText, hpower]; rfl
      simp only [Option.map_none, hempty, if_true, htail, List.nil_append, Option.getD_none,
        zero_sub]

/-- Digits alone are an integer, if they are not too many. -/
theorem unsignedNumber_whole (negative : Bool) {whole rest : List Char} (hwhole : IsWhole whole)
    (hlength : whole.length ≤ maxDigits) (hrest : EndsNumber rest) :
    unsignedNumber negative (whole ++ rest) =
      some (.ok (.int (if negative then -(ofDigits whole : ℤ) else ofDigits whole), rest)) := by
  have hfraction : fraction rest = none :=
    fraction_eq_none fun hhead => (hrest '.' hhead).2.1 rfl
  rw [unsignedNumber, wholePart_append hwhole hrest.endsDigits]
  simp only [hfraction, readExponent?_eq_none hrest, List.isEmpty_nil, Bool.not_true,
    Bool.false_eq_true, if_false, if_neg (not_lt.mpr hlength)]

/-! ### Texts of numbers -/

/-- Digits that are laid out with a point or a power of ten are a numeral of their value. -/
theorem exists_numeral_of_layOut {ds : List Char} (hne : ds ≠ []) (hzero : ds.head? ≠ some '0')
    (hds : AllDigits ds) (point : ℤ) : ∃ n : Numeral,
      DecimalStyle.plain.layOut ds point = n.text ∧
        n.value = ofDigits ds * 10 ^ (point - (ds.length : ℤ)) := by
  obtain ⟨d, tail, rfl⟩ := List.exists_cons_of_ne_nil hne
  unfold DecimalStyle.layOut
  split
  · split
    · -- all digits stand behind the point
      rename_i hpoint
      refine ⟨⟨['0'], List.replicate point.natAbs '0' ++ d :: tail, none, Or.inl rfl,
        (allDigits_replicate _).append hds, Or.inl (by simp)⟩, ?_, ?_⟩
      · simp [Numeral.text, Numeral.pointText, Numeral.powerText]
      · have hvalue : ofDigits (['0'] ++ (List.replicate point.natAbs '0' ++ d :: tail)) =
            ofDigits (d :: tail) := ofDigits_replicate_append (point.natAbs + 1) _
        simp only [Numeral.value, hvalue, Option.getD_none, List.length_append,
          List.length_replicate]
        congr 2
        omega
    split
    · -- all digits stand before the point
      rename_i hpoint hlength
      refine ⟨⟨d :: tail ++ List.replicate (point.toNat - (d :: tail).length) '0', ['0'], none,
        Or.inr ⟨List.cons_ne_nil _ _, hzero, hds.append (allDigits_replicate _)⟩,
        allDigits_replicate 1, Or.inl (List.cons_ne_nil _ _)⟩, ?_, ?_⟩
      · simp [Numeral.text, Numeral.pointText, Numeral.powerText, DecimalStyle.plain]
      · have hzeros : List.replicate (point.toNat - (d :: tail).length) '0' ++ ['0'] =
            List.replicate (point.toNat - (d :: tail).length + 1) '0' :=
          List.replicate_succ'.symm
        simp only [Numeral.value, List.append_assoc, hzeros, ofDigits_append, ofDigits_replicate,
          List.length_replicate, Option.getD_none, add_zero, Nat.pow_eq, Nat.cast_mul,
          Nat.cast_pow, Nat.cast_ofNat, List.length_singleton]
        rw [mul_assoc, ← zpow_natCast, ← zpow_add₀ (by norm_num)]
        congr 2
        push_cast
        omega
    · -- the point stands among the digits
      rename_i hpoint hlength
      obtain ⟨k, hk⟩ : ∃ k, point.toNat = k + 1 := ⟨point.toNat - 1, by omega⟩
      have hdrop : (d :: tail).drop point.toNat ≠ [] := by
        rw [Ne, List.drop_eq_nil_iff]
        exact hlength
      refine ⟨⟨(d :: tail).take point.toNat, (d :: tail).drop point.toNat, none,
        Or.inr ⟨?_, ?_, fun c hc => hds c (List.mem_of_mem_take hc)⟩,
        fun c hc => hds c (List.mem_of_mem_drop hc), Or.inl hdrop⟩, ?_, ?_⟩
      · rw [hk]
        exact List.cons_ne_nil _ _
      · rw [hk]
        exact hzero
      · simp [Numeral.text, Numeral.pointText, Numeral.powerText, hdrop]
      · simp only [Numeral.value, List.take_append_drop, Option.getD_none, List.length_drop]
        congr 2
        omega
  · -- the point stands behind the first digit
    have hdigit : AllDigits [d] := fun c hc =>
      hds c (List.mem_singleton.mp hc ▸ List.mem_cons_self)
    refine ⟨⟨[d], tail, some (point - 1), Or.inr ⟨List.cons_ne_nil _ _, hzero, hdigit⟩,
      fun c hc => hds c (List.mem_cons_of_mem d hc), Or.inr (by simp)⟩, ?_, ?_⟩
    · cases tail with
      | nil => simp [Numeral.text, Numeral.pointText, Numeral.powerText, DecimalStyle.plain]
      | cons e tail => simp [Numeral.text, Numeral.pointText, Numeral.powerText]
    · simp only [Numeral.value, List.singleton_append, Option.getD_some, List.length_cons]
      congr 2
      push_cast
      omega

/-- The digits of a number without the zeros at their end, which count as a power of ten. -/
theorem significant_digits {n : ℕ} (hn : n ≠ 0) : ∃ (ds : List Char) (k : ℕ),
    Text.dropRightWhile (· == '0') (digits n) = ds ∧ ds ≠ [] ∧ ds.head? ≠ some '0' ∧
      AllDigits ds ∧ (digits n).length = ds.length + k ∧ n = ofDigits ds * 10 ^ k := by
  obtain ⟨tail, happend, htail⟩ := Text.dropRightWhile_append (· == '0') (digits n)
  generalize Text.dropRightWhile (· == '0') (digits n) = ds at happend ⊢
  have hzeros : tail = List.replicate tail.length '0' :=
    List.eq_replicate_iff.mpr ⟨rfl, fun c hc => by simpa using htail c hc⟩
  have hvalue : n = ofDigits ds * 10 ^ tail.length := by
    have hdigits := ofDigits_digits n
    rw [happend, hzeros, ofDigits_append, ofDigits_replicate, List.length_replicate] at hdigits
    exact hdigits.symm
  have hne : ds ≠ [] := by
    rintro rfl
    exact hn (hvalue.trans (Nat.zero_mul _))
  refine ⟨ds, tail.length, rfl, hne, ?_, ?_, ?_, hvalue⟩
  · obtain ⟨c, cs, rfl⟩ := List.exists_cons_of_ne_nil hne
    have hhead := head?_digits_ne_zero hn
    rw [happend] at hhead
    exact hhead
  · exact fun c hc => allDigits_digits n c (happend ▸ List.mem_append_left tail hc)
  · rw [happend, List.length_append]

/-- The text of a decimal is a numeral of the same value. -/
theorem exists_numeral_of_text (x : Decimal) :
    ∃ n : Numeral, x.text .plain = n.text ∧ n.value = x.value := by
  rw [Decimal.text, Decimal.value]
  by_cases hzero : x.significand = 0
  · refine ⟨⟨['0'], ['0'], none, Or.inl rfl, allDigits_replicate 1, Or.inl (List.cons_ne_nil _ _)⟩,
      ?_, ?_⟩
    · rw [if_pos hzero]
      rfl
    · have hvalue : ofDigits (['0'] ++ ['0']) = 0 := rfl
      rw [hzero, Numeral.value, hvalue, Nat.cast_zero, zero_mul, zero_mul]
  · obtain ⟨ds, k, hds, hne, hhead, hall, hlength, hvalue⟩ := significant_digits hzero
    rw [if_neg hzero]
    dsimp only
    rw [hds, hlength]
    -- zeros at the end of the significand go into the exponent
    obtain ⟨n, htext, hn⟩ := exists_numeral_of_layOut hne hhead hall
      (((ds.length + k : ℕ) : ℤ) + x.exponent)
    refine ⟨n, htext, ?_⟩
    rw [hn, hvalue, Nat.cast_mul, Nat.cast_pow, Nat.cast_ofNat, mul_assoc, ← zpow_natCast,
      ← zpow_add₀ (by norm_num)]
    congr 2
    push_cast
    omega

/-! ### Numbers in documents -/

/-- A whole part has a digit. -/
theorem IsWhole.exists_cons {cs : List Char} (h : IsWhole cs) :
    ∃ c tail, cs = c :: tail ∧ c.isDigit = true := by
  rcases h with rfl | ⟨hne, -, hdigits⟩
  · exact ⟨'0', [], rfl, rfl⟩
  · obtain ⟨c, tail, rfl⟩ := List.exists_cons_of_ne_nil hne
    exact ⟨c, tail, rfl, hdigits c List.mem_cons_self⟩

/-- What begins with no opening bracket is no container. -/
theorem readValue_eq_readScalar {room : ℕ} {c : Char} {cs : List Char} (hlist : c ≠ '[')
    (hobject : c ≠ '\x7b') : readValue room (c :: cs) = readScalar (c :: cs) := by
  unfold readValue
  split <;> rename_i heq <;> first | rfl | cases heq
  · exact absurd rfl hlist
  · exact absurd rfl hobject
  · exact absurd rfl hlist
  · exact absurd rfl hobject

/-- What begins with a digit, after a sign or not, is read as a number. -/
theorem readScalar_signed {negative : Bool} {cs : List Char} {r : Reading Value}
    (hdigit : ∃ c tail, cs = c :: tail ∧ c.isDigit = true)
    (hread : unsignedNumber negative cs = some r) : readScalar (signed negative cs) = r := by
  obtain ⟨c, tail, rfl, hc⟩ := hdigit
  have hnumber : number (signed negative (c :: tail)) = some r := by
    cases negative with
    | true => exact hread
    | false =>
      rw [signed, if_neg Bool.false_ne_true, number]
      · exact hread
      · rintro rest heq
        rw [(List.cons.inj heq).1] at hc
        exact absurd hc (by decide)
  have hdefault : readScalar (signed negative (c :: tail)) =
      (number (signed negative (c :: tail))).getD
        (stop .expectedValue (signed negative (c :: tail))) := by
    -- no name begins with a digit, and no name with a sign goes on with one
    cases negative with
    | true =>
      rw [signed, if_pos rfl]
      unfold readScalar
      split <;> rename_i heq <;> first | rfl | (cases heq <;> exact absurd hc (by decide))
    | false =>
      rw [signed, if_neg Bool.false_ne_true]
      unfold readScalar
      split <;> rename_i heq <;> first | rfl | (cases heq; exact absurd hc (by decide))
  rw [hdefault, hnumber, Option.getD_some]

/-- A number is read with its sign. -/
theorem readValue_signed {negative : Bool} {cs : List Char} {r : Reading Value}
    (hdigit : ∃ c tail, cs = c :: tail ∧ c.isDigit = true)
    (hread : unsignedNumber negative cs = some r) (room : ℕ) :
    readValue room (signed negative cs) = r := by
  rw [← readScalar_signed hdigit hread]
  obtain ⟨c, tail, rfl, hc⟩ := hdigit
  cases negative with
  | true => exact readValue_eq_readScalar (by decide) (by decide)
  | false =>
    refine readValue_eq_readScalar ?_ ?_ <;>
      · rintro rfl
        exact absurd hc (by decide)

/-- A finite number is read from its text. -/
theorem readValue_float {x : Binary64} (hx : x.isFinite = true) (room : ℕ) {rest : List Char}
    (hrest : EndsNumber rest) : readValue room (x.text ++ rest) = .ok (.float x, rest) := by
  cases x with
  | finite negative m e h =>
    obtain ⟨n, htext, hvalue⟩ := exists_numeral_of_text (shortest m e)
    obtain ⟨c, tail, hwhole, hc⟩ := n.isWhole.exists_cons
    have hread := unsignedNumber_numeral negative n hrest
    rw [hvalue, nearest_value_shortest negative h] at hread
    have hsigned : signed negative n.text ++ rest = signed negative (n.text ++ rest) := by
      cases negative <;> rfl
    rw [Binary64.text, htext, hsigned]
    refine readValue_signed ⟨c, tail ++ (n.pointText ++ n.powerText) ++ rest, ?_, hc⟩ hread room
    rw [Numeral.text, hwhole]
    rfl
  | infinite => cases hx
  | nan => cases hx

/-- The digits of a number are a whole part. -/
theorem isWhole_digits (n : ℕ) : IsWhole (digits n) := by
  by_cases hn : n = 0
  · subst hn
    exact Or.inl (digits_of_lt 0 (by decide))
  · exact Or.inr ⟨digits_ne_nil n, head?_digits_ne_zero hn, allDigits_digits n⟩

/-- An integer that is not too long is read from its text. -/
theorem readValue_int {n : ℤ} (hn : n.natAbs < Nat.pow 10 maxDigits) (room : ℕ)
    {rest : List Char} (hrest : EndsNumber rest) :
    readValue room (intText n ++ rest) = .ok (.int n, rest) := by
  have hlength : (digits n.natAbs).length ≤ maxDigits := length_digits_le (by decide) hn
  obtain ⟨c, tail, hwhole, hc⟩ := (isWhole_digits n.natAbs).exists_cons
  have hsigned : intText n ++ rest = signed (decide (n < 0)) (digits n.natAbs ++ rest) := by
    rw [intText]
    by_cases hnegative : n < 0
    · simp [hnegative, signed]
    · simp [hnegative, signed]
  -- the digits are read without the sign, which is put back afterwards
  have hread := unsignedNumber_whole (decide (n < 0)) (isWhole_digits n.natAbs) hlength hrest
  rw [ofDigits_digits] at hread
  rw [hsigned]
  have hvalue : (if decide (n < 0) = true then -(n.natAbs : ℤ) else (n.natAbs : ℤ)) = n := by
    by_cases hnegative : n < 0
    · rw [if_pos (decide_eq_true hnegative)]
      omega
    · rw [if_neg (by simpa using hnegative)]
      omega
  rw [hvalue] at hread
  refine readValue_signed ⟨c, tail ++ rest, ?_, hc⟩ hread room
  rw [hwhole]
  rfl

end AppReport.Json
