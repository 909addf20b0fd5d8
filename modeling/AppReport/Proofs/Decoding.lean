import AppReport.Text.Utf8
import Mathlib.Tactic.SplitIfs

/-!
# Decoding undoes encoding

A character beyond ASCII is a byte that announces how many more there are and bytes that complete
it (`Completes`). What completes an announced character is how the character is encoded
(`utf8EncodeChar_of_completes`), and every character is encoded so (`announce_utf8EncodeChar`). The
decoder therefore accepts exactly the bytes that encode a text, and gives that text
(`decode?_eq_some_iff`).
-/

namespace AppReport.Text

/-! ### Bytes that complete a character -/

/-- Bytes that complete a character that has begun, and the number of that character. -/
inductive Completes : Pending → List UInt8 → Nat → Prop
  | last {p : Pending} {b : UInt8} : p.admits b = true → p.left ≤ 1 → Completes p [b] (p.push b)
  | more {p : Pending} {b : UInt8} {tail : List UInt8} {n : Nat} : p.admits b = true →
      1 < p.left → Completes (p.next b) tail n → Completes p (b :: tail) n

/-- What has begun is decoded by completing it and decoding the rest. -/
theorem decodeFrom_some_eq_some_iff {p : Pending} {bytes : List UInt8} {cs : List Char} :
    decodeFrom (some p) bytes = some cs ↔ ∃ tail n rest ds, bytes = tail ++ rest ∧
      Completes p tail n ∧ decodeFrom none rest = some ds ∧ cs = Char.ofNat n :: ds := by
  induction bytes generalizing p with
  | nil =>
    constructor
    · nofun
    · rintro ⟨tail, n, rest, ds, hbytes, hcompletes, -⟩
      obtain ⟨rfl, -⟩ := List.append_eq_nil_iff.mp hbytes.symm
      cases hcompletes
  | cons b bytes ih =>
    rw [decodeFrom]
    constructor
    · intro h
      -- a byte completes the character or is one of those before the last
      split_ifs at h with hadmits hleft
      · obtain ⟨ds, hds, rfl⟩ := Option.map_eq_some_iff.mp h
        exact ⟨[b], _, bytes, ds, rfl, .last hadmits hleft, hds, rfl⟩
      · obtain ⟨tail, n, rest, ds, rfl, hcompletes, hds, rfl⟩ := ih.mp h
        exact ⟨b :: tail, n, rest, ds, rfl, .more hadmits (by omega) hcompletes, hds, rfl⟩
    · rintro ⟨tail, n, rest, ds, hbytes, hcompletes, hds, rfl⟩
      cases hcompletes with
      | last hadmits hleft =>
        obtain ⟨rfl, rfl⟩ := List.cons.inj hbytes
        rw [if_pos hadmits, if_pos hleft, hds]
        rfl
      | more hadmits hleft hcompletes =>
        obtain ⟨rfl, rfl⟩ := List.cons.inj hbytes
        rw [if_pos hadmits, if_neg (by omega)]
        exact ih.mpr ⟨_, n, rest, ds, rfl, hcompletes, hds, rfl⟩

/-- The last byte of a character completes it. -/
theorem completes_of_le {p : Pending} (h : p.left ≤ 1) {bytes : List UInt8} {n : Nat} :
    Completes p bytes n ↔ ∃ b, bytes = [b] ∧ p.admits b = true ∧ n = p.push b := by
  constructor
  · intro hcompletes
    cases hcompletes with
    | last hadmits _ => exact ⟨_, rfl, hadmits, rfl⟩
    | more _ hleft _ => omega
  · rintro ⟨b, rfl, hadmits, hn⟩
    rw [hn]
    exact .last hadmits h

/-- A byte that is not the last one leaves a character with one byte less to come. -/
theorem completes_of_lt {p : Pending} (h : 1 < p.left) {bytes : List UInt8} {n : Nat} :
    Completes p bytes n ↔
      ∃ b tail, bytes = b :: tail ∧ p.admits b = true ∧ Completes (p.next b) tail n := by
  constructor
  · intro hcompletes
    cases hcompletes with
    | last _ hleft => omega
    | more hadmits _ htail => exact ⟨_, _, rfl, hadmits, htail⟩
  · rintro ⟨b, tail, rfl, hadmits, htail⟩
    exact .more hadmits h htail

theorem admits_iff {p : Pending} {b : UInt8} :
    p.admits b = true ↔ p.low.toNat ≤ b.toNat ∧ b.toNat ≤ p.high.toNat := by
  simp [Pending.admits, UInt8.le_iff_toNat_le]

theorem completes_one {low high : UInt8} {value : Nat} {bytes : List UInt8} {n : Nat} :
    Completes ⟨1, low, high, value⟩ bytes n ↔ ∃ x : UInt8, bytes = [x] ∧
      (low.toNat ≤ x.toNat ∧ x.toNat ≤ high.toNat) ∧ n = value * 64 + (x.toNat - 128) := by
  rw [completes_of_le (Nat.le_refl 1)]
  simp only [admits_iff]
  rfl

theorem completes_two {low high : UInt8} {value : Nat} {bytes : List UInt8} {n : Nat} :
    Completes ⟨2, low, high, value⟩ bytes n ↔ ∃ x y : UInt8, bytes = [x, y] ∧
      (low.toNat ≤ x.toNat ∧ x.toNat ≤ high.toNat) ∧ (128 ≤ y.toNat ∧ y.toNat ≤ 191) ∧
      n = (value * 64 + (x.toNat - 128)) * 64 + (y.toNat - 128) := by
  rw [completes_of_lt Nat.one_lt_two]
  simp only [admits_iff]
  constructor
  · rintro ⟨x, tail, rfl, hx, htail⟩
    obtain ⟨y, rfl, hy, hn⟩ := completes_one.mp htail
    exact ⟨x, y, rfl, hx, hy, hn⟩
  · rintro ⟨x, y, rfl, hx, hy, hn⟩
    exact ⟨x, [y], rfl, hx, completes_one.mpr ⟨y, rfl, hy, hn⟩⟩

/-- A character with three bytes to come, of which only the first is bounded in its own way. -/
theorem completes_three {low high : UInt8} {value : Nat} {bytes : List UInt8} {n : Nat} :
    Completes ⟨3, low, high, value⟩ bytes n ↔ ∃ x y z : UInt8, bytes = [x, y, z] ∧
      (low.toNat ≤ x.toNat ∧ x.toNat ≤ high.toNat) ∧ (128 ≤ y.toNat ∧ y.toNat ≤ 191) ∧
      (128 ≤ z.toNat ∧ z.toNat ≤ 191) ∧
      n = ((value * 64 + (x.toNat - 128)) * 64 + (y.toNat - 128)) * 64 + (z.toNat - 128) := by
  rw [completes_of_lt (Nat.lt_add_of_pos_left Nat.two_pos)]
  simp only [admits_iff]
  constructor
  · rintro ⟨x, tail, rfl, hx, htail⟩
    obtain ⟨y, z, rfl, hy, hz, hn⟩ := completes_two.mp htail
    exact ⟨x, y, z, rfl, hx, hy, hz, hn⟩
  · rintro ⟨x, y, z, rfl, hx, hy, hz, hn⟩
    exact ⟨x, [y, z], rfl, hx, completes_two.mpr ⟨y, z, rfl, hy, hz, hn⟩⟩

/-! ### Characters by the number of their bytes -/

theorem toNat_ofNat {n : Nat} (h : n.isValidChar) : (Char.ofNat n).val.toNat = n := by
  rw [Char.ofNat, dif_pos h]
  rfl

theorem ofNat_eq_iff {n : Nat} {b : UInt8} (h : n < 256) : UInt8.ofNat n = b ↔ n = b.toNat := by
  rw [← UInt8.toNat_inj, UInt8.toNat_ofNat', Nat.mod_eq_of_lt h]

/-- A first byte that announces more, by its number. -/
theorem ofLead_eq (b : UInt8) : Pending.ofLead b =
    if b.toNat < 194 then none
    else if b.toNat < 224 then some ⟨1, 0x80, 0xbf, b.toNat - 192⟩
    else if b.toNat = 224 then some ⟨2, 0xa0, 0xbf, 0⟩
    else if b.toNat = 237 then some ⟨2, 0x80, 0x9f, 13⟩
    else if b.toNat < 240 then some ⟨2, 0x80, 0xbf, b.toNat - 224⟩
    else if b.toNat = 240 then some ⟨3, 0x90, 0xbf, 0⟩
    else if b.toNat < 244 then some ⟨3, 0x80, 0xbf, b.toNat - 240⟩
    else if b.toNat = 244 then some ⟨3, 0x80, 0x8f, 4⟩
    else none := by
  simp [Pending.ofLead, UInt8.lt_iff_toNat_lt, ← UInt8.toNat_inj]

/-- How a character is encoded, by its number. -/
theorem utf8EncodeChar_ofNat {n : Nat} (h : n.isValidChar) :
    String.utf8EncodeChar (Char.ofNat n) =
      if n ≤ 127 then [UInt8.ofNat n]
      else if n ≤ 2047 then [UInt8.ofNat (n / 64 % 32 + 192), UInt8.ofNat (n % 64 + 128)]
      else if n ≤ 65535 then
        [UInt8.ofNat (n / 4096 % 16 + 224), UInt8.ofNat (n / 64 % 64 + 128),
          UInt8.ofNat (n % 64 + 128)]
      else
        [UInt8.ofNat (n / 262144 % 8 + 240), UInt8.ofNat (n / 4096 % 64 + 128),
          UInt8.ofNat (n / 64 % 64 + 128), UInt8.ofNat (n % 64 + 128)] := by
  unfold String.utf8EncodeChar
  rw [toNat_ofNat h]

/-- The two bytes of a character of this length encode it. -/
theorem utf8EncodeChar_two {b x : UInt8} {n v : Nat} (hb : b.toNat = v + 192)
    (hv : 2 ≤ v ∧ v < 32) (hx : 128 ≤ x.toNat ∧ x.toNat ≤ 191)
    (hn : n = v * 64 + (x.toNat - 128)) : String.utf8EncodeChar (Char.ofNat n) = [b, x] := by
  have hvalid : n.isValidChar := Or.inl (by omega)
  rw [utf8EncodeChar_ofNat hvalid, if_neg (by omega), if_pos (by omega)]
  simp only [List.cons.injEq, and_true]
  exact ⟨(ofNat_eq_iff (by omega)).mpr (by omega), (ofNat_eq_iff (by omega)).mpr (by omega)⟩

/-- The three bytes of a character of this length encode it. -/
theorem utf8EncodeChar_three {b x y : UInt8} {n v : Nat} (hb : b.toNat = v + 224) (hv : v < 16)
    (hx : 128 ≤ x.toNat ∧ x.toNat ≤ 191) (hy : 128 ≤ y.toNat ∧ y.toNat ≤ 191)
    (hn : n = (v * 64 + (x.toNat - 128)) * 64 + (y.toNat - 128)) (hvalid : n.isValidChar)
    (hlong : 2048 ≤ n) : String.utf8EncodeChar (Char.ofNat n) = [b, x, y] := by
  rw [utf8EncodeChar_ofNat hvalid, if_neg (by omega), if_neg (by omega), if_pos (by omega)]
  simp only [List.cons.injEq, and_true]
  exact ⟨(ofNat_eq_iff (by omega)).mpr (by omega), (ofNat_eq_iff (by omega)).mpr (by omega),
    (ofNat_eq_iff (by omega)).mpr (by omega)⟩

/-- The four bytes of a character of this length encode it. -/
theorem utf8EncodeChar_four {b x y z : UInt8} {n v : Nat} (hb : b.toNat = v + 240) (hv : v < 8)
    (hx : 128 ≤ x.toNat ∧ x.toNat ≤ 191) (hy : 128 ≤ y.toNat ∧ y.toNat ≤ 191)
    (hz : 128 ≤ z.toNat ∧ z.toNat ≤ 191)
    (hn : n = ((v * 64 + (x.toNat - 128)) * 64 + (y.toNat - 128)) * 64 + (z.toNat - 128))
    (hvalid : n.isValidChar) (hlong : 65536 ≤ n) :
    String.utf8EncodeChar (Char.ofNat n) = [b, x, y, z] := by
  rw [utf8EncodeChar_ofNat hvalid, if_neg (by omega), if_neg (by omega), if_neg (by omega)]
  simp only [List.cons.injEq, and_true]
  exact ⟨(ofNat_eq_iff (by omega)).mpr (by omega), (ofNat_eq_iff (by omega)).mpr (by omega),
    (ofNat_eq_iff (by omega)).mpr (by omega), (ofNat_eq_iff (by omega)).mpr (by omega)⟩

/-- Bytes that complete what a first byte has announced are, with this byte, those that encode the
character. -/
theorem utf8EncodeChar_of_completes {b : UInt8} {p : Pending} (hlead : Pending.ofLead b = some p)
    {tail : List UInt8} {n : Nat} (h : Completes p tail n) :
    String.utf8EncodeChar (Char.ofNat n) = b :: tail := by
  rw [ofLead_eq] at hlead
  split_ifs at hlead <;> cases hlead
  · obtain ⟨x, rfl, hx, hn⟩ := completes_one.mp h
    exact utf8EncodeChar_two (by omega) (by omega) hx hn
  -- three bytes: long forms and surrogates are left out by the bounds of the second one
  · obtain ⟨x, y, rfl, hx, hy, hn⟩ := completes_two.mp h
    have hx : 160 ≤ x.toNat ∧ x.toNat ≤ 191 := hx
    exact utf8EncodeChar_three (by omega) (by omega) (by omega) hy hn (by omega) (by omega)
  · obtain ⟨x, y, rfl, hx, hy, hn⟩ := completes_two.mp h
    have hx : 128 ≤ x.toNat ∧ x.toNat ≤ 159 := hx
    exact utf8EncodeChar_three (by omega) (by omega) (by omega) hy hn (by omega) (by omega)
  · obtain ⟨x, y, rfl, hx, hy, hn⟩ := completes_two.mp h
    have hx : 128 ≤ x.toNat ∧ x.toNat ≤ 191 := hx
    exact utf8EncodeChar_three (by omega) (by omega) hx hy hn (by omega) (by omega)
  -- four bytes: so are long forms and what lies beyond the last character
  · obtain ⟨x, y, z, rfl, hx, hy, hz, hn⟩ := completes_three.mp h
    have hx : 144 ≤ x.toNat ∧ x.toNat ≤ 191 := hx
    exact utf8EncodeChar_four (by omega) (by omega) (by omega) hy hz hn (by omega) (by omega)
  · obtain ⟨x, y, z, rfl, hx, hy, hz, hn⟩ := completes_three.mp h
    have hx : 128 ≤ x.toNat ∧ x.toNat ≤ 191 := hx
    exact utf8EncodeChar_four (by omega) (by omega) hx hy hz hn (by omega) (by omega)
  · obtain ⟨x, y, z, rfl, hx, hy, hz, hn⟩ := completes_three.mp h
    have hx : 128 ≤ x.toNat ∧ x.toNat ≤ 143 := hx
    exact utf8EncodeChar_four (by omega) (by omega) (by omega) hy hz hn (by omega) (by omega)

/-- Bytes of which the first announces a character and the others complete it. -/
def Announce (bytes : List UInt8) (n : Nat) : Prop :=
  ∃ b tail p, bytes = b :: tail ∧ 128 ≤ b.toNat ∧ Pending.ofLead b = some p ∧ Completes p tail n

/-- The first of two bytes announces the other one. -/
theorem announce_two {n : Nat} (hlow : 128 ≤ n) (hhigh : n ≤ 2047) :
    Announce [UInt8.ofNat (n / 64 % 32 + 192), UInt8.ofNat (n % 64 + 128)] n := by
  generalize hb : UInt8.ofNat (n / 64 % 32 + 192) = b
  generalize hx : UInt8.ofNat (n % 64 + 128) = x
  rw [ofNat_eq_iff (by omega)] at hb hx
  have hlead : Pending.ofLead b = some ⟨1, 0x80, 0xbf, b.toNat - 192⟩ := by
    rw [ofLead_eq, if_neg (by omega), if_pos (by omega)]
  have hbounds : 128 ≤ x.toNat ∧ x.toNat ≤ 191 := by omega
  exact ⟨b, [x], _, rfl, by omega, hlead, completes_one.mpr ⟨x, rfl, hbounds, by omega⟩⟩

/-- The first of three bytes announces the others, and bounds the second. -/
theorem announce_three {n : Nat} (hlow : 2048 ≤ n) (hhigh : n ≤ 65535) (hvalid : n.isValidChar) :
    Announce [UInt8.ofNat (n / 4096 % 16 + 224), UInt8.ofNat (n / 64 % 64 + 128),
      UInt8.ofNat (n % 64 + 128)] n := by
  generalize hb : UInt8.ofNat (n / 4096 % 16 + 224) = b
  generalize hx : UInt8.ofNat (n / 64 % 64 + 128) = x
  generalize hy : UInt8.ofNat (n % 64 + 128) = y
  rw [ofNat_eq_iff (by omega)] at hb hx hy
  have hy' : 128 ≤ y.toNat ∧ y.toNat ≤ 191 := by omega
  -- the first byte bounds the second where long forms or surrogates would be possible
  rcases (by omega : b.toNat = 224 ∨ b.toNat = 237 ∨ b.toNat ≠ 224 ∧ b.toNat ≠ 237) with
    hlead | hlead | hlead
  · have hx' : 160 ≤ x.toNat ∧ x.toNat ≤ 191 := by omega
    refine ⟨b, [x, y], ⟨2, 0xa0, 0xbf, 0⟩, rfl, by omega, ?_, completes_two.mpr
      ⟨x, y, rfl, hx', hy', by omega⟩⟩
    rw [ofLead_eq, if_neg (by omega), if_neg (by omega), if_pos hlead]
  · have hx' : 128 ≤ x.toNat ∧ x.toNat ≤ 159 := by
      rcases hvalid with hvalid | hvalid <;> omega
    refine ⟨b, [x, y], ⟨2, 0x80, 0x9f, 13⟩, rfl, by omega, ?_, completes_two.mpr
      ⟨x, y, rfl, hx', hy', by omega⟩⟩
    rw [ofLead_eq, if_neg (by omega), if_neg (by omega), if_neg (by omega), if_pos hlead]
  · have hx' : 128 ≤ x.toNat ∧ x.toNat ≤ 191 := by omega
    refine ⟨b, [x, y], ⟨2, 0x80, 0xbf, b.toNat - 224⟩, rfl, by omega, ?_, completes_two.mpr
      ⟨x, y, rfl, hx', hy', by omega⟩⟩
    rw [ofLead_eq, if_neg (by omega), if_neg (by omega), if_neg hlead.1, if_neg hlead.2,
      if_pos (by omega)]

/-- The first of four bytes announces the others, and bounds the second. -/
theorem announce_four {n : Nat} (hlow : 65536 ≤ n) (hhigh : n < 1114112) :
    Announce [UInt8.ofNat (n / 262144 % 8 + 240), UInt8.ofNat (n / 4096 % 64 + 128),
      UInt8.ofNat (n / 64 % 64 + 128), UInt8.ofNat (n % 64 + 128)] n := by
  generalize hb : UInt8.ofNat (n / 262144 % 8 + 240) = b
  generalize hx : UInt8.ofNat (n / 4096 % 64 + 128) = x
  generalize hy : UInt8.ofNat (n / 64 % 64 + 128) = y
  generalize hz : UInt8.ofNat (n % 64 + 128) = z
  rw [ofNat_eq_iff (by omega)] at hb hx hy hz
  have hy' : 128 ≤ y.toNat ∧ y.toNat ≤ 191 := by omega
  have hz' : 128 ≤ z.toNat ∧ z.toNat ≤ 191 := by omega
  -- the first byte bounds the second where long forms or too great numbers would be possible
  rcases (by omega : b.toNat = 240 ∨ b.toNat = 244 ∨ b.toNat ≠ 240 ∧ b.toNat < 244) with
    hlead | hlead | hlead
  · have hx' : 144 ≤ x.toNat ∧ x.toNat ≤ 191 := by omega
    refine ⟨b, [x, y, z], ⟨3, 0x90, 0xbf, 0⟩, rfl, by omega, ?_, completes_three.mpr
      ⟨x, y, z, rfl, hx', hy', hz', by omega⟩⟩
    rw [ofLead_eq, if_neg (by omega), if_neg (by omega), if_neg (by omega), if_neg (by omega),
      if_neg (by omega), if_pos hlead]
  · have hx' : 128 ≤ x.toNat ∧ x.toNat ≤ 143 := by omega
    refine ⟨b, [x, y, z], ⟨3, 0x80, 0x8f, 4⟩, rfl, by omega, ?_, completes_three.mpr
      ⟨x, y, z, rfl, hx', hy', hz', by omega⟩⟩
    rw [ofLead_eq, if_neg (by omega), if_neg (by omega), if_neg (by omega), if_neg (by omega),
      if_neg (by omega), if_neg (by omega), if_neg (by omega), if_pos hlead]
  · have hx' : 128 ≤ x.toNat ∧ x.toNat ≤ 191 := by omega
    refine ⟨b, [x, y, z], ⟨3, 0x80, 0xbf, b.toNat - 240⟩, rfl, by omega, ?_, completes_three.mpr
      ⟨x, y, z, rfl, hx', hy', hz', by omega⟩⟩
    rw [ofLead_eq, if_neg (by omega), if_neg (by omega), if_neg (by omega), if_neg (by omega),
      if_neg (by omega), if_neg hlead.1, if_pos hlead.2]

/-- The bytes that encode a character beyond ASCII announce it and complete it. -/
theorem announce_utf8EncodeChar {c : Char} (h : 128 ≤ c.val.toNat) :
    Announce (String.utf8EncodeChar c) c.val.toNat := by
  have hvalid : c.val.toNat.isValidChar := c.valid
  unfold String.utf8EncodeChar
  generalize c.val.toNat = n at h hvalid
  dsimp only
  rw [if_neg (by omega)]
  split_ifs with htwo hthree
  · exact announce_two h htwo
  · exact announce_three (by omega) hthree hvalid
  · have hhigh : n < 1114112 := by
      rcases hvalid with hvalid | hvalid <;> omega
    exact announce_four (by omega) hhigh

/-! ### Texts -/

theorem utf8EncodeChar_one {b : UInt8} (hb : b < 0x80) :
    String.utf8EncodeChar (Char.ofNat b.toNat) = [b] := by
  have hlow : b.toNat < 128 := hb
  rw [utf8EncodeChar_ofNat (Or.inl (by omega)), if_pos (by omega), UInt8.ofNat_toNat]

/-- A character of ASCII is encoded as the byte of its number. -/
theorem exists_byte {c : Char} (h : c.val.toNat < 128) :
    ∃ b : UInt8, b < 0x80 ∧ c = Char.ofNat b.toNat := by
  have hvalue : (UInt8.ofNat c.val.toNat).toNat = c.val.toNat := by
    rw [UInt8.toNat_ofNat', Nat.mod_eq_of_lt (by omega)]
  refine ⟨UInt8.ofNat c.val.toNat, ?_, ?_⟩
  · rw [UInt8.lt_iff_toNat_lt, hvalue]
    exact h
  · rw [hvalue]
    exact (Char.ofNat_toNat c).symm

/-- The bytes of a text are decoded as the text. -/
theorem decode?_encode (cs : List Char) : decode? (encode cs) = some cs := by
  rw [decode?]
  induction cs with
  | nil => rfl
  | cons c cs ih =>
    show decodeFrom none (String.utf8EncodeChar c ++ encode cs) = some (c :: cs)
    by_cases hascii : c.val.toNat < 128
    · obtain ⟨b, hb, rfl⟩ := exists_byte hascii
      rw [utf8EncodeChar_one hb, List.singleton_append, decodeFrom, if_pos hb, ih]
      rfl
    · obtain ⟨b, tail, p, hbytes, hhigh, hlead, hcompletes⟩ :=
        announce_utf8EncodeChar (Nat.le_of_not_lt hascii)
      have hb : ¬ b < 0x80 := Nat.not_lt.mpr hhigh
      rw [hbytes, List.cons_append, decodeFrom, if_neg hb, hlead]
      refine decodeFrom_some_eq_some_iff.mpr ⟨tail, _, encode cs, cs, rfl, hcompletes, ih, ?_⟩
      exact congrArg (· :: cs) (Char.ofNat_toNat c).symm

/-- Bytes that can be decoded are those of the text that they are decoded as. -/
theorem encode_of_decode? {bytes : List UInt8} {cs : List Char} (h : decode? bytes = some cs) :
    encode cs = bytes := by
  rw [decode?] at h
  -- one character at a time: what is left is shorter than the bytes of which it is the rest
  induction hlength : bytes.length using Nat.strongRecOn generalizing bytes cs with
  | _ length ih =>
    cases bytes with
    | nil =>
      cases h
      rfl
    | cons b rest =>
      rw [List.length_cons] at hlength
      rw [decodeFrom] at h
      split at h
      · rename_i hascii
        obtain ⟨ds, hds, rfl⟩ := Option.map_eq_some_iff.mp h
        have hrest : encode ds = rest := ih rest.length (by omega) hds rfl
        show String.utf8EncodeChar (Char.ofNat b.toNat) ++ encode ds = b :: rest
        rw [utf8EncodeChar_one hascii, hrest]
        rfl
      split at h
      · cases h
      · rename_i p hlead
        obtain ⟨tail, n, rest, ds, rfl, hcompletes, hds, rfl⟩ := decodeFrom_some_eq_some_iff.mp h
        rw [List.length_append] at hlength
        have hrest : encode ds = rest := ih rest.length (by omega) hds rfl
        show String.utf8EncodeChar (Char.ofNat n) ++ encode ds = b :: (tail ++ rest)
        rw [utf8EncodeChar_of_completes hlead hcompletes, hrest]
        rfl

/-- Bytes are decoded as the text whose bytes they are. -/
theorem decode?_eq_some_iff {bytes : List UInt8} {cs : List Char} :
    decode? bytes = some cs ↔ encode cs = bytes :=
  ⟨encode_of_decode?, fun h => h ▸ decode?_encode cs⟩

/-- Bytes can be decoded if they are those of a text. -/
theorem isSome_decode?_iff {bytes : List UInt8} :
    (decode? bytes).isSome = true ↔ ∃ cs, encode cs = bytes := by
  rw [Option.isSome_iff_exists]
  simp only [decode?_eq_some_iff]

end AppReport.Text
