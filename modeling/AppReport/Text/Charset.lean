import AppReport.Text.Utf8

/-!
# Character sets

The encodings in which the text of a response may come. `Charset.guess` tells the encodings of
Unicode apart by the first four bytes of a document, which begins with two characters of ASCII.
-/

namespace AppReport.Text

/-- An encoding of text. In the wider encodings of Unicode the order of the bytes is fixed or told
by a mark at the start. -/
inductive Charset where
  | utf8
  | utf8Marked
  | latin1
  | latin9
  | windows1252
  | ascii
  | utf16 (bigEndian : Option Bool)
  | utf32 (bigEndian : Option Bool)
  deriving DecidableEq

namespace Charset

/-- The encoding with a name; case, and which of `-`, `_` and blank is used, make no difference. -/
def ofName? (name : String) : Option Charset :=
  let plain := name.toList.map fun c => if c = '_' ∨ c = ' ' then '-' else c.toLower
  match String.ofList plain with
  | "utf-8" | "utf8" | "utf" | "u8" | "cp65001" => some .utf8
  | "utf-8-sig" => some .utf8Marked
  | "iso-8859-1" | "iso8859-1" | "iso8859" | "latin-1" | "latin1" | "latin" | "l1" | "8859"
  | "cp819" => some .latin1
  | "iso-8859-15" | "iso8859-15" | "latin9" | "l9" => some .latin9
  | "windows-1252" | "cp1252" | "1252" => some .windows1252
  | "ascii" | "us-ascii" | "646" => some .ascii
  | "utf-16" | "utf16" | "u16" => some (.utf16 none)
  | "utf-16-le" | "utf-16le" => some (.utf16 (some false))
  | "utf-16-be" | "utf-16be" => some (.utf16 (some true))
  | "utf-32" | "utf32" | "u32" => some (.utf32 none)
  | "utf-32-le" | "utf-32le" => some (.utf32 (some false))
  | "utf-32-be" | "utf-32be" => some (.utf32 (some true))
  | _ => none

/-- The characters of the bytes from `0x80` to `0x9f` in the set that puts signs there, and zero for
the bytes that are no character. -/
def windowsSigns : List Nat :=
  [0x20ac, 0, 0x201a, 0x192, 0x201e, 0x2026, 0x2020, 0x2021, 0x2c6, 0x2030, 0x160, 0x2039, 0x152,
    0, 0x17d, 0, 0, 0x2018, 0x2019, 0x201c, 0x201d, 0x2022, 0x2013, 0x2014, 0x2dc, 0x2122, 0x161,
    0x203a, 0x153, 0, 0x17e, 0x178]

/-- The character of a byte in the set that puts signs between the controls and the letters. -/
def windowsChar (b : UInt8) : Option Char :=
  if b < 0x80 || 0x9f < b then some (Char.ofNat b.toNat)
  else
    match windowsSigns[b.toNat - 0x80]? with
    | none | some 0 => none
    | some n => some (Char.ofNat n)

/-- The characters of the ninth Latin set that differ from those of the first. -/
def latin9Char (b : UInt8) : Char :=
  match b with
  | 0xa4 => '€'
  | 0xa6 => 'Š'
  | 0xa8 => 'š'
  | 0xb4 => 'Ž'
  | 0xb8 => 'ž'
  | 0xbc => 'Œ'
  | 0xbd => 'œ'
  | 0xbe => 'Ÿ'
  | b => Char.ofNat b.toNat

/-- The numbers that pairs of bytes write; a single byte at the end is no number. -/
def units16 (bigEndian : Bool) : List UInt8 → List (Option Nat)
  | [] => []
  | [_] => [none]
  | a :: b :: rest =>
    some (if bigEndian then 256 * a.toNat + b.toNat else 256 * b.toNat + a.toNat)
      :: units16 bigEndian rest

/-- The characters that units of 16 bits write, and nothing for a unit that is none. -/
def chars16 : List (Option Nat) → List (Option Char)
  | [] => []
  | none :: rest => none :: chars16 rest
  | some n :: some m :: rest =>
    if n.isValidChar then some (Char.ofNat n) :: chars16 (some m :: rest)
    else if n < 0xdc00 ∧ 0xdc00 ≤ m ∧ m < 0xe000 then
      some (Char.ofNat (0x10000 + (n - 0xd800) * 0x400 + (m - 0xdc00))) :: chars16 rest
    else none :: chars16 (some m :: rest)
  | some n :: rest =>
    (if n.isValidChar then some (Char.ofNat n) else none) :: chars16 rest

/-- The characters that groups of four bytes write. -/
def chars32 (bigEndian : Bool) : List UInt8 → List (Option Char)
  | [] => []
  | a :: b :: c :: d :: rest =>
    let value := fun (w x y z : UInt8) =>
      ((w.toNat * 256 + x.toNat) * 256 + y.toNat) * 256 + z.toNat
    let n := if bigEndian then value a b c d else value d c b a
    (if n.isValidChar then some (Char.ofNat n) else none) :: chars32 bigEndian rest
  | _ => [none]

/-- The characters of bytes, and nothing for what is no character. -/
def chars (charset : Charset) (bytes : List UInt8) : List (Option Char) :=
  match charset with
  | utf8 =>
    match decode? bytes with
    | some cs => cs.map some
    | none => (decodeLossy bytes).map fun c => if c = replacement then none else some c
  | utf8Marked =>
    let bytes := match bytes with
      | 0xef :: 0xbb :: 0xbf :: rest => rest
      | _ => bytes
    match decode? bytes with
    | some cs => cs.map some
    | none => (decodeLossy bytes).map fun c => if c = replacement then none else some c
  | latin1 => bytes.map fun b => some (Char.ofNat b.toNat)
  | latin9 => bytes.map fun b => some (latin9Char b)
  | windows1252 => bytes.map windowsChar
  | ascii => bytes.map fun b => if b < 0x80 then some (Char.ofNat b.toNat) else none
  | utf16 (some bigEndian) => chars16 (units16 bigEndian bytes)
  | utf16 none =>
    match bytes with
    | 0xfe :: 0xff :: rest => chars16 (units16 true rest)
    | 0xff :: 0xfe :: rest => chars16 (units16 false rest)
    | _ => chars16 (units16 false bytes)
  | utf32 (some bigEndian) => chars32 bigEndian bytes
  | utf32 none =>
    match bytes with
    | 0 :: 0 :: 0xfe :: 0xff :: rest => chars32 true rest
    | 0xff :: 0xfe :: 0 :: 0 :: rest => chars32 false rest
    | _ => chars32 false bytes

/-- The text of bytes, if all of them belong to characters. -/
def decode? (charset : Charset) (bytes : List UInt8) : Option (List Char) :=
  let found := charset.chars bytes
  if found.all Option.isSome then some (found.filterMap id) else none

/-- The text of bytes, with U+FFFD for what is no character. -/
def decodeLossy (charset : Charset) (bytes : List UInt8) : List Char :=
  (charset.chars bytes).map fun c => c.getD replacement

/-- The encoding that the first four bytes of a document point to: a mark at the start, or else
which of the bytes are zero. -/
def guess (bytes : List UInt8) : Option Charset :=
  match bytes with
  | 0xff :: 0xfe :: 0 :: 0 :: _ => some (.utf32 none)
  | 0 :: 0 :: 0xfe :: 0xff :: _ => some (.utf32 none)
  | 0xef :: 0xbb :: 0xbf :: _ => some .utf8Marked
  | 0xff :: 0xfe :: _ => some (.utf16 none)
  | 0xfe :: 0xff :: _ => some (.utf16 none)
  | a :: b :: c :: d :: _ =>
    match a == 0, b == 0, c == 0, d == 0 with
    | false, false, false, false => some .utf8
    | true, false, true, false => some (.utf16 (some true))
    | false, true, false, true => some (.utf16 (some false))
    | true, true, true, false => some (.utf32 (some true))
    | false, true, true, true => some (.utf32 (some false))
    | _, _, _, _ => none
  | _ => none

end Charset

end AppReport.Text
