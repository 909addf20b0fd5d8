import AppReport.Text.Quoted
import AppReport.Text.Utf8

/-!
# Percent encoding

Characters that may not stand in an address are written as `%` and the two hexadecimal digits of
each of their bytes.
-/

namespace AppReport.Percent

open Text

/-- The letters of ASCII and the decimal digits. -/
def isAlphanumeric (c : Char) : Bool := c.isAlphanum

/-- The characters that are never written as escapes: letters, digits and `-._~`. -/
def isUnreserved (c : Char) : Bool :=
  isAlphanumeric c || c == '-' || c == '.' || c == '_' || c == '~'

/-- An upper-case hexadecimal digit. -/
def upperHexDigit (n : Nat) : Char := (hexDigit n).toUpper

/-- One byte as an escape. -/
def escape (b : UInt8) : List Char :=
  ['%', upperHexDigit (b.toNat / 16), upperHexDigit (b.toNat % 16)]

/-- Bytes with an escape for each that is not kept. -/
def encodeBytes (keep : Char → Bool) (bytes : List UInt8) : List Char :=
  bytes.flatMap fun b =>
    let c := Char.ofNat b.toNat
    if b < 0x80 && keep c then [c] else escape b

/-- A text with escapes for the bytes of each character that is not kept. -/
def encode (keep : Char → Bool) (cs : List Char) : List Char := encodeBytes keep (Text.encode cs)

/-- Bytes as a part of a form: a blank is written `+`. -/
def encodeForm (bytes : List UInt8) : List Char :=
  bytes.flatMap fun b =>
    let c := Char.ofNat b.toNat
    if b = 0x20 then ['+']
    else if b < 0x80 && isUnreserved c then [c]
    else escape b

/-- Whether a character is a hexadecimal digit. -/
def isHexDigit (c : Char) : Bool :=
  c.isDigit || ('a' ≤ c && c ≤ 'f') || ('A' ≤ c && c ≤ 'F')

/-- The value of a hexadecimal digit; other characters count as zero. -/
def hexDigitValue (c : Char) : Nat :=
  if c.isDigit then c.toNat - 48
  else if 'a' ≤ c && c ≤ 'f' then c.toNat - 87
  else if 'A' ≤ c && c ≤ 'F' then c.toNat - 55
  else 0

/-- Whether every `%` begins an escape. -/
def allEscapes : List Char → Bool
  | [] => true
  | '%' :: a :: b :: rest => isHexDigit a && isHexDigit b && allEscapes (a :: b :: rest)
  | '%' :: _ => false
  | _ :: rest => allEscapes rest

/-- A text whose escapes have upper-case digits. -/
def upperEscapes : List Char → List Char
  | [] => []
  | '%' :: a :: b :: rest =>
    if isHexDigit a && isHexDigit b then '%' :: a.toUpper :: b.toUpper :: upperEscapes rest
    else '%' :: upperEscapes (a :: b :: rest)
  | c :: rest => c :: upperEscapes rest

/-- A part of an address in which only certain characters stand as themselves. Escapes stay if
every `%` belongs to one. -/
def normalize (keep : Char → Bool) (cs : List Char) : List Char :=
  let escaped := allEscapes cs
  encode (fun c => keep c || (escaped && c == '%')) (upperEscapes cs)

/-- A text without the escapes of characters that need none; nothing if a `%` is followed by two
letters or digits that are no number. -/
def unescapeUnreserved? : List Char → Option (List Char)
  | [] => some []
  | '%' :: a :: b :: rest =>
    if isAlphanumeric a && isAlphanumeric b then
      if isHexDigit a && isHexDigit b then
        let c := Char.ofNat (16 * hexDigitValue a + hexDigitValue b)
        if isUnreserved c then (unescapeUnreserved? rest).map (c :: ·)
        else (unescapeUnreserved? rest).map fun cs => '%' :: a :: b :: cs
      else none
    else (unescapeUnreserved? (a :: b :: rest)).map ('%' :: ·)
  | c :: rest => (unescapeUnreserved? rest).map (c :: ·)

/-- The reserved characters that an address may hold. -/
def isReserved (c : Char) : Bool := "!#$&'()*+,/:;=?@[]~".toList.contains c

/-- A whole address in which every character that may not stand in one is written as an escape. -/
def requote (cs : List Char) : List Char :=
  match unescapeUnreserved? cs with
  | some cs => encode (fun c => isUnreserved c || isReserved c || c == '%') cs
  | none => encode (fun c => isUnreserved c || isReserved c) cs

end AppReport.Percent
