import AppReport.Number.Literal
import AppReport.Text.Utf8
import AppReport.Value

/-!
# Reading JSON

`read` turns a text into a value or says where and why it is no JSON document. Three things beyond
the grammar decide: `NaN` and the infinities are numbers, an integer may have at most
`maxDigits` digits, and containers may nest at most `deepest` deep.

The readers take the characters that are left and return what they leave; an error holds how many
characters were left where it arose (`Break`), and only `read` turns that into a place.
-/

namespace AppReport.Json

open Number Text

/-- What is wrong with the text of a document. -/
inductive Problem where
  | expectedValue
  | expectedName
  | expectedColon
  | expectedComma
  | extraData
  | unterminatedText
  | controlCharacter
  | badEscape
  | badUnicodeEscape
  | byteOrderMark
  deriving DecidableEq

/-- The words for a problem. -/
def Problem.words : Problem → String
  | expectedValue => "Expecting value"
  | expectedName => "Expecting property name enclosed in double quotes"
  | expectedColon => "Expecting ':' delimiter"
  | expectedComma => "Expecting ',' delimiter"
  | extraData => "Extra data"
  | unterminatedText => "Unterminated string starting at"
  | controlCharacter => "Invalid control character at"
  | badEscape => "Invalid \\escape"
  | badUnicodeEscape => "Invalid \\uXXXX escape"
  | byteOrderMark => "Unexpected UTF-8 BOM (decode using utf-8-sig)"

/-- Why a document cannot be read. -/
inductive ReadError where
  /-- The text breaks the grammar at a place, which counts characters from zero. -/
  | malformed (problem : Problem) (place line column : Nat)
  /-- An integer has more digits than can be read. -/
  | tooManyDigits (count : Nat)
  /-- The containers nest too deep. -/
  | tooDeep
  deriving DecidableEq

/-- The greatest number of containers around a value that is read. -/
def deepest : Nat := 986

/-- An error inside a text of which `left` characters remain from the place of the error on. -/
inductive Break where
  | malformed (problem : Problem) (left : Nat)
  | tooManyDigits (count : Nat)
  | tooDeep

/-- What a reader finds, and the characters that it leaves. -/
abbrev Reading (α : Type) := Except Break (α × List Char)

/-- Breaks off in front of `rest`. -/
def stop {α : Type} (problem : Problem) (rest : List Char) : Reading α :=
  .error (.malformed problem rest.length)

/-- The blanks between the parts of a document. -/
def isSpace (c : Char) : Bool := c == ' ' || c == '\t' || c == '\n' || c == '\r'

/-- A text from its first character on that is no blank. -/
def skipSpace (cs : List Char) : List Char := cs.dropWhile isSpace

/-! ### Numbers -/

/-- The digits after a point, and what follows them; without a digit the point is no part of the
number. -/
def fraction (cs : List Char) : Option (List Char × List Char) :=
  match cs with
  | '.' :: rest =>
    let ds := rest.takeWhile Char.isDigit
    if ds.isEmpty then none else some (ds, rest.dropWhile Char.isDigit)
  | _ => none

/-- The integer part of a number: a zero alone, or digits that begin with another one. -/
def wholePart (cs : List Char) : Option (List Char × List Char) :=
  match cs with
  | '0' :: rest => some (['0'], rest)
  | c :: _ =>
    if c.isDigit then some (cs.takeWhile Char.isDigit, cs.dropWhile Char.isDigit) else none
  | [] => none

/-- A number without its sign. -/
def unsignedNumber (negative : Bool) (cs : List Char) : Option (Reading Value) :=
  match wholePart cs with
  | none => none
  | some (whole, rest) =>
    let (places, afterPlaces) := match fraction rest with
      | some (ds, rest) => (ds, rest)
      | none => ([], rest)
    match readExponent? afterPlaces with
    | some (e, rest) =>
      let x := Binary64.ofDecimal negative (ofDigits (whole ++ places)) (e - places.length)
      some (.ok (.float x, rest))
    | none =>
      if !places.isEmpty then
        some (.ok (.float (.ofDecimal negative (ofDigits (whole ++ places)) (-places.length)),
          afterPlaces))
      else if maxDigits < whole.length then some (.error (.tooManyDigits whole.length))
      else
        let n : Int := ofDigits whole
        some (.ok (.int (if negative then -n else n), rest))

/-- A number, if one begins here. -/
def number (cs : List Char) : Option (Reading Value) :=
  match cs with
  | '-' :: rest => unsignedNumber true rest
  | cs => unsignedNumber false cs

/-! ### Texts -/

/-- The value of a hexadecimal digit. -/
def hexValue (c : Char) : Option Nat :=
  if '0' ≤ c ∧ c ≤ '9' then some (c.toNat - 48)
  else if 'a' ≤ c ∧ c ≤ 'f' then some (c.toNat - 87)
  else if 'A' ≤ c ∧ c ≤ 'F' then some (c.toNat - 55)
  else none

/-- The number that four hexadecimal digits write. -/
def hexValue4 (a b c d : Char) : Option Nat := do
  pure (4096 * (← hexValue a) + 256 * (← hexValue b) + 16 * (← hexValue c) + (← hexValue d))

/-- The character for the letter of a short escape. -/
def shortEscape (c : Char) : Option Char :=
  match c with
  | '"' => some '"'
  | '\\' => some '\\'
  | '/' => some '/'
  | 'b' => some '\x08'
  | 'f' => some '\x0c'
  | 'n' => some '\n'
  | 'r' => some '\r'
  | 't' => some '\t'
  | _ => none

/-- The first half of a pair that makes one character. -/
def isHighHalf (n : Nat) : Bool := 0xd800 ≤ n && n < 0xdc00

/-- The second half of a pair that makes one character. -/
def isLowHalf (n : Nat) : Bool := 0xdc00 ≤ n && n < 0xe000

/-- The character with a number. A half of a pair on its own is no character, and no text has one;
U+FFFD stands for it here. -/
def charOfNumber (n : Nat) : Char := if n.isValidChar then Char.ofNat n else replacement

/-- The character that two halves make. -/
def joinHalves (high low : Nat) : Char :=
  Char.ofNat (0x10000 + (high - 0xd800) * 0x400 + (low - 0xdc00))

/-- Puts a character in front of what a reader finds. -/
def Reading.cons (c : Char) : Reading (List Char) → Reading (List Char)
  | .ok (cs, rest) => .ok (c :: cs, rest)
  | .error e => .error e

/-- A half of a pair that no other half followed, in front of what a reader finds. -/
def Reading.flush (half : Option Nat) (r : Reading (List Char)) : Reading (List Char) :=
  match half with
  | none => r
  | some _ => r.cons replacement

/-- The characters of a text up to its closing quote; `start` characters are left from the opening
quote on, and `half` is the first half of a pair if one has just been read. -/
def readText (start : Nat) (half : Option Nat) : List Char → Reading (List Char)
  | [] => .error (.malformed .unterminatedText start)
  | '"' :: rest => .flush half (.ok ([], rest))
  | ['\\'] => .error (.malformed .unterminatedText start)
  | '\\' :: 'u' :: a :: b :: c :: d :: rest =>
    match hexValue4 a b c d, rest.isEmpty with
    | some n, false =>
      if isHighHalf n then .flush half (readText start (some n) rest)
      else
        match half, isLowHalf n with
        | some high, true => .cons (joinHalves high n) (readText start none rest)
        | _, _ => .flush half (.cons (charOfNumber n) (readText start none rest))
    | _, _ => .error (.malformed .badUnicodeEscape (rest.length + 5))
  | '\\' :: 'u' :: rest => .error (.malformed .badUnicodeEscape (rest.length + 1))
  | '\\' :: c :: rest =>
    match shortEscape c with
    | some c => .flush half (.cons c (readText start none rest))
    | none => .error (.malformed .badEscape (rest.length + 2))
  | c :: rest =>
    if c < ' ' then .error (.malformed .controlCharacter (rest.length + 1))
    else .flush half (.cons c (readText start none rest))

/-! ### Values -/

/-- The items of a list up to its closing bracket. Each item takes a character, so `fuel` greater
than their number is enough. -/
def readItems (item : List Char → Reading Value) : (fuel : Nat) → List Char → Reading (List Value)
  | 0, cs => stop .expectedValue cs
  | fuel + 1, cs =>
    match item cs with
    | .error e => .error e
    | .ok (v, rest) =>
      match skipSpace rest with
      | ']' :: rest => .ok ([v], rest)
      | ',' :: rest =>
        match readItems item fuel (skipSpace rest) with
        | .error e => .error e
        | .ok (vs, rest) => .ok (v :: vs, rest)
      | rest => stop .expectedComma rest

/-- The fields of an object up to its closing brace, as they are written. -/
def readFields (item : List Char → Reading Value) :
    (fuel : Nat) → List Char → Reading (List (String × Value))
  | 0, cs => stop .expectedName cs
  | fuel + 1, cs =>
    match cs with
    | '"' :: rest =>
      match readText cs.length none rest with
      | .error e => .error e
      | .ok (key, rest) =>
        match skipSpace rest with
        | ':' :: rest =>
          match item (skipSpace rest) with
          | .error e => .error e
          | .ok (v, rest) =>
            match skipSpace rest with
            | '\x7d' :: rest => .ok ([(String.ofList key, v)], rest)
            | ',' :: rest =>
              match readFields item fuel (skipSpace rest) with
              | .error e => .error e
              | .ok (fields, rest) => .ok ((String.ofList key, v) :: fields, rest)
            | rest => stop .expectedComma rest
        | rest => stop .expectedColon rest
    | _ => stop .expectedName cs

/-- A list or an object; its opening bracket has been read. -/
def readContainer (item : List Char → Reading Value) (isList : Bool) (cs : List Char) :
    Reading Value :=
  match isList, skipSpace cs with
  | true, ']' :: rest => .ok (.list [], rest)
  | true, cs =>
    match readItems item (cs.length + 1) cs with
    | .error e => .error e
    | .ok (items, rest) => .ok (.list items, rest)
  | false, '\x7d' :: rest => .ok (.object [], rest)
  | false, cs =>
    match readFields item (cs.length + 1) cs with
    | .error e => .error e
    | .ok (pairs, rest) => .ok (.object (Fields.ofPairs pairs), rest)

/-- A value that is no container. -/
def readScalar (cs : List Char) : Reading Value :=
  match cs with
  | '"' :: rest =>
    match readText cs.length none rest with
    | .error e => .error e
    | .ok (s, rest) => .ok (.text (String.ofList s), rest)
  | 'n' :: 'u' :: 'l' :: 'l' :: rest => .ok (.null, rest)
  | 't' :: 'r' :: 'u' :: 'e' :: rest => .ok (.bool true, rest)
  | 'f' :: 'a' :: 'l' :: 's' :: 'e' :: rest => .ok (.bool false, rest)
  | 'N' :: 'a' :: 'N' :: rest => .ok (.float .nan, rest)
  | 'I' :: 'n' :: 'f' :: 'i' :: 'n' :: 'i' :: 't' :: 'y' :: rest =>
    .ok (.float (.infinite false), rest)
  | '-' :: 'I' :: 'n' :: 'f' :: 'i' :: 'n' :: 'i' :: 't' :: 'y' :: rest =>
    .ok (.float (.infinite true), rest)
  | cs => (number cs).getD (stop .expectedValue cs)

/-- A value with at most `depth` containers around any part of it. -/
def readValue : (depth : Nat) → List Char → Reading Value
  | 0, '[' :: _ => .error .tooDeep
  | 0, '\x7b' :: _ => .error .tooDeep
  | depth + 1, '[' :: rest => readContainer (readValue depth) true rest
  | depth + 1, '\x7b' :: rest => readContainer (readValue depth) false rest
  | _, cs => readScalar cs

/-- A whole document: one value with blanks around it. -/
def readDocument (cs : List Char) : Except Break Value :=
  match cs with
  | '\uFEFF' :: _ => .error (.malformed .byteOrderMark cs.length)
  | cs =>
    match readValue deepest (skipSpace cs) with
    | .error e => .error e
    | .ok (v, rest) =>
      match skipSpace rest with
      | [] => .ok v
      | rest => .error (.malformed .extraData rest.length)

/-- An error with its place in the text. Lines count from one, and so do columns. -/
def Break.locate (cs : List Char) : Break → ReadError
  | .malformed problem left =>
    let place := cs.length - left
    let before := cs.take place
    let lineStart := (before.reverse.takeWhile (· ≠ '\n')).length
    .malformed problem place (before.count '\n' + 1) (lineStart + 1)
  | .tooManyDigits count => .tooManyDigits count
  | .tooDeep => .tooDeep

/-- Reads a document. -/
def read (text : String) : Except ReadError Value :=
  match readDocument text.toList with
  | .ok v => .ok v
  | .error e => .error (e.locate text.toList)

/-- The message of a reading error. -/
def ReadError.message : ReadError → String
  | malformed problem place line column =>
    problem.words ++ ": line " ++ toString line ++ " column " ++ toString column ++ " (char "
      ++ toString place ++ ")"
  | tooManyDigits count =>
    "Exceeds the limit (" ++ toString maxDigits
      ++ " digits) for integer string conversion: value has " ++ toString count
      ++ " digits; use sys.set_int_max_str_digits() to increase the limit"
  | tooDeep => "maximum recursion depth exceeded while decoding a JSON array from a unicode string"

end AppReport.Json
