import AppReport.Text.Utf8
import AppReport.Value

/-!
# Writing JSON

`write` puts a value on one line: fields in their order, a blank after every comma and colon, and
characters as themselves unless they are a quote, a backslash or below U+0020.
-/

namespace AppReport.Json

open Number Text

/-- One character of a text. -/
def writeChar (c : Char) : List Char :=
  if c = '"' then ['\\', '"']
  else if c = '\\' then ['\\', '\\']
  else if c = '\n' then ['\\', 'n']
  else if c = '\r' then ['\\', 'r']
  else if c = '\t' then ['\\', 't']
  else if c = '\x0c' then ['\\', 'f']
  else if c = '\x08' then ['\\', 'b']
  else if c < ' ' then '\\' :: 'u' :: hexDigits 4 c.toNat
  else [c]

/-- A text between quotes. -/
def writeText (cs : List Char) : List Char := '"' :: (cs.flatMap writeChar ++ ['"'])

/-- A number that may be none or infinite. -/
def writeFloat (x : Binary64) : List Char :=
  match x with
  | .nan => "NaN".toList
  | .infinite s => signed s "Infinity".toList
  | x => x.text

mutual

/-- A value on one line. Bytes are written as the text that they encode. -/
def writeValue : Value → List Char
  | .null => "null".toList
  | .bool b => (if b then "true" else "false").toList
  | .int n => intText n
  | .float x => writeFloat x
  | .text s => writeText s.toList
  | .bytes b => writeText (decodeLossy b)
  | .list items => '[' :: (writeItems items ++ [']'])
  | .object fields => '\x7b' :: (writeFields fields ++ ['\x7d'])

/-- The items of a list, after commas. -/
def writeItems : List Value → List Char
  | [] => []
  | [v] => writeValue v
  | v :: rest => writeValue v ++ ',' :: ' ' :: writeItems rest

/-- The fields of an object, after commas. -/
def writeFields : List (String × Value) → List Char
  | [] => []
  | [(k, v)] => writeText k.toList ++ ':' :: ' ' :: writeValue v
  | (k, v) :: rest =>
    writeText k.toList ++ ':' :: ' ' :: writeValue v ++ ',' :: ' ' :: writeFields rest

end

/-- A value as one line of text. -/
def write (v : Value) : String := String.ofList (writeValue v)

end AppReport.Json
