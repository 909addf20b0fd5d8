import AppReport.Number.Shortest
import AppReport.Text.Quoted

/-!
# Untyped values

`Value` is what a JSON document, a stored column or an option of the command line can hold. An
object keeps its fields in order, and each key once (`Fields.put`). `Value.shown` is the text of a
value in messages, log lines and query parameters.

Texts and keys consist of characters, and half of a surrogate pair is none. Such a half can be named
in a document, but it cannot be encoded, and a document in which a key or a text has one cannot be
written as it is. Values with such texts are left out here, and what is said of all values is not
said of them.
-/

namespace AppReport

open Number Text

/-- An untyped value. -/
inductive Value where
  | null
  | bool (b : Bool)
  | int (n : Int)
  | float (x : Binary64)
  | text (s : String)
  | bytes (b : List UInt8)
  | list (items : List Value)
  | object (fields : List (String × Value))
  deriving Inhabited

/-- The first pair either has the key or is passed over. -/
theorem lookup_cons_ite {α : Type} (key first : String) (a : α) (rest : List (String × α)) :
    ((first, a) :: rest).lookup key = if key = first then some a else rest.lookup key := by
  by_cases h : key = first
  · simp [h]
  · have hbeq : (key == first) = false := by simpa using h
    simp [List.lookup_cons, hbeq, h]

/-- The fields of an object, in order. -/
abbrev Fields := List (String × Value)

namespace Fields

/-- The value of a key. -/
def get? (fields : Fields) (key : String) : Option Value := fields.lookup key

/-- The value of a key, or `null`. -/
def getD (fields : Fields) (key : String) : Value := (fields.get? key).getD .null

/-- Sets a key: a new one goes to the end, an old one keeps its place. -/
def put (key : String) (value : Value) : Fields → Fields
  | [] => [(key, value)]
  | (k, v) :: rest => if k = key then (k, value) :: rest else (k, v) :: put key value rest

/-- The fields of an object written with repeated keys: the first place and the last value of each
key count. -/
def ofPairs (pairs : List (String × Value)) : Fields :=
  pairs.foldl (fun fields (k, v) => put k v fields) []

end Fields

namespace Value

/-- Whether a value counts as set: everything but `null`, `false`, zero, and what is empty. -/
def isSet : Value → Bool
  | null => false
  | bool b => b
  | int n => n ≠ 0
  | float x => !x.isZero
  | text s => s ≠ ""
  | bytes b => !b.isEmpty
  | list items => !items.isEmpty
  | object fields => !fields.isEmpty

/-- A value that is set, or the empty text. -/
def orEmpty (v : Value) : Value := if v.isSet then v else text ""

mutual

/-- A value inside a list or an object: texts are quoted. -/
def inner : Value → List Char
  | null => "None".toList
  | bool b => (if b then "True" else "False").toList
  | int n => intText n
  | float x => x.text
  | text s => quoted s.toList
  | bytes b => quotedBytes b
  | list items => '[' :: (innerItems items ++ [']'])
  | object fields => '\x7b' :: (innerFields fields ++ ['\x7d'])

/-- The items of a list, after commas. -/
def innerItems : List Value → List Char
  | [] => []
  | [v] => v.inner
  | v :: rest => v.inner ++ ',' :: ' ' :: innerItems rest

/-- The fields of an object, after commas. -/
def innerFields : List (String × Value) → List Char
  | [] => []
  | [(k, v)] => quoted k.toList ++ ':' :: ' ' :: v.inner
  | (k, v) :: rest => quoted k.toList ++ ':' :: ' ' :: v.inner ++ ',' :: ' ' :: innerFields rest

end

/-- The text of a value: a text is itself, and everything else is as inside a list. -/
def shown : Value → String
  | text s => s
  | v => String.ofList v.inner

end Value

end AppReport
