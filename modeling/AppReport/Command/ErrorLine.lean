import AppReport.Text.Blank
import AppReport.Text.Pieces

/-!
# The line for an error

A message is printed with square brackets as they are, although some of them look like tags for
styles; around those the line is put together from pieces (`styledPieces`). In each piece the names
of pictures between colons become pictures, controls that move the cursor are left out, and tabs
become spaces up to the next stop. Which names there are, and how wide characters are, is up to the
console (`Console`).
-/

namespace AppReport.Command

open Text

/-- What a console that shows a line knows of pictures and of the width of characters. -/
structure Console where
  /-- The picture with a name, whatever the case of its letters. -/
  picture? : List Char → Option (List Char)
  /-- The number of columns that a character takes. -/
  columnsOf : Char → Nat

/-! ### Pieces -/

/-- Whether a tag for styles may begin with a character. -/
def beginsTag (c : Char) : Bool := c.isLower || c == '#' || c == '/' || c == '@'

/-- The number of characters up to the bracket that closes a tag. -/
def tagEnd? : List Char → Option Nat
  | [] => none
  | c :: rest =>
    if c = ']' then some 1 else if c = '[' then none else (tagEnd? rest).map (· + 1)

/-- The number of characters of a tag that begins here. -/
def tagLength? (cs : List Char) : Option Nat :=
  match cs with
  | '[' :: c :: rest => if beginsTag c then (tagEnd? rest).map (· + 2) else none
  | _ => none

/-- A stretch of backslashes and the tag after it, by their numbers of characters. -/
def escapedTag? (cs : List Char) : Option (Nat × Nat) :=
  let slashes := (cs.takeWhile (· = '\\')).length
  (tagLength? (cs.dropWhile (· = '\\'))).map fun length => (slashes, length)

/-- The pieces between and around the tags of a text; `piece` is what has been read of the present
one, and `skip` the number of characters that have been read ahead. -/
def piecesFrom (piece : List Char) : (skip : Nat) → List Char → List (List Char)
  | _, [] => [piece]
  | skip + 1, _ :: rest => piecesFrom piece skip rest
  | 0, c :: rest =>
    match escapedTag? (c :: rest) with
    | some (slashes, length) =>
      piece :: (c :: rest).take slashes :: ((c :: rest).drop slashes).take length
        :: piecesFrom [] (slashes + length - 1) rest
    | none => piecesFrom (piece ++ [c]) 0 rest

/-- A piece in which a backslash before a bracket is left out. -/
def withoutBracketEscapes : List Char → List Char
  | '\\' :: '[' :: rest => '[' :: withoutBracketEscapes rest
  | c :: rest => c :: withoutBracketEscapes rest
  | [] => []

/-- The pieces of a message. A single backslash at its end is doubled. -/
def styledPieces (cs : List Char) : List (List Char) :=
  let cs := match cs.reverse with
    | '\\' :: '\\' :: _ => cs
    | '\\' :: _ => cs ++ ['\\']
    | _ => cs
  (piecesFrom [] 0 cs).map withoutBracketEscapes

/-! ### Pictures -/

/-- The ends of names that choose how a picture is shown, with the characters for it. -/
def pictureForms : List (String × Char) := [("-emoji:", '\ufe0f'), ("-text:", '\ufe0e')]

/-- A name up to the colon that ends it: its characters, the character for its form, and the number
of characters up to and with the colon. -/
def pictureName? : List Char → Option (List Char × List Char × Nat)
  | [] => none
  | c :: rest =>
    match pictureForms.find? fun (ending, _) => ending.toList.isPrefixOf (c :: rest) with
    | some (ending, form) => some ([], [form], ending.length)
    | none =>
      if c = ':' then some ([], [], 1)
      else if isBlank c then none
      else (pictureName? rest).map fun (name, form, length) => (c :: name, form, length + 1)

/-- A text with pictures for their names; what stands between two colons and names no picture
stays. -/
def withPicturesFrom (console : Console) : (skip : Nat) → List Char → List Char
  | _, [] => []
  | skip + 1, _ :: rest => withPicturesFrom console skip rest
  | 0, c :: rest =>
    if c = ':' then
      match pictureName? rest with
      | none => c :: withPicturesFrom console 0 rest
      | some (name, form, length) =>
        match console.picture? name with
        | some picture => picture ++ form ++ withPicturesFrom console length rest
        | none => c :: (rest.take length ++ withPicturesFrom console length rest)
    else c :: withPicturesFrom console 0 rest

/-- A text with pictures for their names. -/
def withPictures (console : Console) (cs : List Char) : List Char := withPicturesFrom console 0 cs

/-! ### Controls and tabs -/

/-- Whether a character moves the cursor in a way that is left out. -/
def isLeftOut (c : Char) : Bool :=
  c == '\x07' || c == '\x08' || c == '\x0b' || c == '\x0c' || c == '\r'

/-- The distance between the stops of tabs. -/
def tabStop : Nat := 8

/-- A text with spaces for tabs, the first character of which stands in a column. -/
def withoutTabsFrom (console : Console) (column : Nat) : List Char → List Char
  | [] => []
  | c :: rest =>
    if c = '\n' then c :: withoutTabsFrom console 0 rest
    else if c = '\t' then
      let width := tabStop - column % tabStop
      List.replicate width ' ' ++ withoutTabsFrom console (column + width) rest
    else c :: withoutTabsFrom console (column + console.columnsOf c) rest

/-! ### The line -/

/-- What stands before a message. -/
def errorMark : String := "Error:"

/-- The line for an error on a console. -/
def errorLine (console : Console) (message : String) : List Char :=
  let pieces := (styledPieces (' ' :: message.toList)).map fun piece =>
    (withPictures console piece).filter fun c => !isLeftOut c
  withoutTabsFrom console 0 (errorMark.toList ++ pieces.flatten) ++ ['\n']

/-! ### A plain console -/

/-- The ranges of characters that take no column. -/
def narrowRanges : List (Nat × Nat) :=
  [(0, 0x1f), (0x7f, 0x9f), (0x300, 0x36f), (0x483, 0x489), (0x591, 0x5bd), (0x610, 0x61a),
    (0x64b, 0x65f), (0x200b, 0x200f), (0x2028, 0x202e), (0x2060, 0x2063), (0x20d0, 0x20f0),
    (0xfe00, 0xfe0f), (0xfe20, 0xfe2f), (0xe0100, 0xe01ef)]

/-- The ranges of characters that take two columns. -/
def wideRanges : List (Nat × Nat) :=
  [(0x1100, 0x115f), (0x231a, 0x231b), (0x2e80, 0x303e), (0x3041, 0x33ff), (0x3400, 0x4dbf),
    (0x4e00, 0xa4cf), (0xa960, 0xa97c), (0xac00, 0xd7a3), (0xf900, 0xfaff), (0xfe10, 0xfe19),
    (0xfe30, 0xfe6b), (0xff01, 0xff60), (0xffe0, 0xffe6), (0x1f300, 0x1f64f), (0x1f680, 0x1f6ff),
    (0x1f900, 0x1f9ff), (0x20000, 0x3fffd)]

/-- Whether a character lies in one of some ranges. -/
def liesIn (ranges : List (Nat × Nat)) (c : Char) : Bool :=
  ranges.any fun (low, high) => low ≤ c.toNat && c.toNat ≤ high

/-- A console that knows a few names of pictures only. -/
def Console.plain : Console where
  picture? name :=
    [("smile", [Char.ofNat 0x1f604]), ("rocket", [Char.ofNat 0x1f680])].lookup
      (String.ofList (name.map Char.toLower))
  columnsOf c := if liesIn narrowRanges c then 0 else if liesIn wideRanges c then 2 else 1

end AppReport.Command
