/-!
# Lines

A line ends with a line feed, a carriage return, or the two together; characters after the last
end make a line of their own. Terminal escapes, which change colours and styles, are taken out of
what is shown (`withoutEscapes`).
-/

namespace AppReport.Text

/-- The lines of a text of which `line` has been read of the present one, and whether the
character before was a carriage return. -/
def linesFrom (line : List Char) (afterReturn : Bool) : List Char → List (List Char)
  | [] => if line.isEmpty then [] else [line]
  | c :: rest =>
    if c = '\n' then
      if afterReturn then linesFrom [] false rest else line :: linesFrom [] false rest
    else if c = '\r' then line :: linesFrom [] true rest
    else linesFrom (line ++ [c]) false rest

/-- The lines of a text. -/
def lines (cs : List Char) : List (List Char) := linesFrom [] false cs

/-- The character that begins a terminal escape. -/
def escapeStart : Char := '\x1b'

/-- The characters between the bracket of a terminal escape and the letter at its end. -/
def isEscapeParameter (c : Char) : Bool := c.isDigit || c == ';' || c == '?'

/-- Takes terminal escapes out of a text; `held` is the part of an escape that has been read. -/
def withoutEscapesFrom (held : List Char) : List Char → List Char
  | [] => held
  | c :: rest =>
    match held with
    | [] => if c = escapeStart then withoutEscapesFrom [c] rest else c :: withoutEscapesFrom [] rest
    | [start] =>
      if c = '[' then withoutEscapesFrom [start, c] rest
      else if c = escapeStart then start :: withoutEscapesFrom [c] rest
      else start :: c :: withoutEscapesFrom [] rest
    | held =>
      if isEscapeParameter c then withoutEscapesFrom (held ++ [c]) rest
      else if c.isAlpha then withoutEscapesFrom [] rest
      else if c = escapeStart then held ++ withoutEscapesFrom [c] rest
      else held ++ c :: withoutEscapesFrom [] rest

/-- A text without terminal escapes. -/
def withoutEscapes (cs : List Char) : List Char := withoutEscapesFrom [] cs

end AppReport.Text
