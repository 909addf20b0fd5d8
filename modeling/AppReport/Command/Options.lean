import AppReport.Text.Quoted

/-!
# Options of a command line

An option has a long name after two hyphens and may have a short one of a single character after
one. Short options may be joined, and the value of an option follows in the same word or in the
next, whatever that looks like. `--` ends the options (`Parsed.ofWords`).
-/

namespace AppReport.Command

open Text

/-- An option of a command. -/
structure OptionSpec (α : Type) where
  id : α
  short : Option Char
  long : String
  takesValue : Bool

/-- What is wrong with a command line. -/
inductive UsageFault where
  | unknownOption (name : String)
  | missingValue (name : String)
  | needlessValue (name : String)
  | extraWords (words : List String)
  | unknownCommand (name : String)
  | missingCommand

/-- A text in quotes. -/
def inQuotes (s : String) : String := String.ofList (quoted s.toList)

/-- What is said of a fault. -/
def UsageFault.message : UsageFault → String
  | unknownOption name => "No such option " ++ inQuotes name ++ "."
  | missingValue name => "Option " ++ inQuotes name ++ " requires an argument."
  | needlessValue name => "Option " ++ inQuotes name ++ " does not take a value."
  | extraWords words =>
    let noun := if words.length = 1 then "argument" else "arguments"
    "Got unexpected extra " ++ noun ++ " (" ++ " ".intercalate words ++ ")"
  | unknownCommand name => "No such command " ++ inQuotes name ++ "."
  | missingCommand => "Missing command."

/-- Whether a fault is told without the usage of the command. -/
def UsageFault.isBare : UsageFault → Bool
  | missingValue _ | needlessValue _ => true
  | _ => false

/-- An option as it was given; the value is missing for one that takes none. -/
structure Given (α : Type) where
  id : α
  value : Option String

/-- What a word of options gives, and the option that still needs its value, with its name. -/
structure OptionWord (α : Type) where
  given : List (Given α)
  pending : Option (α × String)

variable {α : Type}

/-- Reads joined short options. -/
def readShort (specs : List (OptionSpec α)) : List Char → Except UsageFault (OptionWord α)
  | [] => .ok ⟨[], none⟩
  | c :: rest =>
    let name := String.ofList ['-', c]
    match specs.find? fun spec => spec.short = some c with
    | none => .error (.unknownOption name)
    | some spec =>
      if spec.takesValue then
        if rest.isEmpty then .ok ⟨[], some (spec.id, name)⟩
        else .ok ⟨[⟨spec.id, some (String.ofList rest)⟩], none⟩
      else
        match readShort specs rest with
        | .error e => .error e
        | .ok word => .ok { word with given := ⟨spec.id, none⟩ :: word.given }

/-- Reads a word that begins with a hyphen. -/
def readOption (specs : List (OptionSpec α)) (word : List Char) :
    Except UsageFault (OptionWord α) :=
  let name := String.ofList (word.takeWhile (· ≠ '='))
  let value := match word.dropWhile (· ≠ '=') with
    | _ :: value => some (String.ofList value)
    | [] => none
  match specs.find? fun spec => spec.long = name with
  | some spec =>
    match spec.takesValue, value with
    | true, some value => .ok ⟨[⟨spec.id, some value⟩], none⟩
    | true, none => .ok ⟨[], some (spec.id, name)⟩
    | false, some _ => .error (.needlessValue name)
    | false, none => .ok ⟨[⟨spec.id, none⟩], none⟩
  | none =>
    match word with
    | '-' :: '-' :: _ => .error (.unknownOption name)
    | _ :: shorts => readShort specs shorts
    | [] => .ok ⟨[], none⟩

/-- A command line: the options in the order in which they were given, and the other words. -/
structure Parsed (α : Type) where
  given : List (Given α)
  words : List String

namespace Parsed

/-- Whether a word is one of options. -/
def isOption (word : String) : Bool :=
  match word.toList with
  | '-' :: _ :: _ => true
  | _ => false

/-- Puts options in front of those of a command line. -/
def precede (given : List (Given α)) (parsed : Except UsageFault (Parsed α)) :
    Except UsageFault (Parsed α) :=
  match parsed with
  | .error e => .error e
  | .ok parsed => .ok { parsed with given := given ++ parsed.given }

/-- Reads a command line. Options may stand after other words if the command says so; if not, the
first other word ends them. -/
def ofWords (specs : List (OptionSpec α)) (anywhere : Bool) :
    List String → Except UsageFault (Parsed α)
  | [] => .ok ⟨[], []⟩
  | word :: rest =>
    if word = "--" then .ok ⟨[], rest⟩
    else if isOption word then
      match readOption specs word.toList with
      | .error e => .error e
      | .ok ⟨given, none⟩ => precede given (ofWords specs anywhere rest)
      | .ok ⟨given, some (id, name)⟩ =>
        match rest with
        | [] => .error (.missingValue name)
        | value :: rest => precede (given ++ [⟨id, some value⟩]) (ofWords specs anywhere rest)
    else if anywhere then
      match ofWords specs anywhere rest with
      | .error e => .error e
      | .ok parsed => .ok { parsed with words := word :: parsed.words }
    else .ok ⟨[], word :: rest⟩

/-- Whether an option was given. -/
def has [DecidableEq α] (parsed : Parsed α) (id : α) : Bool :=
  parsed.given.any fun given => given.id = id

/-- The value of an option, the last one if there are several. -/
def value? [DecidableEq α] (parsed : Parsed α) (id : α) : Option String :=
  (parsed.given.reverse.find? fun given => given.id = id).bind Given.value

end Parsed

end AppReport.Command
