import AppReport.Directory.Percent
import AppReport.Directory.Punycode
import AppReport.Number.Decimal
import AppReport.Text.Pieces

/-!
# Hosts of addresses

A host is a name or a number between brackets, and a port may follow it: `shop.test:80`,
`[::1]:80`. `HostPort.ofText?` takes such a text apart and refuses any other.
-/

namespace AppReport

open Text

/-- A host with its port, once it has been found in order. -/
structure HostPort where
  host : List Char
  port : Option Nat

namespace Host

/-! ### Names -/

/-- Whether a text may be the name of a host. -/
def isName : List Char → Bool
  | [] => true
  | '%' :: a :: b :: rest => Percent.isHexDigit a && Percent.isHexDigit b && isName rest
  | c :: rest => !("[]%:/?#".toList.contains c) && isName rest

/-! ### Numbers -/

/-- Whether a text is a group of a number: up to four hexadecimal digits. -/
def isGroup (cs : List Char) : Bool :=
  !cs.isEmpty && cs.length ≤ 4 && cs.all Percent.isHexDigit

/-- Whether a text is four decimal numbers of up to three digits, with points between them. -/
def isQuad (cs : List Char) : Bool :=
  let pieces := splitOn '.' cs
  pieces.length = 4 && pieces.all fun piece =>
    !piece.isEmpty && piece.length ≤ 3 && piece.all Char.isDigit

/-- The number of groups in a row. Four decimal numbers at the end stand for two groups. -/
def groups? : List (List Char) → Option Nat
  | [] => some 0
  | [last] => if isGroup last then some 1 else if isQuad last then some 2 else none
  | piece :: rest => if isGroup piece then (groups? rest).map (· + 1) else none

/-- The number of groups that stand between colons; no text has none. -/
def groupCount? (cs : List Char) : Option Nat :=
  if cs.isEmpty then some 0 else groups? (splitOn ':' cs)

/-- The parts around the first two colons in a row. -/
def splitGap : List Char → Option (List Char × List Char)
  | [] => none
  | ':' :: ':' :: rest => some ([], rest)
  | c :: rest => (splitGap rest).map fun (before, after) => (c :: before, after)

/-- Whether a text is a number: eight groups, or fewer than eight around a gap. -/
def isNumber (cs : List Char) : Bool :=
  match splitGap cs with
  | none => groupCount? cs = some 8
  | some (before, after) =>
    match groupCount? before, groupCount? after with
    | some m, some n => m + n < 8 && !before.contains '.'
    | _, _ => false

/-- Whether a text may name a zone. -/
def isZoneName : List Char → Bool
  | [] => true
  | '%' :: a :: b :: rest => Percent.isHexDigit a && Percent.isHexDigit b && isZoneName rest
  | c :: rest => Percent.isUnreserved c && isZoneName rest

/-- The name of the zone that follows a number. The percent sign in front of it may be written as
an escape. -/
def zone? (cs : List Char) : Option (List Char) :=
  match cs with
  | '%' :: '2' :: '5' :: c :: rest =>
    if isZoneName (c :: rest) then some (c :: rest)
    else if isZoneName ('2' :: '5' :: c :: rest) then some (c :: rest)
    else none
  | '%' :: c :: rest => if isZoneName (c :: rest) then some (c :: rest) else none
  | _ => none

/-- Whether a text is a number with, perhaps, the name of a zone. -/
def isZonedNumber (cs : List Char) : Bool :=
  let zone := cs.dropWhile (· ≠ '%')
  isNumber (cs.takeWhile (· ≠ '%')) && (zone.isEmpty || (zone? zone).isSome)

/-- A host in lower case. The zone of a number keeps its case, and a label of a name that is not
ASCII is written in letters and digits. -/
def normalize (host : List Char) : List Char :=
  let lower := fun (cs : List Char) => cs.map Char.toLower
  match host with
  | '[' :: _ =>
    let number := host.takeWhile (· ≠ '%')
    match zone? ((host.dropWhile (· ≠ '%')).takeWhile (· ≠ ']')) with
    | some zone => lower number ++ '%' :: Percent.normalize Percent.isUnreserved zone ++ [']']
    | none => lower host
  | _ => joinWith '.' ((splitOn '.' (lower host)).map Punycode.label)

end Host

/-! ### Ports -/

/-- The number that the digits of a port write; nothing written is no port. A line feed at the end
makes no difference. -/
def port? (digits : List Char) : Option (Option Nat) :=
  let digits := if digits.getLast? = some '\n' then digits.dropLast else digits
  if !digits.all Char.isDigit then none
  else if digits.isEmpty then some none
  else
    let significant := digits.dropWhile (· == '0')
    if 5 < significant.length then none
    else
      let n := Number.ofDigits significant
      if n ≤ 65535 then some (some n) else none

/-- A host with a port after a colon. -/
def HostPort.withPort? (host rest : List Char) : Option HostPort :=
  match rest with
  | [] | ['\n'] => some ⟨host, none⟩
  | ':' :: digits => (port? digits).map fun port => ⟨host, port⟩
  | _ => none

/-- The host and the port that a text gives. -/
def HostPort.ofText? (cs : List Char) : Option HostPort :=
  match cs with
  | '[' :: rest =>
    let inside := rest.takeWhile (· ≠ ']')
    match rest.dropWhile (· ≠ ']') with
    | ']' :: rest =>
      if Host.isZonedNumber inside then withPort? ('[' :: inside ++ [']']) rest else none
    | _ => none
  | cs =>
    let host := cs.takeWhile (· ≠ ':')
    if Host.isName host then withPort? host (cs.dropWhile (· ≠ ':')) else none

end AppReport
