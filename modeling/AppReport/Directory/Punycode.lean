/-!
# Host names outside ASCII

A label of a host name that is not ASCII is written with letters and digits: first its ASCII
characters, then, in a code of base 36, which characters go where. The digits of a number have
thresholds (`threshold`), so that its end needs no mark, and the thresholds follow the size of the
numbers before (`adapt`).
-/

namespace AppReport.Punycode

/-- A digit of base 36: letters first. -/
def digit (n : Nat) : Char := Char.ofNat (if n < 26 then 97 + n else 22 + n)

/-- The threshold of the digit at a place; a digit below it is the last of its number. -/
def threshold (bias place : Nat) : Nat := min 26 (max 1 (place - bias))

/-- A threshold leaves a digit for going on and one for ending. -/
theorem threshold_bounds (bias place : Nat) :
    1 ≤ threshold bias place ∧ threshold bias place ≤ 26 := by
  rw [threshold]
  omega

/-- The digits of a number from a place on. -/
def digits (bias place n : Nat) : List Char :=
  let t := threshold bias place
  if n < t then [digit n]
  else digit (t + (n - t) % (36 - t)) :: digits bias (place + 36) ((n - t) / (36 - t))
termination_by n
decreasing_by
  have bounds := threshold_bounds bias place
  have : (n - t) / (36 - t) ≤ n - t := Nat.div_le_self _ _
  simp only [t] at *
  omega

/-- The bias for numbers of the size of `n`, starting from `bias`. -/
def biasFrom (bias n : Nat) : Nat :=
  if 455 < n then biasFrom (bias + 36) (n / 35) else bias + 36 * n / (n + 38)
termination_by n

/-- The bias after the number `n` for the character that makes `count` of them. -/
def adapt (n count : Nat) (first : Bool) : Nat :=
  let n := if first then n / 700 else n / 2
  biasFrom 0 (n + n / count)

/-- What has been written, the number of characters that are in place, and the distance from the
last one put in place. -/
structure Progress where
  written : List Char
  placed : Nat
  bias : Nat
  distance : Nat

/-- Goes through a text and puts in place each of its characters with the code `code`. -/
def place (plain code : Nat) (p : Progress) : List Char → Progress
  | [] => p
  | c :: rest =>
    if c.toNat < code then place plain code { p with distance := p.distance + 1 } rest
    else if c.toNat = code then
      place plain code {
        written := p.written ++ digits p.bias 36 p.distance
        placed := p.placed + 1
        bias := adapt p.distance (p.placed + 1) (p.placed == plain)
        distance := 0 } rest
    else place plain code p rest

/-- The codes of the characters of a text beyond ASCII, in ascending order, each once. -/
def codes (cs : List Char) : List Nat :=
  ((cs.map Char.toNat).filter (128 ≤ ·)).mergeSort.eraseDups

/-- A text in letters and digits. -/
def encode (cs : List Char) : List Char :=
  let plain := cs.filter fun c => c.toNat < 128
  let start : Progress := {
    written := if plain.isEmpty then [] else plain ++ ['-']
    placed := plain.length, bias := 72, distance := 0 }
  let step := fun (state : Progress × Nat) (code : Nat) =>
    let (p, next) := state
    let p := { p with distance := p.distance + (code - next) * (p.placed + 1) }
    let p := place plain.length code p cs
    ({ p with distance := p.distance + 1 }, code + 1)
  ((codes cs).foldl step (start, 128)).1.written

/-- A label of a host name in ASCII. -/
def label (cs : List Char) : List Char :=
  if cs.all (·.toNat < 128) then cs else "xn--".toList ++ encode cs

end AppReport.Punycode
