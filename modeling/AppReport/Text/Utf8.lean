/-!
# UTF-8

The decoder reads byte by byte and remembers in `Pending` what may follow. `decode?` accepts
exactly the well-formed texts, `flaw?` tells where and why other bytes break off, and
`decodeLossy` writes U+FFFD for each stretch of bytes that no character begins with.
-/

namespace AppReport.Text

/-- A character that has begun: `left` more bytes belong to it, the next of them lies between
`low` and `high`, and the bits so far are `value`. -/
structure Pending where
  left : Nat
  low : UInt8
  high : UInt8
  value : Nat

/-- What a first byte from `0x80` on announces. The bounds leave out long forms, surrogates and
what lies beyond U+10FFFF. -/
def Pending.ofLead (b : UInt8) : Option Pending :=
  if b < 0xc2 then none
  else if b < 0xe0 then some ⟨1, 0x80, 0xbf, b.toNat - 0xc0⟩
  else if b = 0xe0 then some ⟨2, 0xa0, 0xbf, 0⟩
  else if b = 0xed then some ⟨2, 0x80, 0x9f, 0xd⟩
  else if b < 0xf0 then some ⟨2, 0x80, 0xbf, b.toNat - 0xe0⟩
  else if b = 0xf0 then some ⟨3, 0x90, 0xbf, 0⟩
  else if b < 0xf4 then some ⟨3, 0x80, 0xbf, b.toNat - 0xf0⟩
  else if b = 0xf4 then some ⟨3, 0x80, 0x8f, 4⟩
  else none

/-- Whether `b` may come next. -/
def Pending.admits (p : Pending) (b : UInt8) : Bool := p.low ≤ b && b ≤ p.high

/-- The bits of the character with those of `b`. -/
def Pending.push (p : Pending) (b : UInt8) : Nat := p.value * 64 + (b.toNat - 0x80)

/-- What is left to read after one more byte. -/
def Pending.next (p : Pending) (b : UInt8) : Pending := ⟨p.left - 1, 0x80, 0xbf, p.push b⟩

/-- Decodes the rest of a text, of whose present character `pending` has been read. -/
def decodeFrom : Option Pending → List UInt8 → Option (List Char)
  | none, [] => some []
  | some _, [] => none
  | none, b :: rest =>
    if b < 0x80 then (decodeFrom none rest).map (Char.ofNat b.toNat :: ·)
    else match Pending.ofLead b with
      | none => none
      | some p => decodeFrom (some p) rest
  | some p, b :: rest =>
    if p.admits b then
      if p.left ≤ 1 then (decodeFrom none rest).map (Char.ofNat (p.push b) :: ·)
      else decodeFrom (some (p.next b)) rest
    else none

/-- The characters of a well-formed text, and nothing for any other bytes. -/
def decode? (bytes : List UInt8) : Option (List Char) := decodeFrom none bytes

/-! ### What is wrong with ill-formed bytes -/

/-- Why bytes are no text. -/
inductive FlawKind where
  /-- No character begins with the byte. -/
  | start
  /-- The character that begins here cannot go on with the byte after it. -/
  | continuation
  /-- The bytes end within a character. -/
  | ending
  deriving DecidableEq

/-- The words for a flaw. -/
def FlawKind.words : FlawKind → String
  | start => "invalid start byte"
  | continuation => "invalid continuation byte"
  | ending => "unexpected end of data"

/-- The bytes that break a text: those from `first` on, up to but not including `after`. -/
structure Flaw where
  kind : FlawKind
  first : Nat
  after : Nat
  deriving DecidableEq

/-- The first flaw; `first` is the place of the character being read and `here` that of the next
byte. -/
def flawFrom (first here : Nat) : Option Pending → List UInt8 → Option Flaw
  | none, [] => none
  | some _, [] => some ⟨.ending, first, here⟩
  | none, b :: rest =>
    if b < 0x80 then flawFrom (here + 1) (here + 1) none rest
    else match Pending.ofLead b with
      | none => some ⟨.start, first, here + 1⟩
      | some p => flawFrom first (here + 1) (some p) rest
  | some p, b :: rest =>
    if p.admits b then
      if p.left ≤ 1 then flawFrom (here + 1) (here + 1) none rest
      else flawFrom first (here + 1) (some (p.next b)) rest
    else some ⟨.continuation, first, here⟩

/-- The first flaw of bytes that are no text. -/
def flaw? (bytes : List UInt8) : Option Flaw := flawFrom 0 0 none bytes

/-- Bytes have a flaw unless they can be decoded. -/
theorem flawFrom_eq_none_iff (first here : Nat) (pending : Option Pending) (bytes : List UInt8) :
    flawFrom first here pending bytes = none ↔ (decodeFrom pending bytes).isSome := by
  induction bytes generalizing first here pending with
  | nil => cases pending <;> simp [flawFrom, decodeFrom]
  | cons b rest ih =>
    cases pending with
    | none =>
      rw [flawFrom, decodeFrom]
      split
      · simp [ih]
      · split <;> simp [ih]
    | some p =>
      rw [flawFrom, decodeFrom]
      split
      · split <;> simp [ih]
      · simp

/-- A text has no flaw, and bytes that are no text have one. -/
theorem flaw?_eq_none_iff (bytes : List UInt8) : flaw? bytes = none ↔ (decode? bytes).isSome :=
  flawFrom_eq_none_iff 0 0 none bytes

/-- The characters of a well-formed text, or the first flaw. -/
def decodeOrFlaw (bytes : List UInt8) : Except Flaw (List Char) :=
  match flaw? bytes with
  | some flaw => .error flaw
  | none => .ok ((decode? bytes).getD [])

/-- Without a flaw there is nothing but the characters that `decode?` finds. -/
theorem decodeOrFlaw_eq_ok_iff {bytes : List UInt8} {cs : List Char} :
    decodeOrFlaw bytes = .ok cs ↔ decode? bytes = some cs := by
  have h := flaw?_eq_none_iff bytes
  rw [decodeOrFlaw]
  cases hf : flaw? bytes with
  | none =>
    obtain ⟨found, hd⟩ := Option.isSome_iff_exists.1 (h.1 hf)
    simp [hd]
  | some flaw =>
    have : decode? bytes = none := by
      rw [← Option.not_isSome_iff_eq_none, ← h, hf]
      simp
    simp [this]

/-- The character that stands for bytes that are not text. -/
def replacement : Char := '\uFFFD'

/-- Decodes any bytes. A character broken off by a byte that cannot belong to it becomes U+FFFD,
and that byte begins anew. -/
def decodeLossyFrom : Option Pending → List UInt8 → List Char
  | none, [] => []
  | some _, [] => [replacement]
  | none, b :: rest =>
    if b < 0x80 then Char.ofNat b.toNat :: decodeLossyFrom none rest
    else match Pending.ofLead b with
      | none => replacement :: decodeLossyFrom none rest
      | some p => decodeLossyFrom (some p) rest
  | some p, b :: rest =>
    if p.admits b then
      if p.left ≤ 1 then Char.ofNat (p.push b) :: decodeLossyFrom none rest
      else decodeLossyFrom (some (p.next b)) rest
    else
      replacement ::
        (if b < 0x80 then Char.ofNat b.toNat :: decodeLossyFrom none rest
        else match Pending.ofLead b with
          | none => replacement :: decodeLossyFrom none rest
          | some q => decodeLossyFrom (some q) rest)

/-- Any bytes as text, with U+FFFD for what is not well formed. -/
def decodeLossy (bytes : List UInt8) : List Char := decodeLossyFrom none bytes

/-- The bytes of a text. -/
def encode (cs : List Char) : List UInt8 := cs.flatMap String.utf8EncodeChar

end AppReport.Text
