/-!
# Blank characters

The blanks of Unicode: the ASCII blanks and separators, the next-line control, and the spaces of
all widths. Lines of a report end before their trailing blanks (`trimRight`).
-/

namespace AppReport.Text

/-- Whether a character is a blank. -/
def isBlank (c : Char) : Bool :=
  let n := c.toNat
  (0x9 ≤ n && n ≤ 0xd) || (0x1c ≤ n && n ≤ 0x20) || n == 0x85 || n == 0xa0 || n == 0x1680
    || (0x2000 ≤ n && n ≤ 0x200a) || n == 0x2028 || n == 0x2029 || n == 0x202f || n == 0x205f
    || n == 0x3000

/-- The blanks of ASCII that separate words and lines. -/
def isPlainBlank (c : Char) : Bool := c == ' ' || (0x9 ≤ c.toNat && c.toNat ≤ 0xd)

/-- A text without the trailing characters of a class. -/
def dropRightWhile (p : Char → Bool) (cs : List Char) : List Char :=
  (cs.reverse.dropWhile p).reverse

/-- A text without its trailing blanks. -/
def trimRight (cs : List Char) : List Char := dropRightWhile isBlank cs

/-- A text without the characters of a class at either end. -/
def trimBoth (p : Char → Bool) (cs : List Char) : List Char := dropRightWhile p (cs.dropWhile p)

/-! ### What trimming leaves -/

/-- Trimming keeps a beginning of the text and drops characters of the class only. -/
theorem dropRightWhile_append (p : Char → Bool) (cs : List Char) :
    ∃ tail, cs = dropRightWhile p cs ++ tail ∧ ∀ c ∈ tail, p c = true := by
  refine ⟨(cs.reverse.takeWhile p).reverse, ?_, ?_⟩
  · rw [dropRightWhile, ← List.reverse_append, List.takeWhile_append_dropWhile,
      List.reverse_reverse]
  · intro c hc
    have hall := List.all_takeWhile (l := cs.reverse) (p := p)
    exact List.all_eq_true.1 hall c (List.mem_reverse.1 hc)

/-- What is left does not end in the class. -/
theorem not_of_getLast?_dropRightWhile {p : Char → Bool} {cs : List Char} {c : Char}
    (h : (dropRightWhile p cs).getLast? = some c) : p c = false := by
  rw [dropRightWhile, List.getLast?_reverse] at h
  have := List.head?_dropWhile_not p cs.reverse
  rw [h] at this
  simpa using this

/-- What is left of two texts is what is left of the first, if all of the second is dropped. -/
theorem dropRightWhile_append_of_eq_nil {p : Char → Bool} {bs : List Char}
    (h : dropRightWhile p bs = []) (as : List Char) :
    dropRightWhile p (as ++ bs) = dropRightWhile p as := by
  rw [dropRightWhile, List.reverse_eq_nil_iff] at h
  rw [dropRightWhile, List.reverse_append, List.dropWhile_append, h]
  rfl

/-- The first of two texts is kept, if something is left of the second. -/
theorem dropRightWhile_append_of_ne_nil {p : Char → Bool} {bs : List Char}
    (h : dropRightWhile p bs ≠ []) (as : List Char) :
    dropRightWhile p (as ++ bs) = as ++ dropRightWhile p bs := by
  rw [dropRightWhile, ne_eq, List.reverse_eq_nil_iff] at h
  rw [dropRightWhile, List.reverse_append, List.dropWhile_append, if_neg (by simpa using h)]
  simp [dropRightWhile]

/-- A text that does not end in the class is kept. -/
theorem dropRightWhile_eq_self {p : Char → Bool} {cs : List Char}
    (h : ∀ c, cs.getLast? = some c → p c = false) : dropRightWhile p cs = cs := by
  obtain ⟨tail, heq, hall⟩ := dropRightWhile_append p cs
  cases hlast : tail.getLast? with
  | none =>
    rw [List.getLast?_eq_none_iff.mp hlast, List.append_nil] at heq
    exact heq.symm
  | some c =>
    -- the last character would be of the class
    have hc : p c = false := h c (by rw [heq, List.getLast?_append, hlast]; rfl)
    rw [hall c (List.mem_of_getLast? hlast)] at hc
    cases hc

end AppReport.Text
