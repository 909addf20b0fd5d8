import AppReport.Proofs.Course

/-!
# The form of names

A name is a lowercase letter of ASCII, and then any number of lowercase letters, digits and hyphens
(`IsAppName`). The check of a supplied text lets every name through, and besides them every name
with one line feed behind it (`isName_iff`): the pattern that it matches ends where a line ends, and
not where the text does. All other texts are refused before anything is asked of the store
(`validate_reads_iff`).
-/

namespace AppReport.Showing

open Surroundings (willing)

/-! ### Names -/

/-- A lowercase letter of ASCII. -/
def IsSmallLetter (c : Char) : Prop := 'a' ≤ c ∧ c ≤ 'z'

/-- A decimal digit of ASCII. -/
def IsFigure (c : Char) : Prop := '0' ≤ c ∧ c ≤ '9'

/-- A character that a name goes on with. -/
def GoesOnName (c : Char) : Prop := IsSmallLetter c ∨ IsFigure c ∨ c = '-'

/-- A lowercase letter, and then lowercase letters, digits and hyphens. -/
def IsAppName (cs : List Char) : Prop :=
  ∃ first rest, cs = first :: rest ∧ IsSmallLetter first ∧ ∀ c ∈ rest, GoesOnName c

/-- A name with a line feed behind it. -/
def IsNameLine (cs : List Char) : Prop := ∃ name, IsAppName name ∧ cs = name ++ ['\n']

theorem isLower_iff {c : Char} : c.isLower = true ↔ IsSmallLetter c := by
  have hrange : c.isLower = (decide ('a'.val ≤ c.val) && decide (c.val ≤ 'z'.val)) := rfl
  rw [hrange, Bool.and_eq_true, decide_eq_true_eq, decide_eq_true_eq]
  rfl

theorem isNameChar_iff {c : Char} : isNameChar c = true ↔ GoesOnName c := by
  have hdigit : c.isDigit = true ↔ IsFigure c := by
    simp [Char.isDigit, IsFigure, Char.le_def]
  unfold isNameChar GoesOnName
  rw [Bool.or_eq_true, Bool.or_eq_true, isLower_iff, hdigit, beq_iff_eq, or_assoc]

theorem not_goesOnName_feed : ¬ GoesOnName '\n' := by
  rw [← isNameChar_iff]
  decide

/-- No name holds a line feed. -/
theorem IsAppName.feed_not_mem {cs : List Char} (h : IsAppName cs) : '\n' ∉ cs := by
  obtain ⟨first, rest, rfl, hfirst, hrest⟩ := h
  intro hmem
  rcases List.mem_cons.mp hmem with rfl | hmem
  · exact not_goesOnName_feed (Or.inl hfirst)
  · exact not_goesOnName_feed (hrest _ hmem)

theorem IsNameLine.not_isAppName {cs : List Char} (h : IsNameLine cs) : ¬ IsAppName cs := by
  obtain ⟨name, -, rfl⟩ := h
  intro hname
  exact hname.feed_not_mem (List.mem_append_right name List.mem_cons_self)

/-! ### The check -/

/-- What is left behind the characters of a name. -/
theorem dropWhile_isNameChar_eq_iff {rest tail : List Char} (htail : ∀ c ∈ tail.head?,
    ¬ GoesOnName c) : rest.dropWhile isNameChar = tail ↔
      ∃ front, (∀ c ∈ front, GoesOnName c) ∧ rest = front ++ tail := by
  constructor
  · intro h
    refine ⟨rest.takeWhile isNameChar, ?_, ?_⟩
    · intro c hc
      exact isNameChar_iff.mp (List.all_eq_true.mp List.all_takeWhile c hc)
    · rw [← h, List.takeWhile_append_dropWhile]
  · rintro ⟨front, hfront, rfl⟩
    have hpos : ∀ c ∈ front, isNameChar c = true := fun c hc => isNameChar_iff.mpr (hfront c hc)
    rw [List.dropWhile_append_of_pos hpos]
    cases tail with
    | nil => rfl
    | cons c tail =>
      have hc : ¬ isNameChar c = true := fun h => htail c rfl (isNameChar_iff.mp h)
      exact List.dropWhile_cons_of_neg hc

/-- The check lets through names, and names with a line feed behind them. -/
theorem isName_iff {cs : List Char} : isName cs = true ↔ IsAppName cs ∨ IsNameLine cs := by
  cases cs with
  | nil =>
    constructor
    · nofun
    · rintro (⟨first, rest, h, -⟩ | ⟨name, -, h⟩)
      · cases h
      · exact absurd h.symm (List.append_ne_nil_of_right_ne_nil name (List.cons_ne_nil _ _))
  | cons first rest =>
    have hnone : rest.dropWhile isNameChar = [] ↔ ∀ c ∈ rest, GoesOnName c := by
      rw [dropWhile_isNameChar_eq_iff (by simp)]
      simp
    -- the check looks at what is left behind the last character of a name
    have hfeed : rest.dropWhile isNameChar = ['\n'] ↔
        ∃ front, (∀ c ∈ front, GoesOnName c) ∧ rest = front ++ ['\n'] := by
      apply dropWhile_isNameChar_eq_iff
      rintro c ⟨⟩
      exact not_goesOnName_feed
    simp only [isName, Bool.and_eq_true, Bool.or_eq_true, decide_eq_true_iff, isLower_iff, hnone,
      hfeed]
    constructor
    · rintro ⟨hfirst, hrest | ⟨front, hfront, rfl⟩⟩
      · exact Or.inl ⟨first, rest, rfl, hfirst, hrest⟩
      · exact Or.inr ⟨first :: front, ⟨first, front, rfl, hfirst, hfront⟩, rfl⟩
    · rintro (⟨_, _, ⟨⟩, hfirst, hrest⟩ | ⟨_, ⟨first', front, rfl, hfirst, hfront⟩, heq⟩)
      · exact ⟨hfirst, Or.inl hrest⟩
      · rw [List.cons_append] at heq
        cases heq
        exact ⟨hfirst, Or.inr ⟨front, hfront, rfl⟩⟩

/-! ### Supplied texts -/

variable {σ : Type} (around : Surroundings σ)

theorem checkCalls_eq_iff (s : String) :
    checkCalls (.supplied (.text s)) = [.getApplication (.text s)] ↔ isName s.toList = true := by
  unfold checkCalls checkName
  by_cases hform : isName s.toList = true
  · simp [hform]
  · simp [hform]

/-- The failure for a text that breaks the rule for names. -/
def ruleFailure (s : String) : Failure :=
  .ofStep .invalidInput "validate application name" (.text s) (some nameRule)

/-- A supplied text is looked up in the store if it is a name, or one with a line feed behind it.
Any other text is an invalid input, and nothing happens to the surroundings. So the lookup follows
the rule for names, except for names with a line feed behind them. -/
theorem validate_reads_iff (s : String) (asJson : Bool) (session : Session σ) :
    ((validate around ⟨.supplied (.text s), asJson, session⟩).2.session.calls =
        session.calls ++ [.getApplication (.text s)] ↔
      IsAppName s.toList ∨ IsNameLine s.toList) ∧
    (validate around ⟨.supplied (.text s), asJson, session⟩ =
        (.error (ruleFailure s), ⟨.supplied (.text s), asJson, session⟩) ↔
      ¬ (IsAppName s.toList ∨ IsNameLine s.toList)) ∧
    (((validate around ⟨.supplied (.text s), asJson, session⟩).2.session.calls =
        session.calls ++ [.getApplication (.text s)] ↔ IsAppName s.toList) ↔
      ¬ IsNameLine s.toList) := by
  have hreads : (validate around ⟨.supplied (.text s), asJson, session⟩).2.session.calls =
      session.calls ++ [.getApplication (.text s)] ↔ IsAppName s.toList ∨ IsNameLine s.toList := by
    rw [calls_validate, List.append_cancel_left_eq, checkCalls_eq_iff, isName_iff]
  refine ⟨hreads, ?_, ?_⟩
  · rw [← isName_iff]
    constructor
    · -- a refused text leaves the session as it is, so it has not been looked up
      intro hrefused hform
      have hcalls := hreads.mpr (isName_iff.mp hform)
      rw [hrefused] at hcalls
      simp at hcalls
    · intro hform
      unfold validate checkName
      simp only [if_neg hform]
      rfl
  · rw [hreads]
    constructor
    · intro hagree hline
      exact hline.not_isAppName (hagree.mp (Or.inr hline))
    · intro hline
      exact ⟨fun h => h.resolve_right hline, Or.inl⟩

/-- A name with a line feed behind it is looked up, although it is no name. -/
theorem validate_nameLine : ¬ IsAppName "my-app\n".toList ∧
    (validate willing ⟨.supplied (.text "my-app\n"), false, ⟨(), []⟩⟩).2.session.calls =
      [.getApplication (.text "my-app\n")] := by
  constructor
  · intro hname
    exact hname.feed_not_mem (by decide)
  · rfl

end AppReport.Showing
