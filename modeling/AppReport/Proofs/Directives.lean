import AppReport.Text.Template
import Mathlib.Tactic.SplitIfs

/-!
# Directives and what follows them

The readers of the parts of a directive read on as far as they can: a key to its parenthesis, flags
and counts to the first character that is none. A reader that leaves something behind has seen where
its part ends, so that it reads the same if more follows (`Template.readKey_append`,
`Template.readCount_append`, `Template.readPrecision_append`). A directive that can be written ends
at its letter, and is therefore the same whatever follows it (`Template.directive_append`). Without
values none can be written but the one that stands for `%` itself (`Template.valueDirective_spent`).
-/

namespace AppReport.Template

open Number Text

variable {s s' s'' : Supply} {cs rest : List Char} {bound : CountBound} {length : Nat}

/-! ### What readers leave -/

/-- What a reader leaves: a rest of the text, and the fields as they were. -/
structure Leaves (s : Supply) (cs : List Char) (s' : Supply) (rest : List Char) : Prop where
  byKey : s'.byKey = s.byKey
  suffix : rest <:+ cs

theorem Leaves.refl (s : Supply) (cs : List Char) : Leaves s cs s cs := ⟨rfl, List.suffix_refl cs⟩

/-- What is left by one reader after another. -/
theorem Leaves.trans {cs' : List Char} (h : Leaves s cs s' cs') (h' : Leaves s' cs' s'' rest) :
    Leaves s cs s'' rest :=
  ⟨h'.byKey.trans h.byKey, h'.suffix.trans h.suffix⟩

theorem Leaves.ne_nil (h : Leaves s cs s' rest) (hrest : rest ≠ []) : cs ≠ [] := by
  intro hcs
  rw [hcs] at h
  exact hrest (List.suffix_nil.mp h.suffix)

/-- The values are used up. -/
def Supply.spent : Supply := ⟨[], none⟩

/-- Taking a value does not change how values are taken. -/
theorem byKey_of_take {v : Value} (h : s.take = .ok (v, s')) : s'.byKey = s.byKey := by
  unfold Supply.take at h
  split at h
  · cases h
    rfl
  · cases h

/-- A run of characters that ends within a text ends there whatever follows the text. -/
theorem takeWhile_append_of_ne_nil {p : Char → Bool} (h : cs.dropWhile p ≠ [])
    (more : List Char) : (cs ++ more).takeWhile p = cs.takeWhile p := by
  induction cs with
  | nil => exact absurd rfl h
  | cons c cs ih =>
    by_cases hc : p c = true
    · rw [List.dropWhile_cons_of_pos hc] at h
      rw [List.cons_append, List.takeWhile_cons_of_pos hc, List.takeWhile_cons_of_pos hc, ih h]
    · rw [List.cons_append, List.takeWhile_cons_of_neg hc, List.takeWhile_cons_of_neg hc]

/-- What is left after a run that ends within a text is left with what follows. -/
theorem dropWhile_append_of_ne_nil {p : Char → Bool} (h : cs.dropWhile p ≠ [])
    (more : List Char) : (cs ++ more).dropWhile p = cs.dropWhile p ++ more := by
  induction cs with
  | nil => exact absurd rfl h
  | cons c cs ih =>
    by_cases hc : p c = true
    · rw [List.dropWhile_cons_of_pos hc] at h
      rw [List.cons_append, List.dropWhile_cons_of_pos hc, List.dropWhile_cons_of_pos hc, ih h]
    · rw [List.cons_append, List.dropWhile_cons_of_neg hc, List.dropWhile_cons_of_neg hc,
        List.cons_append]

/-- What stands behind a text does not change how it begins. -/
theorem not_exists_cons_append {c : Char} (h : ¬ ∃ tail, cs = c :: tail) (hcs : cs ≠ [])
    (more : List Char) : ¬ ∃ tail, cs ++ more = c :: tail := by
  rintro ⟨tail, heq⟩
  obtain ⟨first, front, rfl⟩ := List.exists_cons_of_ne_nil hcs
  cases heq
  exact h ⟨front, rfl⟩

/-! ### Keys -/

/-- A character that belongs to a key is put in front of what is read of it. -/
theorem takeKey_cons_append {depth inner : Nat} {c : Char} {key : List Char}
    (hcons : ∀ tail, takeKey depth (c :: tail) =
      (takeKey inner tail).map fun (key, rest) => (c :: key, rest))
    (h : takeKey depth (c :: cs) = some (key, rest))
    (ih : ∀ {key}, takeKey inner cs = some (key, rest) →
      rest <:+ cs ∧ ∀ more, takeKey inner (cs ++ more) = some (key, rest ++ more)) :
    rest <:+ c :: cs ∧ ∀ more, takeKey depth (c :: cs ++ more) = some (key, rest ++ more) := by
  rw [hcons] at h
  obtain ⟨⟨front, left⟩, hfront, heq⟩ := Option.map_eq_some_iff.mp h
  cases heq
  obtain ⟨hsuffix, hmore⟩ := ih hfront
  refine ⟨hsuffix.trans (List.suffix_cons _ _), ?_⟩
  intro more
  rw [List.cons_append, hcons, hmore more]
  rfl

/-- A key ends at its parenthesis, whatever follows. -/
theorem takeKey_append {depth : Nat} {key : List Char} (h : takeKey depth cs = some (key, rest)) :
    rest <:+ cs ∧ ∀ more, takeKey depth (cs ++ more) = some (key, rest ++ more) := by
  induction cs generalizing depth key with
  | nil =>
    rw [takeKey] at h
    cases h
  | cons c tail ih =>
    by_cases hclose : c = ')'
    · subst hclose
      cases depth with
      | zero =>
        cases h
        exact ⟨List.suffix_cons _ _, fun more => rfl⟩
      | succ depth => exact takeKey_cons_append (fun tail => rfl) h ih
    · by_cases hopen : c = '('
      · subst hopen
        exact takeKey_cons_append (fun tail => by rw [takeKey]) h ih
      · have hcons (tail : List Char) : takeKey depth (c :: tail) =
            (takeKey depth tail).map fun (key, rest) => (c :: key, rest) := by
          rw [takeKey]
          · exact hopen
          · exact fun _ => hclose
          · exact fun _ _ => hclose
        exact takeKey_cons_append hcons h ih

theorem readKey_of_not_paren (hparen : ¬ ∃ tail, cs = '(' :: tail) :
    readKey s cs = .ok (s, cs) := by
  unfold readKey
  split
  · exact absurd ⟨_, rfl⟩ hparen
  · rfl

theorem leaves_of_readKey (h : readKey s cs = .ok (s', rest)) : Leaves s cs s' rest := by
  unfold readKey at h
  split at h
  · split at h
    · cases h
    · split at h
      · cases h
      · rename_i tail _ _ hkey
        split at h
        · cases h
        · cases h
          exact ⟨rfl, (takeKey_append hkey).1.trans (List.suffix_cons _ _)⟩
  · cases h
    exact Leaves.refl s cs

/-- A key is read in the same way whatever follows. -/
theorem readKey_append (h : readKey s cs = .ok (s', rest)) (hrest : rest ≠ []) (more : List Char) :
    readKey s (cs ++ more) = .ok (s', rest ++ more) := by
  unfold readKey at h
  split at h
  · rename_i tail
    split at h
    · cases h
    · rename_i fields hfields
      split at h
      · cases h
      · rename_i key left hkey
        split at h
        · cases h
        · rename_i v hv
          cases h
          rw [List.cons_append, readKey, hfields]
          simp only [(takeKey_append hkey).2 more, hv]
  · rename_i hparen
    cases h
    have hstart : ¬ ∃ tail, cs = '(' :: tail := fun ⟨tail, heq⟩ => hparen tail heq
    exact readKey_of_not_paren (not_exists_cons_append hstart hrest more)

/-- With no values left a key finds none. -/
theorem readKey_spent (h : readKey .spent cs = .ok (s', rest)) : s' = .spent := by
  unfold readKey at h
  split at h
  · cases h
  · cases h
    rfl

/-! ### Counts -/

/-- A count that is taken from the values. -/
def takenCount (bound : CountBound) (s : Supply) : Except Failure (Option Int × Supply) :=
  match s.take with
  | .error e => .error e
  | .ok (.int n, s) => (bound.check n).map fun n => (some n, s)
  | .ok (.bool b, s) => .ok (some (if b then 1 else 0), s)
  | .ok _ => unsuited "* wants int"

/-- A count that is written out. -/
def writtenCount (bound : CountBound) (s : Supply) (cs : List Char) :
    Except Failure (Option Int × Supply × List Char) :=
  let ds := cs.takeWhile Char.isDigit
  if ds.isEmpty then .ok (none, s, cs)
  else if bound.greatest < ofDigits ds then broken bound.written
  else .ok (some (ofDigits ds), s, cs.dropWhile Char.isDigit)

/-- A star takes the count from the values. -/
theorem readCount_star (bound : CountBound) (s : Supply) (tail : List Char) :
    readCount bound s ('*' :: tail) = (takenCount bound s).map fun (n, s) => (n, s, tail) := by
  unfold readCount takenCount
  dsimp only
  cases s.take with
  | error e => rfl
  | ok taken =>
    obtain ⟨v, s⟩ := taken
    cases v with
    | int n =>
      dsimp only
      cases bound.check n <;> rfl
    | _ => rfl

theorem readCount_of_not_star (hstar : ¬ ∃ tail, cs = '*' :: tail) :
    readCount bound s cs = writtenCount bound s cs := by
  unfold readCount
  split
  · exact absurd ⟨_, rfl⟩ hstar
  · rfl

/-- What comes of a step that has been changed came of the step. -/
theorem exists_of_map_eq_ok {α β : Type} {x : Except Failure α} {f : α → β} {b : β}
    (h : x.map f = .ok b) : ∃ a, x = .ok a ∧ f a = b := by
  cases x with
  | error e => cases h
  | ok a =>
    cases h
    exact ⟨a, rfl, rfl⟩

theorem byKey_of_takenCount {n : Option Int} (h : takenCount bound s = .ok (n, s')) :
    s'.byKey = s.byKey := by
  unfold takenCount at h
  split at h
  · cases h
  · rename_i htake
    obtain ⟨_, _, heq⟩ := exists_of_map_eq_ok h
    cases heq
    exact byKey_of_take htake
  · rename_i htake
    cases h
    exact byKey_of_take htake
  · cases h

/-- A count that is written takes no value, and leaves what follows its digits. -/
theorem writtenCount_cases {n : Option Int} (h : writtenCount bound s cs = .ok (n, s', rest)) :
    s' = s ∧ rest = cs.dropWhile Char.isDigit := by
  unfold writtenCount at h
  dsimp only at h
  split at h
  · rename_i hempty
    cases h
    refine ⟨rfl, ?_⟩
    have hsplit := List.takeWhile_append_dropWhile (p := Char.isDigit) (l := cs)
    rw [List.isEmpty_iff.mp hempty] at hsplit
    exact hsplit.symm
  · split at h
    · cases h
    · cases h
      exact ⟨rfl, rfl⟩

/-- A count leaves the end of its text, and values taken in the same way. -/
theorem leaves_of_readCount {n : Option Int} (h : readCount bound s cs = .ok (n, s', rest)) :
    Leaves s cs s' rest := by
  by_cases hstar : ∃ tail, cs = '*' :: tail
  · obtain ⟨tail, rfl⟩ := hstar
    rw [readCount_star] at h
    obtain ⟨⟨_, _⟩, htaken, heq⟩ := exists_of_map_eq_ok h
    cases heq
    exact ⟨byKey_of_takenCount htaken, List.suffix_cons _ _⟩
  · rw [readCount_of_not_star hstar] at h
    obtain ⟨rfl, rfl⟩ := writtenCount_cases h
    exact ⟨rfl, List.dropWhile_suffix _⟩

/-- A count is read in the same way whatever follows. -/
theorem readCount_append {n : Option Int} (h : readCount bound s cs = .ok (n, s', rest))
    (hrest : rest ≠ []) (more : List Char) :
    readCount bound s (cs ++ more) = .ok (n, s', rest ++ more) := by
  by_cases hstar : ∃ tail, cs = '*' :: tail
  · obtain ⟨tail, rfl⟩ := hstar
    rw [readCount_star] at h
    obtain ⟨⟨_, _⟩, htaken, heq⟩ := exists_of_map_eq_ok h
    cases heq
    rw [List.cons_append, readCount_star, htaken]
    rfl
  · have hstart : cs ≠ [] := (leaves_of_readCount h).ne_nil hrest
    rw [readCount_of_not_star hstar] at h
    obtain ⟨-, hleft⟩ := writtenCount_cases h
    rw [hleft] at hrest
    -- the digits end within the text, so that what follows does not add to them
    rw [readCount_of_not_star (not_exists_cons_append hstar hstart more)]
    unfold writtenCount at h ⊢
    rw [takeWhile_append_of_ne_nil hrest, dropWhile_append_of_ne_nil hrest]
    dsimp only at h ⊢
    split_ifs at h ⊢
    · cases h
      rfl
    · cases h
    · cases h
      rfl

theorem readCount_spent {n : Option Int} (h : readCount bound .spent cs = .ok (n, s', rest)) :
    s' = .spent := by
  by_cases hstar : ∃ tail, cs = '*' :: tail
  · obtain ⟨tail, rfl⟩ := hstar
    cases h
  · rw [readCount_of_not_star hstar] at h
    exact (writtenCount_cases h).1

/-! ### Precisions and sizes -/

theorem readPrecision_point (s : Supply) (tail : List Char) :
    readPrecision s ('.' :: tail) = (readCount precisionBound s tail).map
      fun (n, s, rest) => (some (n.getD 0).toNat, s, rest) := by
  rw [readPrecision]
  cases readCount precisionBound s tail <;> rfl

theorem readPrecision_of_not_point (hpoint : ¬ ∃ tail, cs = '.' :: tail) :
    readPrecision s cs = .ok (none, s, cs) := by
  unfold readPrecision
  split
  · exact absurd ⟨_, rfl⟩ hpoint
  · rfl

theorem leaves_of_readPrecision {n : Option Nat} (h : readPrecision s cs = .ok (n, s', rest)) :
    Leaves s cs s' rest := by
  by_cases hpoint : ∃ tail, cs = '.' :: tail
  · obtain ⟨tail, rfl⟩ := hpoint
    rw [readPrecision_point] at h
    obtain ⟨⟨_, _, _⟩, hread, heq⟩ := exists_of_map_eq_ok h
    cases heq
    have hleaves := leaves_of_readCount hread
    exact ⟨hleaves.byKey, hleaves.suffix.trans (List.suffix_cons _ _)⟩
  · rw [readPrecision_of_not_point hpoint] at h
    cases h
    exact Leaves.refl s cs

/-- A precision is read in the same way whatever follows. -/
theorem readPrecision_append {n : Option Nat} (h : readPrecision s cs = .ok (n, s', rest))
    (hrest : rest ≠ []) (more : List Char) :
    readPrecision s (cs ++ more) = .ok (n, s', rest ++ more) := by
  by_cases hpoint : ∃ tail, cs = '.' :: tail
  · obtain ⟨tail, rfl⟩ := hpoint
    rw [readPrecision_point] at h
    obtain ⟨⟨_, _, _⟩, hread, heq⟩ := exists_of_map_eq_ok h
    cases heq
    rw [List.cons_append, readPrecision_point, readCount_append hread hrest more]
    rfl
  · have hstart : cs ≠ [] := (leaves_of_readPrecision h).ne_nil hrest
    rw [readPrecision_of_not_point hpoint] at h
    rw [readPrecision_of_not_point (not_exists_cons_append hpoint hstart more)]
    cases h
    rfl

theorem readPrecision_spent {n : Option Nat} (h : readPrecision .spent cs = .ok (n, s', rest)) :
    s' = .spent := by
  by_cases hpoint : ∃ tail, cs = '.' :: tail
  · obtain ⟨tail, rfl⟩ := hpoint
    rw [readPrecision_point] at h
    obtain ⟨⟨_, _, _⟩, hread, heq⟩ := exists_of_map_eq_ok h
    cases heq
    exact readCount_spent hread
  · rw [readPrecision_of_not_point hpoint] at h
    cases h
    rfl

theorem skipSize_suffix (cs : List Char) : skipSize cs <:+ cs := by
  cases cs with
  | nil => exact List.suffix_refl _
  | cons c tail =>
    rw [skipSize]
    split_ifs
    · exact List.suffix_cons _ _
    · exact List.suffix_refl _

theorem skipSize_append (h : skipSize cs ≠ []) (more : List Char) :
    skipSize (cs ++ more) = skipSize cs ++ more := by
  cases cs with
  | nil => exact absurd rfl h
  | cons c tail =>
    rw [List.cons_append, skipSize, skipSize]
    split <;> rfl

/-! ### Directives -/

/-- What is written does not depend on the place that a fault would tell. -/
theorem write_congr {layout : Layout} {letter : Char} {place : Nat} {v : Value} {w : List Char}
    (h : layout.write letter place v = .ok w) (place' : Nat) :
    layout.write letter place' v = .ok w := by
  unfold Layout.write at h ⊢
  split_ifs at h ⊢ <;> first | exact h | cases h

/-- What is written by a letter is a value, which the letter takes. -/
theorem exists_of_writeNext {layout : Layout} {w : List Char}
    (h : writeNext length layout s cs = .ok (w, s', rest)) :
    ∃ letter v, cs = letter :: rest ∧ s.take = .ok (v, s') ∧
      ∀ place, layout.write letter place v = .ok w := by
  cases cs with
  | nil => cases h
  | cons letter tail =>
    unfold writeNext at h
    dsimp only at h
    split at h
    · cases h
    · rename_i v s₁ htake
      obtain ⟨w', hwrite, heq⟩ := exists_of_map_eq_ok h
      cases heq
      exact ⟨letter, v, rfl, htake, write_congr hwrite⟩

/-- The parts of a directive that can be written. -/
theorem exists_of_valueDirective {w : List Char}
    (h : valueDirective length s cs = .ok (w, s', rest)) :
    ∃ s₁ cs₁ width s₂ cs₂ precision s₃ cs₃, readKey s cs = .ok (s₁, cs₁) ∧
      readCount widthBound s₁ (cs₁.dropWhile isFlag) = .ok (width, s₂, cs₂) ∧
      readPrecision s₂ cs₂ = .ok (precision, s₃, cs₃) ∧
      writeNext length (.ofDirective (cs₁.takeWhile isFlag) width precision) s₃ (skipSize cs₃) =
        .ok (w, s', rest) := by
  unfold valueDirective at h
  split at h
  · cases h
  · rename_i s₁ cs₁ hkey
    split at h
    · cases h
    · rename_i width s₂ cs₂ hwidth
      split at h
      · cases h
      · rename_i precision s₃ cs₃ hprecision
        exact ⟨s₁, cs₁, width, s₂, cs₂, precision, s₃, cs₃, hkey, hwidth, hprecision, h⟩

/-- A directive that can be written is the same whatever follows it. -/
theorem valueDirective_append {w : List Char}
    (h : valueDirective length s cs = .ok (w, s', rest)) :
    s'.byKey = s.byKey ∧ rest.length < cs.length ∧
      ∀ length' more, valueDirective length' s (cs ++ more) = .ok (w, s', rest ++ more) := by
  obtain ⟨s₁, cs₁, width, s₂, cs₂, precision, s₃, cs₃, hkey, hwidth, hprecision, hnext⟩ :=
    exists_of_valueDirective h
  obtain ⟨letter, v, hletter, htake, hwrite⟩ := exists_of_writeNext hnext
  -- The letter is still to come, so every reader before it has left something behind.
  have hsize : skipSize cs₃ ≠ [] := by
    rw [hletter]
    exact List.cons_ne_nil _ _
  have hcs₃ : cs₃ ≠ [] := fun heq => hsize (by rw [heq]; rfl)
  have hflags : cs₁.dropWhile isFlag ≠ [] :=
    ((leaves_of_readCount hwidth).trans (leaves_of_readPrecision hprecision)).ne_nil hcs₃
  have hcs₂ : cs₂ ≠ [] := (leaves_of_readPrecision hprecision).ne_nil hcs₃
  have hcs₁ : cs₁ ≠ [] := fun heq => hflags (by rw [heq]; rfl)
  refine ⟨?_, ?_, ?_⟩
  · rw [byKey_of_take htake, (leaves_of_readPrecision hprecision).byKey,
      (leaves_of_readCount hwidth).byKey, (leaves_of_readKey hkey).byKey]
  · have hsuffix : letter :: rest <:+ cs := by
      rw [← hletter]
      exact (skipSize_suffix cs₃).trans ((leaves_of_readPrecision hprecision).suffix.trans
        ((leaves_of_readCount hwidth).suffix.trans ((List.dropWhile_suffix _).trans
          (leaves_of_readKey hkey).suffix)))
    have hlength := hsuffix.length_le
    rw [List.length_cons] at hlength
    omega
  · intro length' more
    unfold valueDirective
    rw [readKey_append hkey hcs₁ more]
    dsimp only
    rw [dropWhile_append_of_ne_nil hflags, takeWhile_append_of_ne_nil hflags,
      readCount_append hwidth hcs₂ more]
    dsimp only
    rw [readPrecision_append hprecision hcs₃ more]
    dsimp only
    rw [skipSize_append hsize, hletter, List.cons_append, writeNext, htake]
    dsimp only
    rw [hwrite]
    rfl

/-- Without values there is nothing to write. -/
theorem valueDirective_spent {w : List Char} :
    valueDirective length .spent cs ≠ .ok (w, s', rest) := by
  intro h
  obtain ⟨s₁, cs₁, width, s₂, cs₂, precision, s₃, cs₃, hkey, hwidth, hprecision, hnext⟩ :=
    exists_of_valueDirective h
  obtain rfl := readKey_spent hkey
  obtain rfl := readCount_spent hwidth
  obtain rfl := readPrecision_spent hprecision
  obtain ⟨letter, v, -, htake, -⟩ := exists_of_writeNext hnext
  cases htake

/-- A directive is filled in the same way whatever follows it and however long the template is; it
leaves less than there was. -/
theorem directive_append {w : List Char} (h : directive length s cs = .ok (w, s', rest)) :
    s'.byKey = s.byKey ∧ rest.length < cs.length ∧
      ∀ length' more, directive length' s (cs ++ more) = .ok (w, s', rest ++ more) := by
  unfold directive at h
  split at h
  · cases h
    exact ⟨rfl, by simp, fun length' more => rfl⟩
  · rename_i hpercent
    obtain ⟨hkey, hlength, hmore⟩ := valueDirective_append h
    refine ⟨hkey, hlength, ?_⟩
    intro length' more
    have hdirective : directive length' s (cs ++ more) = valueDirective length' s (cs ++ more) := by
      unfold directive
      split
      · rename_i tail heq
        cases cs with
        | nil => cases hlength
        | cons c front =>
          cases heq
          exact absurd rfl (hpercent front)
      · rfl
    rw [hdirective, hmore]

end AppReport.Template
