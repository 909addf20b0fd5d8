import AppReport.Proofs.PlainLines
import AppReport.Proofs.Tags

/-!
# Documents and the ends of their lines

Between the parts of a document a line end is a blank like others. So a document gives the same
value whichever way its lines end, or it is given up in the same way
(`Json.read_plainLines_eq_ok_iff`, `Json.isExcessive_plainLines_iff`); only the place of an error
may be another one.
-/

namespace AppReport.Json

variable {c : Char} {cs ds : List Char}

/-! ### Containers -/

section

variable {α : Type}

/-- What follows a part of a container: its end, or a comma and more parts. -/
def afterPart (close : Char) (part : α) (more : List Char → Reading (List α)) (cs : List Char) :
    Reading (List α) :=
  match cs with
  | [] => stop .expectedComma []
  | c :: rest =>
    if c = close then .ok ([part], rest)
    else if c = ',' then
      (more (skipSpace rest)).andThen fun parts rest => .ok (part :: parts, rest)
    else stop .expectedComma (c :: rest)

variable {close : Char} {part : α} {more more' : List Char → Reading (List α)}

theorem afterPart_of_ne (hclose : ∀ rest, cs ≠ close :: rest) (hcomma : ∀ rest, cs ≠ ',' :: rest) :
    afterPart close part more cs = stop .expectedComma cs := by
  rcases cs with _ | ⟨c, cs⟩
  · rfl
  · have hc : c ≠ close := fun h => hclose cs (by rw [h])
    have hc' : c ≠ ',' := fun h => hcomma cs (by rw [h])
    rw [afterPart, if_neg hc, if_neg hc']

/-- What follows a part of a container is the same in both forms: a comma, the end, or neither. -/
theorem alike_afterPart (hclose : IsInner close) {ds : List Char} (hds : ds <:+ cs)
    (hmore : ∀ tail, ',' :: tail <:+ cs →
      Reading.Alike (skipSpace tail) (more (skipSpace tail))
        (more' (plainLines (skipSpace tail)))) :
    Reading.Alike cs (afterPart close part more ds)
      (afterPart close part more' (plainLines ds)) := by
  by_cases hend : ∃ rest, ds = close :: rest
  · obtain ⟨rest, rfl⟩ := hend
    rw [plainLines_cons hclose.1, afterPart, afterPart, if_pos rfl, if_pos rfl]
    exact .ok [part] ((List.suffix_cons _ _).trans hds)
  by_cases hcomma : ∃ rest, ds = ',' :: rest
  · obtain ⟨rest, rfl⟩ := hcomma
    have hne : ',' ≠ close := fun h => hend ⟨rest, by rw [h]⟩
    have hrest : skipSpace rest <:+ cs :=
      ((skipSpace_suffix rest).trans (List.suffix_cons _ _)).trans hds
    rw [plainLines_cons (by decide), afterPart, afterPart, if_neg hne, if_neg hne, if_pos rfl,
      if_pos rfl, skipSpace_plainLines]
    refine (hmore rest hds).andThen fun parts after hafter => ?_
    exact .ok (part :: parts) (hafter.trans hrest)
  · have hend := not_exists.mp hend
    have hcomma := not_exists.mp hcomma
    rw [afterPart_of_ne hend hcomma, afterPart_of_ne (plainLines_ne_cons hclose.2 hend)
      (plainLines_ne_cons (by decide) hcomma)]
    exact Reading.alike_stop _ _ _ _ _

end

section

variable (item : List Char → Reading Value) (fuel : ℕ)

/-- Items are read one after the other. -/
theorem readItems_succ (cs : List Char) :
    readItems item (fuel + 1) cs =
      (item cs).andThen fun v rest => afterPart ']' v (readItems item fuel) (skipSpace rest) := by
  rw [readItems]
  rcases item cs with e | ⟨v, rest⟩
  · rfl
  dsimp only [Reading.andThen]
  split
  · rename_i h
    rw [h]
    rfl
  · rename_i tail h
    rw [h, afterPart, if_neg (by decide), if_pos rfl]
    rcases readItems item fuel (skipSpace tail) with e | ⟨vs, after⟩ <;> rfl
  · rename_i hclose hcomma
    rw [afterPart_of_ne hclose hcomma]

theorem readContainer_bracket {rest : List Char} (h : skipSpace cs = ']' :: rest) :
    readContainer item true cs = .ok (.list [], rest) := by
  unfold readContainer
  rw [h]
  rfl

theorem readContainer_brace {rest : List Char} (h : skipSpace cs = '\x7d' :: rest) :
    readContainer item false cs = .ok (.object [], rest) := by
  unfold readContainer
  rw [h]
  rfl

/-- A list that is not empty has items. -/
theorem readContainer_items (h : ∀ rest, skipSpace cs ≠ ']' :: rest) :
    readContainer item true cs =
      (readItems item ((skipSpace cs).length + 1) (skipSpace cs)).andThen
        fun items rest => .ok (.list items, rest) := by
  unfold readContainer
  split
  · rename_i hend
    exact absurd hend (h _)
  · rcases readItems item ((skipSpace cs).length + 1) (skipSpace cs) with e | ⟨items, rest⟩ <;> rfl
  · cases ‹true = false›
  · cases ‹true = false›

/-- An object that is not empty has fields. -/
theorem readContainer_fields (h : ∀ rest, skipSpace cs ≠ '\x7d' :: rest) :
    readContainer item false cs =
      (readFields item ((skipSpace cs).length + 1) (skipSpace cs)).andThen
        fun pairs rest => .ok (.object (Fields.ofPairs pairs), rest) := by
  unfold readContainer
  split
  · cases ‹false = true›
  · cases ‹false = true›
  · rename_i hend
    exact absurd hend (h _)
  · rcases readFields item ((skipSpace cs).length + 1) (skipSpace cs) with e | ⟨pairs, rest⟩ <;> rfl

/-- What follows the key of a field: a colon, a value, and what follows that. -/
def afterKey (key : String) (cs : List Char) : Reading (List (String × Value)) :=
  match cs with
  | ':' :: rest =>
    (item (skipSpace rest)).andThen fun v rest =>
      afterPart '\x7d' (key, v) (readFields item fuel) (skipSpace rest)
  | cs => stop .expectedColon cs

theorem readFields_quote (cs : List Char) :
    readFields item (fuel + 1) ('"' :: cs) =
      (readText ('"' :: cs).length none cs).andThen fun key rest =>
        afterKey item fuel (String.ofList key) (skipSpace rest) := by
  rw [readFields]
  rcases readText ('"' :: cs).length none cs with e | ⟨key, rest⟩
  · rfl
  dsimp only [Reading.andThen]
  -- both sides ask for a colon, a value and a comma in this order
  split
  · rename_i afterColon hcolon
    rw [hcolon, afterKey]
    rcases item (skipSpace afterColon) with e | ⟨v, rest⟩
    · rfl
    dsimp only [Reading.andThen]
    split
    · rename_i h
      rw [h]
      rfl
    · rename_i tail h
      rw [h, afterPart, if_neg (by decide), if_pos rfl]
      rcases readFields item fuel (skipSpace tail) with e | ⟨vs, after⟩ <;> rfl
    · rename_i hclose hcomma
      rw [afterPart_of_ne hclose hcomma]
  · rename_i hcolon
    rw [afterKey]
    exact hcolon

end

/-- What follows a mark is shorter, in the text and in its plain form. -/
theorem length_skipSpace_lt (hc : c ≠ '\r') (h : c :: ds <:+ cs) :
    (skipSpace ds).length < cs.length ∧
      (plainLines (skipSpace ds)).length < (plainLines cs).length := by
  have hspace := skipSpace_suffix ds
  constructor
  · exact Nat.lt_of_le_of_lt hspace.length_le (Nat.lt_of_lt_of_le (Nat.lt_succ_self _) h.length_le)
  · have hplain := length_plainLines_le_of_suffix h
    rw [plainLines_cons hc, List.length_cons] at hplain
    exact Nat.lt_of_le_of_lt (length_plainLines_le_of_suffix hspace) hplain

section

variable {item : List Char → Reading Value}
  (hitem : ∀ cs, Reading.Alike cs (item cs) (item (plainLines cs)))

include hitem

/-- There is room for as many items as the text has characters, and so there is for the items of its
plain form. -/
theorem readItems_plainLines {fuel fuel' : ℕ} (h : cs.length < fuel)
    (h' : (plainLines cs).length < fuel') :
    Reading.Alike cs (readItems item fuel cs) (readItems item fuel' (plainLines cs)) := by
  -- each step takes an item and the comma after it, in both texts
  induction fuel generalizing cs fuel' with
  | zero => exact absurd h (Nat.not_lt_zero _)
  | succ fuel ih =>
    obtain ⟨fuel', rfl⟩ := Nat.exists_eq_succ_of_ne_zero (Nat.ne_of_gt (Nat.zero_lt_of_lt h'))
    rw [readItems_succ, readItems_succ]
    refine (hitem cs).andThen fun v rest hrest => ?_
    rw [skipSpace_plainLines]
    refine alike_afterPart (by decide) ((skipSpace_suffix rest).trans hrest) fun tail htail => ?_
    obtain ⟨hlt, hlt'⟩ := length_skipSpace_lt (by decide) htail
    exact ih (by omega) (by omega)

/-- As with items, but that a key and a colon come first. -/
theorem readFields_plainLines {fuel fuel' : ℕ} (h : cs.length < fuel)
    (h' : (plainLines cs).length < fuel') :
    Reading.Alike cs (readFields item fuel cs) (readFields item fuel' (plainLines cs)) := by
  -- by induction on the fuel, which both forms of the text may have in different amounts
  induction fuel generalizing cs fuel' with
  | zero => exact absurd h (Nat.not_lt_zero _)
  | succ fuel ih =>
    obtain ⟨fuel', rfl⟩ := Nat.exists_eq_succ_of_ne_zero (Nat.ne_of_gt (Nat.zero_lt_of_lt h'))
    by_cases hquote : ∃ begun, cs = '"' :: begun
    · obtain ⟨begun, rfl⟩ := hquote
      rw [plainLines_cons (by decide), readFields_quote, readFields_quote]
      refine (readText_plainLines _ _ none begun).andThen fun key rest hrest => ?_
      rw [skipSpace_plainLines]
      have hnext : skipSpace rest <:+ '"' :: begun :=
        ((skipSpace_suffix rest).trans hrest).trans (List.suffix_cons _ _)
      by_cases hcolon : ∃ after, skipSpace rest = ':' :: after
      · obtain ⟨after, hafter⟩ := hcolon
        rw [hafter] at hnext
        rw [hafter, plainLines_cons (by decide), afterKey, afterKey, skipSpace_plainLines]
        refine (hitem (skipSpace after)).andThen fun v rest hrest => ?_
        rw [skipSpace_plainLines]
        -- what is left of a value is the end of what was left of its key
        have hvalue : skipSpace rest <:+ '"' :: begun :=
          (((skipSpace_suffix rest).trans hrest).trans (skipSpace_suffix after)).trans
            ((List.suffix_cons _ _).trans hnext)
        refine alike_afterPart (by decide) hvalue fun tail htail => ?_
        obtain ⟨hlt, hlt'⟩ := length_skipSpace_lt (by decide) htail
        exact ih (by omega) (by omega)
      · have hcolon := not_exists.mp hcolon
        rw [afterKey, afterKey]
        · exact Reading.alike_stop _ _ _ _ _
        · exact plainLines_ne_cons (by decide) hcolon
        · exact hcolon
    · have hother := not_exists.mp hquote
      rw [readFields, readFields]
      · exact Reading.alike_stop _ _ _ _ _
      · exact plainLines_ne_cons (by decide) hother
      · exact hother

/-- A list is read off the plain form as off the text, if its items are. -/
theorem readList_plainLines (cs : List Char) :
    Reading.Alike cs (readContainer item true cs) (readContainer item true (plainLines cs)) := by
  have hspace := skipSpace_suffix cs
  by_cases hend : ∃ rest, skipSpace cs = ']' :: rest
  · obtain ⟨rest, hrest⟩ := hend
    rw [hrest] at hspace
    have hplain : skipSpace (plainLines cs) = ']' :: plainLines rest := by
      rw [skipSpace_plainLines, hrest, plainLines_cons (by decide)]
    rw [readContainer_bracket item hrest, readContainer_bracket item hplain]
    exact .ok _ ((List.suffix_cons _ _).trans hspace)
  · have hend := not_exists.mp hend
    have hplain : ∀ rest, skipSpace (plainLines cs) ≠ ']' :: rest := by
      rw [skipSpace_plainLines]
      exact plainLines_ne_cons (by decide) hend
    rw [readContainer_items item hend, readContainer_items item hplain, skipSpace_plainLines]
    refine (readItems_plainLines hitem (Nat.lt_succ_self _) (Nat.lt_succ_self _)).andThen
      fun items rest hrest => ?_
    exact .ok _ (hrest.trans hspace)

/-- An object is read off the plain form as off the text, if its values are. -/
theorem readObject_plainLines (cs : List Char) :
    Reading.Alike cs (readContainer item false cs) (readContainer item false (plainLines cs)) := by
  have hspace := skipSpace_suffix cs
  by_cases hend : ∃ rest, skipSpace cs = '\x7d' :: rest
  · obtain ⟨rest, hrest⟩ := hend
    rw [hrest] at hspace
    have hplain : skipSpace (plainLines cs) = '\x7d' :: plainLines rest := by
      rw [skipSpace_plainLines, hrest, plainLines_cons (by decide)]
    rw [readContainer_brace item hrest, readContainer_brace item hplain]
    exact .ok _ ((List.suffix_cons _ _).trans hspace)
  · have hend := not_exists.mp hend
    have hplain : ∀ rest, skipSpace (plainLines cs) ≠ '\x7d' :: rest := by
      rw [skipSpace_plainLines]
      exact plainLines_ne_cons (by decide) hend
    rw [readContainer_fields item hend, readContainer_fields item hplain, skipSpace_plainLines]
    refine (readFields_plainLines hitem (Nat.lt_succ_self _) (Nat.lt_succ_self _)).andThen
      fun pairs rest hrest => ?_
    exact .ok _ (hrest.trans hspace)

end

theorem readValue_of_ne (hlist : ∀ tail, cs ≠ '[' :: tail) (hobject : ∀ tail, cs ≠ '\x7b' :: tail)
    (depth : ℕ) : readValue depth cs = readScalar cs := by
  obtain ⟨tail, h⟩ | ⟨tail, h⟩ | hscalar := readValue_cases cs
  · exact absurd h (hlist tail)
  · exact absurd h (hobject tail)
  · exact hscalar depth

/-- A list and an object are read alike if their parts are, and all else is. -/
theorem alike_readValue {depth : ℕ}
    (hlist : ∀ tail, Reading.Alike ('[' :: tail) (readValue depth ('[' :: tail))
      (readValue depth ('[' :: plainLines tail)))
    (hobject : ∀ tail, Reading.Alike ('\x7b' :: tail) (readValue depth ('\x7b' :: tail))
      (readValue depth ('\x7b' :: plainLines tail))) (cs : List Char) :
    Reading.Alike cs (readValue depth cs) (readValue depth (plainLines cs)) := by
  by_cases hbracket : ∃ tail, cs = '[' :: tail
  · obtain ⟨tail, rfl⟩ := hbracket
    rw [plainLines_cons (by decide)]
    exact hlist tail
  by_cases hbrace : ∃ tail, cs = '\x7b' :: tail
  · obtain ⟨tail, rfl⟩ := hbrace
    rw [plainLines_cons (by decide)]
    exact hobject tail
  · have hbracket := not_exists.mp hbracket
    have hbrace := not_exists.mp hbrace
    rw [readValue_of_ne hbracket hbrace, readValue_of_ne (plainLines_ne_cons (by decide) hbracket)
      (plainLines_ne_cons (by decide) hbrace)]
    exact readScalar_plainLines cs

/-- A value is read off the plain form as off the text, by induction on how deep it may be. -/
theorem readValue_plainLines (depth : ℕ) (cs : List Char) :
    Reading.Alike cs (readValue depth cs) (readValue depth (plainLines cs)) := by
  -- the parts of a container are read with one less of room
  induction depth generalizing cs with
  | zero => exact alike_readValue (fun _ => .error .tooDeep) (fun _ => .error .tooDeep) cs
  | succ depth ih =>
    refine alike_readValue (fun tail => ?_) (fun tail => ?_) cs
    · exact (readList_plainLines ih tail).mono (List.suffix_cons _ _)
    · exact (readObject_plainLines ih tail).mono (List.suffix_cons _ _)

/-! ### Documents -/

/-- What is read of a text and of its plain form: the same value, or alike errors. -/
inductive AlikeDocument : Except Break Value → Except Break Value → Prop
  | ok (v : Value) : AlikeDocument (.ok v) (.ok v)
  | error {e e' : Break} : e.Alike e' → AlikeDocument (.error e) (.error e')

/-- A document is read off the plain form as off the text. -/
theorem readDocument_plainLines (cs : List Char) :
    AlikeDocument (readDocument cs) (readDocument (plainLines cs)) := by
  by_cases hmark : ∃ rest, cs = '\uFEFF' :: rest
  · obtain ⟨rest, rfl⟩ := hmark
    rw [plainLines_cons (by decide)]
    exact .error (.malformed _ _ _ _)
  have hmark := not_exists.mp hmark
  rw [readDocument, readDocument]
  · rw [skipSpace_plainLines]
    have hvalue := readValue_plainLines deepest (skipSpace cs)
    generalize readValue deepest (skipSpace cs) = r at hvalue ⊢
    generalize readValue deepest (plainLines (skipSpace cs)) = r' at hvalue ⊢
    cases hvalue with
    | error he => exact .error he
    | @ok v rest _ =>
      dsimp only
      rw [skipSpace_plainLines]
      rcases skipSpace rest with _ | ⟨c, tail⟩
      · exact .ok v
      · -- something is left, in both texts
        have hne : plainLines (c :: tail) ≠ [] := fun h => List.cons_ne_nil _ _
          (plainLines_eq_nil_iff.mp h)
        obtain ⟨c', tail', h⟩ := List.exists_cons_of_ne_nil hne
        rw [h]
        exact .error (.malformed _ _ _ _)
  · exact plainLines_ne_cons (by decide) hmark
  · exact hmark

theorem read_ofList (cs : List Char) :
    read (String.ofList cs) = (readDocument cs).mapError (Break.locate cs) := by
  rw [read, String.toList_ofList]
  rcases readDocument cs with e | v <;> rfl

/-- A document has a value whichever way its lines end, and always the same. -/
theorem read_plainLines_eq_ok_iff {v : Value} :
    read (String.ofList (plainLines cs)) = .ok v ↔ read (String.ofList cs) = .ok v := by
  rw [read_ofList, read_ofList]
  have halike := readDocument_plainLines cs
  generalize readDocument cs = r at halike ⊢
  generalize readDocument (plainLines cs) = r' at halike ⊢
  cases halike with
  | ok w => rfl
  | error => exact ⟨nofun, nofun⟩

/-- A document is given up whichever way its lines end. -/
theorem isExcessive_plainLines_iff :
    IsExcessive (String.ofList (plainLines cs)) ↔ IsExcessive (String.ofList cs) := by
  rw [IsExcessive, IsExcessive, read_ofList, read_ofList]
  have halike := readDocument_plainLines cs
  generalize readDocument cs = r at halike ⊢
  generalize readDocument (plainLines cs) = r' at halike ⊢
  cases halike with
  | ok w => rfl
  | error he =>
    cases he with
    | malformed problem problem' left left' =>
      constructor
      · rintro (h | ⟨n, h⟩) <;> cases h
      · rintro (h | ⟨n, h⟩) <;> cases h
    | tooManyDigits n => rfl
    | tooDeep => rfl

end AppReport.Json
