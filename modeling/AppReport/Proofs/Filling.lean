import AppReport.Proofs.Directives

/-!
# Filling templates piece by piece

A template that can be filled on its own leaves certain values when it is at its end, and a text put
behind it is filled with these (`Template.Fills.append`); there is no other way to fill the two
together (`Template.Fills.split`).

What follows shows as it is if there is no `%` in it. If the values are used up, all that can be
filled is a text in which each `%` stands next to another one, and then of each two only one is
shown (`Template.fills_spent_iff`), so that a text with a `%` never shows as it is
(`Template.halved_ne_self`).
-/

namespace AppReport.Template

variable {s s' s'' : Supply} {cs rest : List Char} {length : Nat}

/-! ### Whole templates -/

/-- A text is filled: it becomes another one, and takes some of the values. -/
inductive Fills : Supply → List Char → List Char → Supply → Prop
  | nil (s : Supply) : Fills s [] [] s
  | literal {s s' : Supply} {c : Char} {rest shown : List Char} (hc : c ≠ '%')
      (h : Fills s rest shown s') : Fills s (c :: rest) (c :: shown) s'
  | directive {s s₁ s' : Supply} {cs w rest shown : List Char}
      (hd : Template.directive 0 s cs = .ok (w, s₁, rest)) (h : Fills s₁ rest shown s') :
      Fills s ('%' :: cs) (w ++ shown) s'

/-- No value is left over; values by key need not be asked for. -/
def Supply.IsDone (s : Supply) : Prop := s.byKey = none → s.next = []

theorem fillFrom_nil_eq_ok_iff {fuel : Nat} {shown : List Char} :
    fillFrom length (fuel + 1) s [] = .ok shown ↔ shown = [] ∧ s.IsDone := by
  unfold fillFrom Supply.IsDone
  obtain ⟨next, byKey⟩ := s
  cases byKey with
  | none =>
    cases next with
    | nil => simp [eq_comm]
    | cons v rest => simp [unsuited]
  | some fields => simp [eq_comm]

theorem fillFrom_directive_eq_ok_iff {fuel : Nat} {text : List Char} :
    fillFrom length (fuel + 1) s ('%' :: cs) = .ok text ↔
      ∃ w s₁ left shown, directive length s cs = .ok (w, s₁, left) ∧
        fillFrom length fuel s₁ left = .ok shown ∧ text = w ++ shown := by
  rw [fillFrom]
  constructor
  · intro h
    split at h
    · cases h
    · rename_i w s₁ left hdirective
      obtain ⟨shown, hshown, rfl⟩ := exists_of_map_eq_ok h
      exact ⟨w, s₁, left, shown, hdirective, hshown, rfl⟩
  · rintro ⟨w, s₁, left, shown, hdirective, hshown, rfl⟩
    rw [hdirective]
    dsimp only
    rw [hshown]
    rfl

theorem fillFrom_literal_eq_ok_iff {fuel : Nat} {c : Char} {text : List Char} (hc : c ≠ '%') :
    fillFrom length (fuel + 1) s (c :: cs) = .ok text ↔
      ∃ shown, fillFrom length fuel s cs = .ok shown ∧ text = c :: shown := by
  rw [fillFrom]
  · constructor
    · intro h
      obtain ⟨shown, hshown, rfl⟩ := exists_of_map_eq_ok h
      exact ⟨shown, hshown, rfl⟩
    · rintro ⟨shown, hshown, rfl⟩
      rw [hshown]
      rfl
  · exact hc

/-- A directive that can be written in one template can be in every template. -/
theorem directive_congr {w : List Char} (h : directive length s cs = .ok (w, s', rest))
    (length' : Nat) : directive length' s cs = .ok (w, s', rest) := by
  have hmore := (directive_append h).2.2 length' []
  rwa [List.append_nil, List.append_nil] at hmore

/-- A template can be filled if its text can be, and takes all values. -/
theorem fillFrom_eq_ok_iff {fuel : Nat} {text : List Char} (hfuel : cs.length < fuel) :
    fillFrom length fuel s cs = .ok text ↔ ∃ s', Fills s cs text s' ∧ s'.IsDone := by
  induction fuel generalizing s cs text with
  | zero => omega
  | succ fuel ih =>
    cases cs with
    | nil =>
      rw [fillFrom_nil_eq_ok_iff]
      constructor
      · rintro ⟨rfl, hdone⟩
        exact ⟨s, .nil s, hdone⟩
      · rintro ⟨s', hfills, hdone⟩
        cases hfills
        exact ⟨rfl, hdone⟩
    | cons c rest =>
      rw [List.length_cons] at hfuel
      by_cases hc : c = '%'
      · subst hc
        rw [fillFrom_directive_eq_ok_iff]
        constructor
        · rintro ⟨w, s₁, left, shown, hdirective, hshown, rfl⟩
          -- a directive takes characters, so that the fuel lasts for what is left
          have hlength := (directive_append hdirective).2.1
          obtain ⟨s', hfills, hdone⟩ := (ih (by omega)).mp hshown
          exact ⟨s', .directive (directive_congr hdirective 0) hfills, hdone⟩
        · rintro ⟨s', hfills, hdone⟩
          cases hfills with
          | literal hc => exact absurd rfl hc
          | directive hdirective hfills =>
            have hlength := (directive_append hdirective).2.1
            exact ⟨_, _, _, _, directive_congr hdirective length,
              (ih (by omega)).mpr ⟨s', hfills, hdone⟩, rfl⟩
      · rw [fillFrom_literal_eq_ok_iff hc]
        constructor
        · rintro ⟨shown, hshown, rfl⟩
          obtain ⟨s', hfills, hdone⟩ := (ih (by omega)).mp hshown
          exact ⟨s', .literal hc hfills, hdone⟩
        · rintro ⟨s', hfills, hdone⟩
          cases hfills with
          | literal _ hfills => exact ⟨_, (ih (by omega)).mpr ⟨s', hfills, hdone⟩, rfl⟩
          | directive => exact absurd rfl hc

theorem fill_eq_ok_iff {template shown : List Char} {args : Args} :
    fill template args = .ok shown ↔
      ∃ s', Fills args.supply template shown s' ∧ s'.IsDone :=
  fillFrom_eq_ok_iff (Nat.lt_succ_self _)

namespace Fills

variable {shown more text : List Char}

theorem byKey (h : Fills s cs shown s') : s'.byKey = s.byKey := by
  induction h with
  | nil => rfl
  | literal _ _ ih => exact ih
  | directive hd _ ih => rw [ih, (directive_append hd).1]

/-- What follows a text is filled with the values that the text leaves. -/
theorem append (h : Fills s cs shown s') (hmore : Fills s' rest more s'') :
    Fills s (cs ++ rest) (shown ++ more) s'' := by
  induction h with
  | nil => exact hmore
  | literal hc _ ih => exact .literal hc (ih hmore)
  | @directive _ _ _ _ w _ shown hd _ ih =>
    rw [List.cons_append, List.append_assoc]
    exact .directive ((directive_append hd).2.2 0 rest) (ih hmore)

/-- There is no other way to fill a text with more behind it. -/
theorem split (h : Fills s cs shown s') (hall : Fills s (cs ++ rest) text s'') :
    ∃ more, Fills s' rest more s'' ∧ text = shown ++ more := by
  induction h generalizing text with
  | nil => exact ⟨text, hall, rfl⟩
  | literal hc _ ih =>
    rw [List.cons_append] at hall
    cases hall with
    | literal _ hall =>
      obtain ⟨more, hmore, rfl⟩ := ih hall
      exact ⟨more, hmore, rfl⟩
    | directive => exact absurd rfl hc
  | @directive _ _ _ _ w _ shown hd _ ih =>
    rw [List.cons_append] at hall
    cases hall with
    | literal hc => exact absurd rfl hc
    | directive hd' hall =>
      -- The directive is the same with more behind it, so both ways begin alike.
      rw [(directive_append hd).2.2 0 rest] at hd'
      cases hd'
      obtain ⟨more, hmore, rfl⟩ := ih hall
      exact ⟨more, hmore, by rw [List.append_assoc]⟩

/-- A text without directives shows as it is. -/
theorem of_not_mem (s : Supply) (h : '%' ∉ cs) : Fills s cs cs s := by
  induction cs with
  | nil => exact .nil s
  | cons c rest ih =>
    rw [List.mem_cons, not_or] at h
    exact .literal (Ne.symm h.1) (ih h.2)

end Fills

/-! ### Without values -/

/-- A text in which each `%` stands next to another one, with one of each two. -/
def halved : List Char → Option (List Char)
  | [] => some []
  | '%' :: '%' :: rest => (halved rest).map ('%' :: ·)
  | c :: rest => if c = '%' then none else (halved rest).map (c :: ·)

/-- If the values are used up, all that can be filled is a text in which each `%` stands next to
another one. -/
theorem fills_spent_iff {shown : List Char} :
    Fills .spent cs shown s' ↔ halved cs = some shown ∧ s' = .spent := by
  -- along `halved`, whose cases are a pair of marks, a single mark and any other character
  fun_induction halved cs generalizing shown with
  | case1 =>
    constructor
    · intro h
      cases h
      exact ⟨rfl, rfl⟩
    · rintro ⟨h, rfl⟩
      cases h
      exact .nil _
  | case2 rest ih =>
    constructor
    · intro h
      cases h with
      | literal hc => exact absurd rfl hc
      | directive hd h =>
        cases hd
        obtain ⟨hhalved, rfl⟩ := ih.mp h
        rw [hhalved]
        exact ⟨rfl, rfl⟩
    · rintro ⟨h, rfl⟩
      obtain ⟨inner, hinner, rfl⟩ := Option.map_eq_some_iff.mp h
      exact .directive (w := ['%']) rfl (ih.mpr ⟨hinner, rfl⟩)
  | case3 rest hpair =>
    constructor
    · intro h
      cases h with
      | literal hc => exact absurd rfl hc
      | directive hd h =>
        unfold directive at hd
        split at hd
        · exact (hpair _ rfl rfl).elim
        · -- a single mark asks for a value, and none is left
          exact absurd hd valueDirective_spent
    · rintro ⟨h, -⟩
      cases h
  | case4 c rest hpair hc ih =>
    constructor
    · intro h
      cases h with
      | literal _ h =>
        obtain ⟨hhalved, rfl⟩ := ih.mp h
        rw [hhalved]
        exact ⟨rfl, rfl⟩
      | directive => exact absurd rfl hc
    · rintro ⟨h, rfl⟩
      obtain ⟨inner, hinner, rfl⟩ := Option.map_eq_some_iff.mp h
      exact .literal hc (ih.mpr ⟨hinner, rfl⟩)

/-- One of each two `%` is not shown. -/
theorem length_of_halved {shown : List Char} (h : halved cs = some shown) :
    cs.length = shown.length + shown.count '%' ∧ cs.count '%' = 2 * shown.count '%' := by
  fun_induction halved cs generalizing shown with
  | case1 =>
    cases h
    exact ⟨rfl, rfl⟩
  | case2 rest ih =>
    obtain ⟨inner, hinner, rfl⟩ := Option.map_eq_some_iff.mp h
    have hlength := ih hinner
    simp only [List.length_cons, List.count_cons_self]
    omega
  | case3 rest hpair => cases h
  | case4 c rest hpair hc ih =>
    obtain ⟨inner, hinner, rfl⟩ := Option.map_eq_some_iff.mp h
    have hlength := ih hinner
    simp only [List.length_cons, List.count_cons_of_ne hc]
    omega

/-- A text with a `%` does not show as it is. -/
theorem halved_ne_self (h : '%' ∈ cs) : halved cs ≠ some cs := by
  intro hself
  have hlength := (length_of_halved hself).1
  have hcount : 0 < cs.count '%' := List.count_pos_iff.mpr h
  omega

end AppReport.Template
