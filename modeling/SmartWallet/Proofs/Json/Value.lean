import SmartWallet.Proofs.Json.Text

set_option autoImplicit false

/-! # Reading JSON that was written

A value is *spelled* when its strings and numbers are spelled as a reader expects them: a string
ends at the first quote that stands bare, and a number at the first byte that cannot belong to it.
`parse_render` says that the compact spelling of such a value reads as that value. Two steps of fuel
for each byte are enough, which is what `parse` takes. -/

namespace SmartWallet.Json

/-! ## Spelled values -/

/-- What can follow a number: nothing, a comma, or a bracket or brace that closes. -/
def EndsNumber (rest : Bytes) : Prop := ∀ x t, rest = x :: t → x = 44 ∨ x = 93 ∨ x = 125

/-- The lexeme of a string ends where the string does. -/
def IsStringLexeme (l : Bytes) : Prop := ∀ rest, scanString (l ++ 34 :: rest) = some (l, rest)

/-- The lexeme of a number starts with a minus or a digit, and ends where the number does. -/
def IsNumberLexeme (l : Bytes) : Prop :=
  (∃ x t, l = x :: t ∧ (x = 45 ∨ isDigit x = true)) ∧
    ∀ rest, EndsNumber rest → scanNumber (l ++ rest) = some (l, rest)

mutual

/-- Every string and every number of a value is spelled as a reader expects it. -/
def Spelled : Json → Prop
  | null => True
  | bool _ => True
  | number l => IsNumberLexeme l
  | string l => IsStringLexeme l
  | array items => SpelledItems items
  | object members => SpelledMembers members

/-- Every item is spelled. -/
def SpelledItems : List Json → Prop
  | [] => True
  | v :: rest => Spelled v ∧ SpelledItems rest

/-- Every member and its name is spelled. -/
def SpelledMembers : List (Bytes × Json) → Prop
  | [] => True
  | (name, v) :: rest => IsStringLexeme name ∧ Spelled v ∧ SpelledMembers rest

end

theorem isStringLexeme_escape (text : String) : IsStringLexeme (escape text) :=
  scanString_escape text

theorem spelled_ofText (text : String) : (ofText text).Spelled := isStringLexeme_escape text

theorem spelledMembers_map {fields : List (String × Json)} (h : ∀ f ∈ fields, f.2.Spelled) :
    SpelledMembers (fields.map fun (name, v) => (escape name, v)) := by
  induction fields with
  | nil => trivial
  | cons f rest ih =>
      exact ⟨isStringLexeme_escape f.1, h f (by simp), ih fun g hg => h g (by simp [hg])⟩

/-! ## Single steps of the reader -/

theorem endsNumber_nil : EndsNumber [] := fun _ _ h => nomatch h

theorem endsNumber_cons {x : UInt8} (rest : Bytes) (h : x = 44 ∨ x = 93 ∨ x = 125) :
    EndsNumber (x :: rest) := by
  intro y t ht
  cases ht
  exact h

theorem skipBlanks_cons {x : UInt8} (h : isBlank x = false) (t : Bytes) :
    skipBlanks (x :: t) = x :: t := by
  unfold skipBlanks
  exact List.dropWhile_cons_of_neg (by rw [h]; decide)

theorem ne_of_number {x y : UInt8} (hx : x = 45 ∨ isDigit x = true)
    (hy : y ≠ 45 ∧ isDigit y = false) : x ≠ y := by
  rintro rfl
  rcases hx with h | h
  · exact hy.1 h
  · rw [hy.2] at h
    cases h

theorem not_isBlank_of_number {x : UInt8} (h : x = 45 ∨ isDigit x = true) : isBlank x = false := by
  have h1 : x ≠ 32 := ne_of_number h (by decide)
  have h2 : x ≠ 9 := ne_of_number h (by decide)
  have h3 : x ≠ 10 := ne_of_number h (by decide)
  have h4 : x ≠ 13 := ne_of_number h (by decide)
  simp [isBlank, h1, h2, h3, h4]

theorem readValue_number {x : UInt8} (h : x = 45 ∨ isDigit x = true) (fuel : Nat) (t : Bytes) :
    readValue (fuel + 1) (x :: t)
      = (scanNumber (x :: t)).map fun (lexeme, rest) => (number lexeme, rest) := by
  have hblank : skipBlanks (x :: t) = x :: t := skipBlanks_cons (not_isBlank_of_number h) t
  -- no literal, string, array or object starts with a minus or a digit
  have h1 : x ≠ 110 := ne_of_number h (by decide)
  have h2 : x ≠ 116 := ne_of_number h (by decide)
  have h3 : x ≠ 102 := ne_of_number h (by decide)
  have h4 : x ≠ 34 := ne_of_number h (by decide)
  have h5 : x ≠ 91 := ne_of_number h (by decide)
  have h6 : x ≠ 123 := ne_of_number h (by decide)
  unfold readValue
  rw [hblank]
  split <;> simp_all
  cases scanNumber (x :: t) <;> rfl

/-- A value is read as it is behind a bracket or brace that opens, unless that closes at once. -/
theorem readValue_array {fuel : Nat} {x : UInt8} {t rest : Bytes} {items : List Json}
    (hblank : isBlank x = false) (hx : x ≠ 93)
    (h : readItems fuel (x :: t) = some (items, rest)) :
    readValue (fuel + 1) (91 :: x :: t) = some (array items, rest) := by
  have hopen : skipBlanks (91 :: x :: t) = 91 :: x :: t := skipBlanks_cons (by decide) _
  have hblank : skipBlanks (x :: t) = x :: t := skipBlanks_cons hblank t
  unfold readValue
  rw [hopen]
  simp only [hblank]
  split
  · simp_all
  · rw [h]
    rfl

theorem readValue_object {fuel : Nat} {t rest : Bytes} {members : List (Bytes × Json)}
    (h : readMembers fuel (34 :: t) = some (members, rest)) :
    readValue (fuel + 1) (123 :: 34 :: t) = some (object members, rest) := by
  have hopen : skipBlanks (123 :: 34 :: t) = 123 :: 34 :: t := skipBlanks_cons (by decide) _
  have hblank : skipBlanks (34 :: t) = 34 :: t := skipBlanks_cons (by decide) t
  unfold readValue
  rw [hopen]
  simp only [hblank]
  split
  · simp_all
  · rw [h]
    rfl

/-! ## Whole values -/

/-- A spelled value starts with a byte that is neither blank nor a closing bracket. -/
theorem render_head (v : Json) (h : v.Spelled) :
    ∃ x t, v.render = x :: t ∧ isBlank x = false ∧ x ≠ 93 := by
  cases v with
  | null => exact ⟨110, _, rfl, by decide, by decide⟩
  | bool b => cases b with
      | true => exact ⟨116, _, rfl, by decide, by decide⟩
      | false => exact ⟨102, _, rfl, by decide, by decide⟩
  | number l =>
      obtain ⟨⟨x, t, rfl, hx⟩, -⟩ := h
      exact ⟨x, t, rfl, not_isBlank_of_number hx, ne_of_number hx (by decide)⟩
  | string l => exact ⟨34, _, rfl, by decide, by decide⟩
  | array items => exact ⟨91, _, rfl, by decide, by decide⟩
  | object members => exact ⟨123, _, rfl, by decide, by decide⟩

theorem length_render_pos (v : Json) (h : v.Spelled) : 1 ≤ v.render.length := by
  obtain ⟨x, t, hv, -⟩ := render_head v h
  rw [hv]
  exact Nat.succ_le_succ (Nat.zero_le _)

mutual

/-- The spelling of a value reads as the value. -/
theorem readValue_render : ∀ (v : Json) (fuel : Nat) (rest : Bytes), v.Spelled → EndsNumber rest →
    2 * v.render.length ≤ fuel → readValue fuel (v.render ++ rest) = some (v, rest)
  | v, 0, rest, hv, _, hf => by
      have := length_render_pos v hv
      omega
  | null, fuel + 1, rest, _, _, _ => rfl
  | bool true, fuel + 1, rest, _, _, _ => rfl
  | bool false, fuel + 1, rest, _, _, _ => rfl
  | number l, fuel + 1, rest, hv, hr, _ => by
      obtain ⟨⟨x, t, rfl, hx⟩, hscan⟩ := hv
      have h := hscan rest hr
      show readValue (fuel + 1) (x :: (t ++ rest)) = _
      rw [readValue_number hx, ← List.cons_append, h]
      rfl
  | string l, fuel + 1, rest, hv, _, _ => by
      have h : scanString (l ++ 34 :: rest) = some (l, rest) := hv rest
      have hr : (string l).render ++ rest = 34 :: (l ++ 34 :: rest) := by
        simp [render]
      rw [hr]
      unfold readValue
      rw [skipBlanks_cons (by decide)]
      simp only [h]
      rfl
  | array [], fuel + 1, rest, _, _, _ => rfl
  | array (v :: items), fuel + 1, rest, hv, _, hf => by
      -- the head of the first item is no closing bracket, so the array is not read as empty
      obtain ⟨x, t, hx, hblank, h93⟩ := render_head v hv.1
      have hlen : (array (v :: items)).render.length = (renderItems (v :: items)).length + 2 := by
        simp [render]
      have h := readItems_render v items fuel rest hv (by omega)
      obtain ⟨t', ht⟩ : ∃ t', renderItems (v :: items) = x :: t' := by
        cases items <;> simp [renderItems, hx]
      have htext : (array (v :: items)).render ++ rest = 91 :: x :: (t' ++ 93 :: rest) := by
        simp [render, ht]
      rw [ht] at h
      rw [htext]
      exact readValue_array hblank h93 h
  | object [], fuel + 1, rest, _, _, _ => rfl
  | object ((name, v) :: members), fuel + 1, rest, hv, _, hf => by
      -- likewise, a quote is no closing brace
      have hlen : (object ((name, v) :: members)).render.length
          = (renderMembers ((name, v) :: members)).length + 2 := by
        simp [render]
      have h := readMembers_render name v members fuel rest hv (by omega)
      obtain ⟨t, ht⟩ : ∃ t, renderMembers ((name, v) :: members) = 34 :: t := by
        cases members <;> simp [renderMembers]
      have htext : (object ((name, v) :: members)).render ++ rest
          = 123 :: 34 :: (t ++ 125 :: rest) := by
        simp [render, ht]
      rw [ht] at h
      rw [htext]
      exact readValue_object h

/-- The items of an array read as they are, up to the closing bracket. -/
theorem readItems_render : ∀ (v : Json) (items : List Json) (fuel : Nat) (rest : Bytes),
    SpelledItems (v :: items) → 2 * (renderItems (v :: items)).length + 1 ≤ fuel →
    readItems fuel (renderItems (v :: items) ++ 93 :: rest) = some (v :: items, rest)
  | v, items, 0, rest, _, hf => by omega
  | v, [], fuel + 1, rest, hv, hf => by
      have h := readValue_render v fuel (93 :: rest) hv.1 (endsNumber_cons rest (by decide))
        (by simp only [renderItems] at hf; omega)
      simp only [renderItems]
      unfold readItems
      rw [h]
      simp [skipBlanks_cons (show isBlank 93 = false by decide)]
  | v, w :: items, fuel + 1, rest, hv, hf => by
      have hlen : (renderItems (v :: w :: items)).length
          = v.render.length + (renderItems (w :: items)).length + 1 := by
        simp [renderItems]; omega
      have h := readValue_render v fuel (44 :: (renderItems (w :: items) ++ 93 :: rest)) hv.1
        (endsNumber_cons _ (by decide)) (by omega)
      -- the comma and the first item leave one step of fuel for the items behind them
      have hrest := readItems_render w items fuel rest hv.2 (by
        have := length_render_pos v hv.1
        omega)
      have htext : renderItems (v :: w :: items) ++ 93 :: rest
          = v.render ++ 44 :: (renderItems (w :: items) ++ 93 :: rest) := by
        simp [renderItems]
      rw [htext]
      unfold readItems
      rw [h]
      simp [skipBlanks_cons (show isBlank 44 = false by decide), hrest]

/-- The members of an object read as they are, up to the closing brace. -/
theorem readMembers_render : ∀ (name : Bytes) (v : Json) (members : List (Bytes × Json))
    (fuel : Nat) (rest : Bytes), SpelledMembers ((name, v) :: members) →
    2 * (renderMembers ((name, v) :: members)).length + 1 ≤ fuel →
    readMembers fuel (renderMembers ((name, v) :: members) ++ 125 :: rest)
      = some ((name, v) :: members, rest)
  | name, v, members, 0, rest, _, hf => by omega
  | name, v, [], fuel + 1, rest, hv, hf => by
      have hlen : (renderMembers [(name, v)]).length = name.length + v.render.length + 3 := by
        simp [renderMembers]; omega
      have h := readValue_render v fuel (125 :: rest) hv.2.1 (endsNumber_cons rest (by decide))
        (by omega)
      have hname := hv.1 (58 :: (v.render ++ 125 :: rest))
      have htext : renderMembers [(name, v)] ++ 125 :: rest
          = 34 :: (name ++ 34 :: 58 :: (v.render ++ 125 :: rest)) := by
        simp [renderMembers]
      rw [htext]
      unfold readMembers
      rw [skipBlanks_cons (by decide)]
      simp [hname, skipBlanks_cons (show isBlank 58 = false by decide), h,
        skipBlanks_cons (show isBlank 125 = false by decide)]
  | name, v, (name', w) :: members, fuel + 1, rest, hv, hf => by
      have hlen : (renderMembers ((name, v) :: (name', w) :: members)).length
          = name.length + v.render.length + (renderMembers ((name', w) :: members)).length + 4 := by
        simp [renderMembers]; omega
      have h := readValue_render v fuel
        (44 :: (renderMembers ((name', w) :: members) ++ 125 :: rest)) hv.2.1
        (endsNumber_cons _ (by decide)) (by omega)
      have hname := hv.1
        (58 :: (v.render ++ 44 :: (renderMembers ((name', w) :: members) ++ 125 :: rest)))
      have hrest := readMembers_render name' w members fuel rest hv.2.2 (by omega)
      have htext : renderMembers ((name, v) :: (name', w) :: members) ++ 125 :: rest
          = 34 :: (name ++ 34 :: 58 ::
            (v.render ++ 44 :: (renderMembers ((name', w) :: members) ++ 125 :: rest))) := by
        simp [renderMembers]
      rw [htext]
      unfold readMembers
      rw [skipBlanks_cons (by decide)]
      simp [hname, skipBlanks_cons (show isBlank 58 = false by decide), h,
        skipBlanks_cons (show isBlank 44 = false by decide), hrest]

end

/-- The spelling of a value is a text that reads as the value. -/
theorem parse_render {v : Json} (h : v.Spelled) : parse v.render = some v := by
  have hread := readValue_render v (2 * v.render.length + 2) [] h endsNumber_nil (by omega)
  rw [List.append_nil] at hread
  unfold parse
  rw [hread]
  rfl

end SmartWallet.Json
