import SmartWallet.Ecdsa.Der
import SmartWallet.Proofs.Bytes.Cursor
import SmartWallet.Proofs.Ecdsa.Signature

set_option autoImplicit false

/-! # The signatures that are read

`Spells d r s` says which byte strings are read as a signature and which numbers they write: the
length of the sequence can be anything, an integer can have zeros in front, and anything can follow.
Every reader has a `_sound` lemma, which says what a reading that succeeded has taken, and a
`_complete` lemma, which says that it succeeds on what it should take. A reading that fails because
the bytes end too early says where (`Truncated.IsPast`), so no read passes the end.

The shortest form of every pair of numbers is among these byte strings (`Shortest.spells`), and is
what `writeSignature` writes (`shortest_writeSignature`). Put together, this is the language of the
reader, `readSignature_language`. -/

namespace SmartWallet.Ecdsa.Der

/-! ## Integers -/

/-- The digits of an integer that is read: up to 32 of them, or 33 with a zero in front. -/
def FitsNumber (digits : Bytes) : Prop :=
  (1 ≤ digits.length ∧ digits.length ≤ 32) ∨ (digits.length = 33 ∧ digits.head? = some 0)

/-- The bytes of an integer that is read, and the number that they write. -/
inductive SpellsInteger : Bytes → Nat → Prop
  | intro (len : UInt8) (digits : Bytes) (length_eq : digits.length = len.toNat)
      (fits : FitsNumber digits) : SpellsInteger (integerTag :: len :: digits) (Bytes.toNat digits)

theorem magnitude_zero_cons (rest : Bytes) :
    magnitude (0 :: rest) = if rest.length = 32 then rest else 0 :: rest := rfl

theorem magnitude_cons {x : UInt8} (hx : x ≠ 0) (rest : Bytes) :
    magnitude (x :: rest) = x :: rest := by
  unfold magnitude
  split
  · rename_i heq
    exact absurd (List.head_eq_of_cons_eq heq) hx
  · rfl

theorem toNat_magnitude (digits : Bytes) : Bytes.toNat (magnitude digits) = Bytes.toNat digits := by
  unfold magnitude
  split
  · split
    · exact (Bytes.toNat_zero_cons _).symm
    · rfl
  · rfl

/-- The digits that count are none or more than 32 in the digits that do not fit. -/
theorem magnitude_refused_iff {digits : Bytes} :
    (magnitude digits = [] ∨ 32 < (magnitude digits).length) ↔ ¬ FitsNumber digits := by
  unfold FitsNumber
  cases digits with
  | nil => simp [magnitude]
  | cons x rest =>
      by_cases hx : x = 0
      · subst hx
        rw [magnitude_zero_cons]
        by_cases hrest : rest.length = 32
        · have hne : rest ≠ [] := by
            rintro rfl
            cases hrest
          have hfits : (0 :: rest).length = 33 := by rw [List.length_cons, hrest]
          rw [if_pos hrest]
          constructor
          · rintro (h | h)
            · exact absurd h hne
            · omega
          · intro h
            exact absurd (.inr ⟨hfits, rfl⟩) h
        · rw [if_neg hrest]
          simp only [List.cons_ne_nil, false_or, List.length_cons, List.head?_cons]
          omega
      · rw [magnitude_cons hx]
        simp only [List.cons_ne_nil, false_or, List.length_cons, List.head?_cons,
          Option.some.injEq, hx, and_false, or_false]
        omega

theorem magnitude_accepted {digits : Bytes} (h : FitsNumber digits) :
    ¬ (magnitude digits = [] ∨ 32 < (magnitude digits).length) :=
  mt magnitude_refused_iff.mp (not_not_intro h)

theorem FitsNumber.toNat_lt {digits : Bytes} (h : FitsNumber digits) :
    Bytes.toNat digits < Bytes.bound 32 := by
  obtain ⟨-, hlength⟩ := not_or.mp (magnitude_accepted h)
  calc Bytes.toNat digits = Bytes.toNat (magnitude digits) := (toNat_magnitude digits).symm
    _ < Bytes.bound (magnitude digits).length := Bytes.toNat_lt_bound _
    _ ≤ Bytes.bound 32 := Bytes.bound_mono (Nat.not_lt.mp hlength)

theorem SpellsInteger.lt {b : Bytes} {v : Nat} (h : SpellsInteger b v) : v < Bytes.bound 32 := by
  obtain ⟨len, digits, -, fits⟩ := h
  exact fits.toNat_lt

variable {c d : Cursor} {b rest : Bytes} {v r s : Nat}

/-- How the reading of an integer ends. -/
inductive IntegerOutcome (c : Cursor) : Except ParseError (Nat × Cursor) → Prop
  | truncated (t : Truncated) (past : t.IsPast c.bytes) : IntegerOutcome c (.error (.truncated t))
  | tag (x : UInt8) (rest : Bytes) (remaining_eq : c.remaining = x :: rest)
      (ne : x ≠ integerTag) : IntegerOutcome c (.error (.notAnInteger x))
  | length (len : UInt8) (digits rest : Bytes)
      (remaining_eq : c.remaining = integerTag :: len :: (digits ++ rest))
      (length_eq : digits.length = len.toNat) (misfits : ¬ FitsNumber digits) :
      IntegerOutcome c (.error (.invalidIntegerLength len.toNat))
  | number (b : Bytes) (v : Nat) (d : Cursor) (spells : SpellsInteger b v)
      (remaining_eq : c.remaining = b ++ d.remaining) (bytes_eq : d.bytes = c.bytes) :
      IntegerOutcome c (.ok (v, d))

theorem readInteger_outcome (c : Cursor) : IntegerOutcome c (readInteger c) := by
  unfold readInteger
  cases htag : c.readU8 with
  | error t => exact .truncated t (Cursor.isPast_of_readU8 htag)
  | ok p =>
      obtain ⟨x, c₁⟩ := p
      obtain ⟨h₁, hbytes₁⟩ := Cursor.remaining_of_readU8 htag
      by_cases hx : x = integerTag
      · subst hx
        simp only [liftM, monadLift, MonadLift.monadLift, mapError_ok, bind, Except.bind, ne_eq,
          not_true_eq_false, if_false]
        cases hlen : c₁.readU8 with
        | error t => exact .truncated t (hbytes₁ ▸ Cursor.isPast_of_readU8 hlen)
        | ok p =>
            obtain ⟨len, c₂⟩ := p
            obtain ⟨h₂, hbytes₂⟩ := Cursor.remaining_of_readU8 hlen
            simp only [mapError_ok]
            cases hdigits : c₂.read len.toNat with
            | error t =>
                have hpast := Cursor.isPast_of_read hdigits
                rw [hbytes₂, hbytes₁] at hpast
                exact .truncated t hpast
            | ok p =>
                obtain ⟨digits, c₃⟩ := p
                obtain ⟨hlength, h₃, hbytes₃⟩ := Cursor.remaining_of_read hdigits
                rw [h₂, h₃] at h₁
                simp only [mapError_ok]
                by_cases hfits : FitsNumber digits
                · rw [if_neg (magnitude_accepted hfits), toNat_magnitude]
                  exact .number _ _ c₃ (.intro len digits hlength hfits) h₁
                    (hbytes₃.trans (hbytes₂.trans hbytes₁))
                · rw [if_pos (magnitude_refused_iff.mpr hfits)]
                  exact .length len digits _ h₁ hlength hfits
      · simp only [liftM, monadLift, MonadLift.monadLift, mapError_ok, bind, Except.bind, ne_eq]
        rw [if_pos hx]
        exact .tag x _ h₁ hx

theorem readInteger_sound (h : readInteger c = .ok (v, d)) :
    ∃ b, SpellsInteger b v ∧ c.remaining = b ++ d.remaining ∧ d.bytes = c.bytes := by
  have houtcome := readInteger_outcome c
  rw [h] at houtcome
  obtain ⟨⟩ | ⟨⟩ | ⟨⟩ | ⟨b, _, _, hspells, hremaining, hbytes⟩ := houtcome
  exact ⟨b, hspells, hremaining, hbytes⟩

theorem isPast_of_readInteger {t : Truncated} (h : readInteger c = .error (.truncated t)) :
    t.IsPast c.bytes := by
  have houtcome := readInteger_outcome c
  rw [h] at houtcome
  obtain ⟨_, hpast⟩ := houtcome
  exact hpast

theorem readInteger_complete (hb : SpellsInteger b v) (h : c.remaining = b ++ rest) :
    ∃ d, readInteger c = .ok (v, d) ∧ d.remaining = rest := by
  obtain ⟨len, digits, hlength, hfits⟩ := hb
  obtain ⟨c₁, htag, h₁⟩ := Cursor.readU8_of_remaining h
  obtain ⟨c₂, hlen, h₂⟩ := Cursor.readU8_of_remaining h₁
  obtain ⟨c₃, hdigits, h₃⟩ := Cursor.read_of_remaining h₂
  rw [hlength] at hdigits
  refine ⟨c₃, ?_, h₃⟩
  unfold readInteger
  simp only [htag, hlen, hdigits, liftM, monadLift, MonadLift.monadLift, mapError_ok, bind,
    Except.bind]
  rw [if_neg (not_not_intro rfl), if_neg (magnitude_accepted hfits),
    toNat_magnitude]
  rfl

/-! ## Signatures -/

/-- The byte strings that are read as a signature, and the numbers that they write. -/
inductive Spells : Bytes → Nat → Nat → Prop
  | intro (len : UInt8) (a b rest : Bytes) (r s : Nat) (first : SpellsInteger a r)
      (second : SpellsInteger b s) : Spells (sequenceTag :: len :: (a ++ (b ++ rest))) r s

theorem Spells.lt {der : Bytes} (h : Spells der r s) :
    r < Bytes.bound 32 ∧ s < Bytes.bound 32 := by
  obtain ⟨len, a, b, rest, r, s, ha, hb⟩ := h
  exact ⟨ha.lt, hb.lt⟩

theorem readSignature_complete {der : Bytes} (h : Spells der r s) :
    readSignature der = normalizeCompact (.ofNumbers r s) := by
  obtain ⟨len, a, b, rest, r, s, ha, hb⟩ := h
  have hstart := Cursor.remaining_start (sequenceTag :: len :: (a ++ (b ++ rest)))
  obtain ⟨c₁, htag, h₁⟩ := Cursor.readU8_of_remaining hstart
  obtain ⟨c₂, hlen, h₂⟩ := Cursor.skip_of_remaining (b := [len]) h₁
  obtain ⟨c₃, hr, h₃⟩ := readInteger_complete ha h₂
  obtain ⟨c₄, hs, -⟩ := readInteger_complete hb h₃
  rw [List.length_singleton] at hlen
  unfold readSignature
  simp only [htag, hlen, hr, hs, liftM, monadLift, MonadLift.monadLift, mapError_ok, bind,
    Except.bind]
  rw [if_neg (not_not_intro rfl)]
  rfl

theorem readSignature_sound {der : Bytes} {x : Signature} (h : readSignature der = .ok x) :
    ∃ r s, Spells der r s := by
  unfold readSignature at h
  obtain ⟨⟨tag, c₁⟩, htag, h⟩ := except_bind_eq_ok_iff.mp h
  obtain ⟨h₁, -⟩ := Cursor.remaining_of_readU8 (mapError_eq_ok_iff.mp htag)
  simp only [ne_eq, ite_not] at h
  split at h
  · rename_i hsequence
    obtain ⟨c₂, hskip, h⟩ := except_bind_eq_ok_iff.mp h
    obtain ⟨header, hheader, h₂, -⟩ := Cursor.remaining_of_skip (mapError_eq_ok_iff.mp hskip)
    obtain ⟨⟨r, c₃⟩, hr, h⟩ := except_bind_eq_ok_iff.mp h
    obtain ⟨⟨s, c₄⟩, hs, -⟩ := except_bind_eq_ok_iff.mp h
    obtain ⟨a, ha, h₃, -⟩ := readInteger_sound hr
    obtain ⟨b, hb, h₄, -⟩ := readInteger_sound hs
    obtain ⟨len, rfl⟩ := List.length_eq_one_iff.mp hheader
    rw [Cursor.remaining_start, hsequence, h₂, h₃, h₄] at h₁
    rw [h₁]
    exact ⟨r, s, .intro len a b _ r s ha hb⟩
  · cases h

/-- A reading passes the end of no input. -/
theorem isPast_of_readSignature {der : Bytes} {t : Truncated}
    (h : readSignature der = .error (.truncated t)) : t.IsPast der := by
  unfold readSignature at h
  rcases except_bind_eq_error_iff.mp h with htag | ⟨⟨tag, c₁⟩, htag, h⟩
  · obtain ⟨_, htag, ⟨⟩⟩ := mapError_eq_error_iff.mp htag
    exact Cursor.isPast_of_readU8 htag
  obtain ⟨-, hder₁⟩ := Cursor.remaining_of_readU8 (mapError_eq_ok_iff.mp htag)
  simp only [ne_eq, ite_not] at h
  split at h
  · rcases except_bind_eq_error_iff.mp h with hskip | ⟨c₂, hskip, h⟩
    · obtain ⟨_, hskip, ⟨⟩⟩ := mapError_eq_error_iff.mp hskip
      have hpast := Cursor.isPast_of_skip hskip
      rwa [hder₁] at hpast
    obtain ⟨-, -, -, hder₂⟩ := Cursor.remaining_of_skip (mapError_eq_ok_iff.mp hskip)
    rcases except_bind_eq_error_iff.mp h with hr | ⟨⟨r, c₃⟩, hr, h⟩
    · have hpast := isPast_of_readInteger hr
      rwa [hder₂, hder₁] at hpast
    obtain ⟨-, -, -, hder₃⟩ := readInteger_sound hr
    rcases except_bind_eq_error_iff.mp h with hs | ⟨⟨s, c₄⟩, hs, h⟩
    · have hpast := isPast_of_readInteger hs
      rwa [hder₃, hder₂, hder₁] at hpast
    split at h <;> cases h
  · cases h

theorem normalizeCompact_eq_ok_iff {x y : Signature} :
    normalizeCompact x = .ok y ↔ x.normalize? = some y := by
  unfold normalizeCompact
  cases x.normalize? <;> simp

theorem normalizeCompact_congr {x y : Signature} (h : x.normalize? = y.normalize?) :
    normalizeCompact x = normalizeCompact y := by
  unfold normalizeCompact
  rw [h]

theorem readSignature_eq_ok_iff {der : Bytes} {x : Signature} :
    readSignature der = .ok x ↔
      ∃ r s, Spells der r s ∧ ((0 < r ∧ r < P256.n) ∧ 0 < s ∧ s < P256.n)
        ∧ x.bytes.toList = Bytes.ofNat 32 r ++ Bytes.ofNat 32 (min s (P256.n - s)) := by
  have hvalue : ∀ {r s}, Spells der r s → (readSignature der = .ok x ↔
      ((0 < r ∧ r < P256.n) ∧ 0 < s ∧ s < P256.n)
        ∧ x.bytes.toList = Bytes.ofNat 32 r ++ Bytes.ofNat 32 (min s (P256.n - s))) := by
    intro r s hspells
    obtain ⟨hr, hs⟩ := hspells.lt
    rw [readSignature_complete hspells, normalizeCompact_eq_ok_iff,
      Signature.normalize?_ofNumbers_eq_some_iff hr hs]
  constructor
  · intro h
    obtain ⟨r, s, hspells⟩ := readSignature_sound h
    exact ⟨r, s, hspells, (hvalue hspells).mp h⟩
  · rintro ⟨r, s, hspells, hx⟩
    exact (hvalue hspells).mpr hx

/-! ## Shortest forms -/

/-- The digits that write a number and no negative one, with no digit to spare: the top bit is zero,
and the first nine bits are not all zero. -/
def IsShortest : Bytes → Prop
  | [] => False
  | [x] => x < 0x80
  | x :: y :: _ => x < 0x80 ∧ (x = 0 → 0x80 ≤ y)

/-- The shortest form of an integer. -/
inductive ShortestInteger : Bytes → Nat → Prop
  | intro (len : UInt8) (digits : Bytes) (length_eq : digits.length = len.toNat)
      (shortest : IsShortest digits) :
      ShortestInteger (integerTag :: len :: digits) (Bytes.toNat digits)

/-- The shortest form of a signature. -/
inductive Shortest : Bytes → Nat → Nat → Prop
  | intro (len : UInt8) (a b : Bytes) (r s : Nat) (length_eq : (a ++ b).length = len.toNat)
      (first : ShortestInteger a r) (second : ShortestInteger b s) :
      Shortest (sequenceTag :: len :: (a ++ b)) r s

/-- The shortest digits of a number of at most 32 bytes are read. -/
theorem IsShortest.fitsNumber {digits : Bytes} (h : IsShortest digits)
    (hlt : Bytes.toNat digits < Bytes.bound 32) : FitsNumber digits := by
  match digits with
  | [x] => exact .inl ⟨Nat.le_refl 1, Nat.le_of_ble_eq_true rfl⟩
  | x :: y :: rest =>
      obtain ⟨-, hy⟩ := h
      by_cases hx : x = 0
      · subst hx
        have hne : y ≠ 0 := by
          rintro rfl
          exact absurd (hy rfl) (by decide)
        rw [Bytes.toNat_zero_cons] at hlt
        have hrest := Bytes.length_lt_of_toNat_cons_lt hne hlt
        by_cases hfull : rest.length = 31
        · exact .inr ⟨by rw [List.length_cons, List.length_cons, hfull], rfl⟩
        · left
          rw [List.length_cons, List.length_cons]
          omega
      · have hrest := Bytes.length_lt_of_toNat_cons_lt hx hlt
        rw [List.length_cons] at hrest
        left
        rw [List.length_cons, List.length_cons]
        omega

theorem ShortestInteger.spells {b : Bytes} {v : Nat} (h : ShortestInteger b v)
    (hlt : v < Bytes.bound 32) : SpellsInteger b v := by
  obtain ⟨len, digits, hlength, hshortest⟩ := h
  exact .intro len digits hlength (hshortest.fitsNumber hlt)

/-- The shortest form of a pair of numbers of at most 32 bytes is read. -/
theorem Shortest.spells {der : Bytes} (h : Shortest der r s) (hr : r < Bytes.bound 32)
    (hs : s < Bytes.bound 32) : Spells der r s := by
  obtain ⟨len, a, b, r, s, -, ha, hb⟩ := h
  have hspells := Spells.intro len a b [] r s (ha.spells hr) (hb.spells hs)
  rwa [List.append_nil] at hspells

/-! ## Signatures that were written -/

/-- The digits of an integer as they are written: a zero in front keeps the number positive. -/
def signedDigits (digits : Bytes) : Bytes :=
  if digits.head?.any (0x80 ≤ ·) then 0 :: digits else digits

theorem writeInteger_eq (v : Nat) : writeInteger v =
    integerTag :: UInt8.ofNat (signedDigits (dropZeros (Bytes.ofNat 32 v))).length
      :: signedDigits (dropZeros (Bytes.ofNat 32 v)) := rfl

theorem dropZeros_ne_nil {b : Bytes} (h : b ≠ []) : dropZeros b ≠ [] := by
  fun_induction dropZeros b with
  | case1 x rest ih => exact ih (List.cons_ne_nil x rest)
  | case2 => exact h

/-- A zero in front is kept only if it is the last digit. -/
theorem dropZeros_head {b rest : Bytes} {x y : UInt8} (h : dropZeros b = x :: y :: rest) :
    x ≠ 0 := by
  fun_induction dropZeros b with
  | case1 z digits ih => exact ih h
  | case2 digits hzero =>
      rintro rfl
      exact hzero y rest h

theorem length_dropZeros_le (b : Bytes) : (dropZeros b).length ≤ b.length := by
  fun_induction dropZeros b with
  | case1 x rest ih =>
      rw [List.length_cons]
      omega
  | case2 => exact Nat.le_refl _

theorem toNat_dropZeros (b : Bytes) : Bytes.toNat (dropZeros b) = Bytes.toNat b := by
  fun_induction dropZeros b with
  | case1 x rest ih => rw [ih, Bytes.toNat_zero_cons]
  | case2 => rfl

theorem toNat_signedDigits (digits : Bytes) :
    Bytes.toNat (signedDigits digits) = Bytes.toNat digits := by
  unfold signedDigits
  split
  · exact Bytes.toNat_zero_cons digits
  · rfl

theorem length_signedDigits_le (digits : Bytes) :
    (signedDigits digits).length ≤ digits.length + 1 := by
  unfold signedDigits
  split
  · exact Nat.le_refl _
  · exact Nat.le_succ _

theorem isShortest_signedDigits {b : Bytes} (h : b ≠ []) :
    IsShortest (signedDigits (dropZeros b)) := by
  have hhead := @dropZeros_head b
  have hne := dropZeros_ne_nil h
  generalize dropZeros b = digits at hhead hne
  unfold signedDigits
  cases digits with
  | nil => exact absurd rfl hne
  | cons x rest =>
      by_cases hx : 0x80 ≤ x
      · rw [if_pos (by simpa using hx)]
        exact ⟨by decide, fun _ => hx⟩
      · rw [if_neg (by simpa using hx)]
        cases rest with
        | nil => exact UInt8.not_le.mp hx
        | cons y rest => exact ⟨UInt8.not_le.mp hx, fun hzero => absurd hzero (hhead rfl)⟩

theorem length_writeInteger_le (v : Nat) : (writeInteger v).length ≤ 35 := by
  have hsigned := length_signedDigits_le (dropZeros (Bytes.ofNat 32 v))
  have hdropped := length_dropZeros_le (Bytes.ofNat 32 v)
  rw [Bytes.length_ofNat] at hdropped
  rw [writeInteger_eq, List.length_cons, List.length_cons]
  omega

theorem shortest_writeInteger {v : Nat} (hv : v < Bytes.bound 32) :
    ShortestInteger (writeInteger v) v := by
  have hne : Bytes.ofNat 32 v ≠ [] := by
    rw [← List.length_pos_iff, Bytes.length_ofNat]
    omega
  have hvalue : Bytes.toNat (signedDigits (dropZeros (Bytes.ofNat 32 v))) = v := by
    rw [toNat_signedDigits, toNat_dropZeros, Bytes.toNat_ofNat_of_lt hv]
  have hlength := length_writeInteger_le v
  have hshortest := isShortest_signedDigits hne
  rw [writeInteger_eq] at hlength ⊢
  -- from here on only the length and the value of the digits matter
  generalize signedDigits (dropZeros (Bytes.ofNat 32 v)) = digits at *
  rw [List.length_cons, List.length_cons] at hlength
  subst hvalue
  refine .intro _ digits ?_ hshortest
  rw [UInt8.toNat_ofNat']
  omega

/-- What is written is the shortest form. -/
theorem shortest_writeSignature (x : Signature) : Shortest (writeSignature x) x.r x.s := by
  have hr := length_writeInteger_le x.r
  have hs := length_writeInteger_le x.s
  refine .intro _ _ _ _ _ ?_ (shortest_writeInteger x.r_lt) (shortest_writeInteger x.s_lt)
  rw [UInt8.toNat_ofNat', List.length_append]
  omega

/-- The DER form of a signature reads as the low form of the signature. -/
theorem readSignature_writeSignature (x : Signature) :
    readSignature (writeSignature x) = normalizeCompact x := by
  have hspells := (shortest_writeSignature x).spells x.r_lt x.s_lt
  rw [readSignature_complete hspells, Signature.ofNumbers_r_s]

/-! ## The language of the reader -/

/-- A byte string is read exactly if it is a header, two integers of up to 32 bytes and anything
after them, with both numbers in range; every other byte string is refused, and no read passes the
end. Every pair of numbers in range has a shortest form, and each such form is read. -/
theorem readSignature_language :
    (∀ der x, readSignature der = .ok x ↔
      ∃ r s, Spells der r s ∧ ((0 < r ∧ r < P256.n) ∧ 0 < s ∧ s < P256.n)
        ∧ x.bytes.toList = Bytes.ofNat 32 r ++ Bytes.ofNat 32 (min s (P256.n - s)))
    ∧ (∀ der, (¬ ∃ r s, Spells der r s ∧ (0 < r ∧ r < P256.n) ∧ 0 < s ∧ s < P256.n) →
      ∃ e, readSignature der = .error e)
    ∧ (∀ der t, readSignature der = .error (.truncated t) → t.IsPast der)
    ∧ (∀ r s, (0 < r ∧ r < P256.n) → (0 < s ∧ s < P256.n) →
      (∃ der, Shortest der r s) ∧ ∀ der, Shortest der r s →
        ∃ x, readSignature der = .ok x
          ∧ x.bytes.toList = Bytes.ofNat 32 r ++ Bytes.ofNat 32 (min s (P256.n - s))) := by
  refine ⟨fun _ _ => readSignature_eq_ok_iff, ?_, fun _ _ => isPast_of_readSignature, ?_⟩
  · intro der hnone
    cases hread : readSignature der with
    | error e => exact ⟨e, rfl⟩
    | ok x =>
        obtain ⟨r, s, hspells, hrange, -⟩ := readSignature_eq_ok_iff.mp hread
        exact absurd ⟨r, s, hspells, hrange⟩ hnone
  · intro r s hr hs
    have hrlt := Nat.lt_trans hr.2 Signature.n_lt
    have hslt := Nat.lt_trans hs.2 Signature.n_lt
    constructor
    · have hshortest := shortest_writeSignature (.ofNumbers r s)
      rw [Signature.r_ofNumbers hrlt, Signature.s_ofNumbers hslt] at hshortest
      exact ⟨_, hshortest⟩
    · intro der hshortest
      have hbytes : (Signature.ofNumbers r (min s (P256.n - s))).bytes.toList
          = Bytes.ofNat 32 r ++ Bytes.ofNat 32 (min s (P256.n - s)) := rfl
      refine ⟨_, readSignature_eq_ok_iff.mpr ⟨r, s, ?_, ⟨hr, hs⟩, hbytes⟩, hbytes⟩
      exact hshortest.spells hrlt hslt

/-- The pair of `1` and `-1` in its shortest form, whose second integer has 33 bytes, is read as the
pair of `1` and `1`. -/
theorem readSignature_language_sample :
    ∃ x, readSignature
        (0x30 :: 0x26 :: 0x02 :: 0x01 :: 0x01 :: 0x02 :: 0x21 :: 0x00
          :: Bytes.ofNat 32 (P256.n - 1)) = .ok x
      ∧ x.bytes.toList = Bytes.ofNat 32 1 ++ Bytes.ofNat 32 1 := by
  have hr : ShortestInteger (0x02 :: 0x01 :: [0x01]) 1 := by
    have hpositive : (0x01 : UInt8) < 0x80 := by decide
    exact .intro 0x01 [0x01] rfl hpositive
  have hs : ShortestInteger (0x02 :: 0x21 :: 0x00 :: Bytes.ofNat 32 (P256.n - 1)) (P256.n - 1) := by
    have hshortest := ShortestInteger.intro 0x21 (0x00 :: Bytes.ofNat 32 (P256.n - 1)) (by decide)
      ⟨by decide, by decide⟩
    rwa [Bytes.toNat_zero_cons, Bytes.toNat_ofNat_of_lt (by decide)] at hshortest
  exact (readSignature_language.2.2.2 1 (P256.n - 1) (by decide) (by decide)).2 _
    (.intro 0x26 _ _ _ _ (by decide) hr hs)

end SmartWallet.Ecdsa.Der
