import Mathlib.Data.Nat.Digits.Lemmas
import SmartWallet.Address
import SmartWallet.Proofs.Bytes.Number

set_option autoImplicit false

/-! # One text for each payload

A strkey has one text only: whatever text is read as a payload is the text that the payload is
written as (`decode?_eq_some_iff`). A character is the digit of one value below 32, and 56 such
values are, in base 32, exactly the numbers of 35 bytes. So nothing of a text is lost when it is
read, and the checksum and the version are compared with those that would be written.

The text of a contract therefore stands for the contract, and for it alone
(`ContractAddress.ofText?_eq_some_iff`). What a text is the strkey of can be told from its first
character (`head?_encode`). -/

namespace SmartWallet.Strkey

variable {kind : Kind} {c : Char} {v : Nat} {chars : List Char} {values : List Nat}
  {text : String} {payload : Bytes32}

/-! ## Digits -/

theorem digitValue?_digit : ∀ v < 32, digitValue? (digit v) = some v := by decide

theorem digitValue?_eq_some_iff : digitValue? c = some v ↔ v < 32 ∧ digit v = c := by
  constructor
  · intro h
    unfold digitValue? at h
    dsimp only at h
    split at h
    next hletter =>
      obtain rfl := Option.some_inj.mp h
      refine ⟨by omega, ?_⟩
      rw [digit, if_pos (by omega), Nat.add_sub_cancel' hletter.1, Char.ofNat_toNat]
    next =>
      split at h
      next hdigit =>
        obtain rfl := Option.some_inj.mp h
        refine ⟨by omega, ?_⟩
        rw [digit, if_neg (by omega), Nat.add_sub_cancel' (by omega), Char.ofNat_toNat]
      next => cases h
  · rintro ⟨hv, rfl⟩
    exact digitValue?_digit v hv

/-- The characters that read as given values are the digits of these. -/
theorem mapM_digitValue?_eq_some_iff :
    chars.mapM digitValue? = some values ↔ (∀ v ∈ values, v < 32) ∧ values.map digit = chars := by
  induction chars generalizing values with
  | nil => cases values <;> simp
  | cons c chars ih =>
      rw [List.mapM_cons]
      constructor
      · intro h
        obtain ⟨v, hv, h⟩ := Option.bind_eq_some_iff.mp h
        obtain ⟨rest, hrest, h⟩ := Option.bind_eq_some_iff.mp h
        obtain rfl := Option.some_inj.mp h
        obtain ⟨hlt, rfl⟩ := digitValue?_eq_some_iff.mp hv
        obtain ⟨hall, rfl⟩ := ih.mp hrest
        exact ⟨List.forall_mem_cons.mpr ⟨hlt, hall⟩, rfl⟩
      · rintro ⟨hall, hmap⟩
        obtain ⟨v, rest, rfl, rfl, hrest⟩ := List.map_eq_cons_iff.mp hmap
        obtain ⟨hlt, hall⟩ := List.forall_mem_cons.mp hall
        rw [digitValue?_digit v hlt, ih.mpr ⟨hall, hrest⟩]
        rfl

/-! ## Numbers -/

/-- The number that values write in base 32, most significant first. -/
theorem foldl_eq_ofDigits (values : List Nat) :
    values.foldl (fun v x => v * 32 + x) 0 = Nat.ofDigits 32 values.reverse := by
  rw [Nat.ofDigits_eq_foldr, List.foldr_reverse]
  congr 1
  funext v x
  rw [Nat.cast_id]
  omega

/-- The digits of a number are those that it was made of. -/
theorem digitsOf_ofDigits (h : ∀ v ∈ values, v < 32) :
    digitsOf values.length (Nat.ofDigits 32 values) = values.map digit := by
  induction values with
  | nil => rfl
  | cons v values ih =>
      obtain ⟨hv, hvalues⟩ := List.forall_mem_cons.mp h
      have hmod : (v + 32 * Nat.ofDigits 32 values) % 32 = v := by omega
      have hdiv : (v + 32 * Nat.ofDigits 32 values) / 32 = Nat.ofDigits 32 values := by omega
      rw [List.length_cons, Nat.ofDigits_cons, digitsOf, hmod, hdiv, ih hvalues, List.map_cons]

/-- Fifty-six digits in base 32 hold what thirty-five bytes do. -/
theorem pow_eq_bound : 32 ^ 56 = Bytes.bound 35 := by norm_num [Bytes.bound]

theorem ofDigits_lt_bound (hlength : values.length = 56) (h : ∀ v ∈ values, v < 32) :
    Nat.ofDigits 32 values < Bytes.bound 35 := by
  have hlt := Nat.ofDigits_lt_base_pow_length (by decide) h
  rwa [hlength, pow_eq_bound] at hlt

theorem exists_ofDigits_eq {n : Nat} (h : n < Bytes.bound 35) :
    ∃ values : List Nat, values.length = 56 ∧ (∀ v ∈ values, v < 32)
      ∧ Nat.ofDigits 32 values = n := by
  rw [← pow_eq_bound] at h
  obtain ⟨values, ⟨hlength, hvalues⟩, hn⟩ := (Nat.bijOn_ofDigits (by decide) 56).surjOn h
  exact ⟨values, hlength, hvalues, hn⟩

/-! ## Texts -/

theorem length_frame (kind : Kind) (payload : Bytes32) : (frame kind payload).length = 35 := by
  simp [frame, payload.length_toList]

theorem take_drop_frame (kind : Kind) (payload : Bytes32) :
    ((frame kind payload).drop 1).take 32 = payload.toList :=
  List.take_left' payload.length_toList

/-- When a text names a payload: its characters are digits whose number is that of the bytes. -/
theorem decode?_eq_some_iff_exists : decode? kind text = some payload ↔
    ∃ values, text.toList.mapM digitValue? = some values ∧ values.length = 56
      ∧ Bytes.ofNat 35 (values.foldl (fun v x => v * 32 + x) 0) = frame kind payload := by
  unfold decode?
  rw [Option.bind_eq_bind, Option.bind_eq_some_iff]
  refine exists_congr fun values => and_congr_right fun _ => ?_
  by_cases hlength : values.length = 56
  · simp only [hlength, ne_eq, not_true_eq_false, if_false, true_and]
    constructor
    · intro h
      obtain ⟨p, -, h⟩ := Option.bind_eq_some_iff.mp h
      split at h
      next heq =>
        obtain rfl := Option.some_inj.mp h
        exact heq
      next => cases h
    · intro h
      rw [h, take_drop_frame, FixedBytes.ofList?_toList]
      exact if_pos rfl
  · simp [hlength]

/-- A payload is read from its text and from no other. -/
theorem decode?_eq_some_iff : decode? kind text = some payload ↔ encode kind payload = text := by
  rw [decode?_eq_some_iff_exists, encode]
  constructor
  · rintro ⟨values, hvalues, hlength, hframe⟩
    obtain ⟨hall, hchars⟩ := mapM_digitValue?_eq_some_iff.mp hvalues
    have hreverse : ∀ v ∈ values.reverse, v < 32 := fun v hv => hall v (List.mem_reverse.mp hv)
    have hbound := ofDigits_lt_bound (by rwa [List.length_reverse]) hreverse
    have hdigits := digitsOf_ofDigits hreverse
    rw [List.length_reverse, hlength] at hdigits
    -- no digit is lost in the bytes, so to write them again gives the digits of the text
    rw [← hframe, foldl_eq_ofDigits, Bytes.toNat_ofNat_of_lt hbound, hdigits, List.map_reverse,
      List.reverse_reverse, hchars, String.ofList_toList]
  · rintro rfl
    have hbound := Bytes.toNat_lt_bound (frame kind payload)
    rw [length_frame] at hbound
    obtain ⟨values, hlength, hvalues, hn⟩ := exists_ofDigits_eq hbound
    have hdigits := digitsOf_ofDigits hvalues
    rw [hlength, hn] at hdigits
    refine ⟨values.reverse, mapM_digitValue?_eq_some_iff.mpr ⟨?_, ?_⟩, by simpa using hlength, ?_⟩
    · exact fun v hv => hvalues v (List.mem_reverse.mp hv)
    · rw [String.toList_ofList, hdigits, List.map_reverse]
    · have hbytes := Bytes.ofNat_toNat (frame kind payload)
      rwa [length_frame, ← hn, ← List.reverse_reverse values, ← foldl_eq_ofDigits] at hbytes

theorem length_encode (kind : Kind) (payload : Bytes32) : (encode kind payload).length = 56 := by
  have hread : decode? kind (encode kind payload) = some payload := decode?_eq_some_iff.mpr rfl
  obtain ⟨values, hvalues, hlength, -⟩ := decode?_eq_some_iff_exists.mp hread
  obtain ⟨-, hchars⟩ := mapM_digitValue?_eq_some_iff.mp hvalues
  rw [← String.length_toList, ← hchars, List.length_map, hlength]

/-! ## The first character -/

/-- The highest digit comes last. -/
theorem digitsOf_succ (k v : Nat) :
    digitsOf (k + 1) v = digitsOf k v ++ [digit (v / 32 ^ k % 32)] := by
  induction k generalizing v with
  | zero => simp [digitsOf]
  | succ k ih =>
      rw [digitsOf, ih, digitsOf, List.cons_append, Nat.div_div_eq_div_mul, Nat.pow_succ,
        Nat.mul_comm]

/-- The first character writes the five highest bits, and these are of the version alone. -/
theorem head?_encode (kind : Kind) (payload : Bytes32) :
    (encode kind payload).toList.head? = some (digit (kind.version.toNat / 8)) := by
  obtain ⟨rest, hlength, hframe⟩ : ∃ rest : Bytes, rest.length = 34
      ∧ frame kind payload = kind.version :: rest :=
    ⟨_, Nat.succ.inj (length_frame kind payload), rfl⟩
  have hlt : Bytes.toNat rest < Bytes.bound 34 := hlength ▸ Bytes.toNat_lt_bound rest
  have hpow : 32 ^ 55 = Bytes.bound 34 * 8 := by norm_num [Bytes.bound]
  -- what is behind the version has 272 bits, and the other 55 digits have three more
  have hhigh : Bytes.toNat (frame kind payload) / 32 ^ 55 = kind.version.toNat / 8 := by
    rw [hframe, Bytes.toNat_cons, hlength, hpow, ← Nat.div_div_eq_div_mul, Nat.add_comm,
      Nat.add_mul_div_right _ _ (Bytes.bound_pos 34), Nat.div_eq_of_lt hlt, Nat.zero_add]
  have hdigit : kind.version.toNat / 8 < 32 := by cases kind <;> decide
  rw [encode, String.toList_ofList, digitsOf_succ, List.reverse_append, hhigh,
    Nat.mod_eq_of_lt hdigit]
  rfl

end SmartWallet.Strkey

namespace SmartWallet.ContractAddress

variable {c d : ContractAddress} {t : String}

/-- A contract is read from its text and from no other. -/
theorem ofText?_eq_some_iff : ofText? t = some c ↔ c.text = t := by
  unfold ofText?
  rw [Option.map_eq_map, Option.map_eq_some_iff]
  constructor
  · rintro ⟨payload, hpayload, rfl⟩
    exact Strkey.decode?_eq_some_iff.mp hpayload
  · intro h
    exact ⟨c.bytes, Strkey.decode?_eq_some_iff.mpr h, rfl⟩

theorem text_inj : c.text = d.text ↔ c = d := by
  constructor
  · intro h
    have hc := ofText?_eq_some_iff.mpr h
    rw [ofText?_eq_some_iff.mpr rfl] at hc
    exact (Option.some_inj.mp hc).symm
  · rintro rfl
    rfl

theorem text_ne_empty (c : ContractAddress) : c.text ≠ "" := by
  intro h
  have hlength := Strkey.length_encode .contract c.bytes
  rw [text] at h
  rw [h] at hlength
  cases hlength

end SmartWallet.ContractAddress
