import Mathlib.Data.List.DropRight
import SmartWallet.Proofs.Text.Base64

set_option autoImplicit false

/-! # The spellings of a byte string in base 64

What is written is read as what it was; this module is about the converse, that hardly anything else
is read. A text is read as a byte string exactly if it is what is written for it, with at most as
much padding behind as fills the last group (`decode_eq_some_iff`).

Group by group, a character has one value and a value one character, so four characters are those of
the three bytes that they are read as (`encode_quantum`). In a shorter group the spare bits could be
anything; it is because a reader demands that they are zero that such a group has no other spelling
(`encode_quantum_two`, `encode_quantum_one`). Padding is taken off the last group alone, of which
two characters at least must remain.

Hence texts that are read as the same byte string differ in their padding only
(`Base64Url.spelling_up_to_padding`). -/

namespace SmartWallet.Base64

variable {a : Alphabet} {b : Bytes} {group text : List Char}

/-! ## Characters -/

/-- A character that has a value is the character of that value. -/
theorem Alphabet.char_of_value? {c : Char} {v : Nat} (h : a.value? c = some v) :
    v < 64 ∧ a.char v = c := by
  unfold value? at h
  dsimp only at h
  split at h
  next hupper =>
    cases h
    have hcode : 65 + (c.toNat - 65) = c.toNat := by omega
    rw [char, if_pos (by omega), hcode, Char.ofNat_toNat]
    exact ⟨by omega, rfl⟩
  split at h
  next hlower =>
    cases h
    have hcode : 71 + (c.toNat - 71) = c.toNat := by omega
    rw [char, if_neg (by omega), if_pos (by omega), hcode, Char.ofNat_toNat]
    exact ⟨by omega, rfl⟩
  split at h
  next hdigit =>
    cases h
    have hcode : c.toNat + 4 - 4 = c.toNat := by omega
    rw [char, if_neg (by omega), if_neg (by omega), if_pos (by omega), hcode, Char.ofNat_toNat]
    exact ⟨by omega, rfl⟩
  split at h
  next hother =>
    cases h
    exact ⟨by omega, hother.symm⟩
  split at h
  next hother =>
    cases h
    exact ⟨by omega, hother.symm⟩
  cases h

theorem chars_of_mapM_value? {values : List Nat} (h : group.mapM a.value? = some values) :
    (∀ v ∈ values, v < 64) ∧ group = values.map a.char := by
  induction group generalizing values with
  | nil =>
      cases h
      exact ⟨List.forall_mem_nil _, rfl⟩
  | cons c group ih =>
      rw [List.mapM_cons] at h
      obtain ⟨v, hv, h⟩ := Option.bind_eq_some_iff.mp h
      obtain ⟨rest, hrest, h⟩ := Option.bind_eq_some_iff.mp h
      cases h
      obtain ⟨hlt, hchar⟩ := Alphabet.char_of_value? hv
      obtain ⟨hall, rfl⟩ := ih hrest
      exact ⟨List.forall_mem_cons.mpr ⟨hlt, hall⟩, by rw [List.map_cons, hchar]⟩

/-- What holds of the characters of all values holds of all that is written. -/
theorem forall_mem_encode {p : Char → Prop} (h : ∀ v < 64, p (a.char v)) (b : Bytes) :
    ∀ c ∈ encode a b, p c := by
  fun_induction encode a b with
  | case1 x y z rest t ih =>
      have hx := x.toNat_lt
      have hy := y.toNat_lt
      have hz := z.toNat_lt
      simp only [List.forall_mem_cons]
      exact ⟨h _ (by omega), h _ (by omega), h _ (by omega), h _ (by omega), ih⟩
  | case2 x y t =>
      have hx := x.toNat_lt
      have hy := y.toNat_lt
      simp only [List.forall_mem_cons]
      exact ⟨h _ (by omega), h _ (by omega), h _ (by omega), List.forall_mem_nil _⟩
  | case3 x =>
      have hx := x.toNat_lt
      simp only [List.forall_mem_cons]
      exact ⟨h _ (by omega), h _ (by omega), List.forall_mem_nil _⟩
  | case4 => exact List.forall_mem_nil p

theorem padding_notMem_encode (ha : a.Sound) (b : Bytes) : '=' ∉ encode a b := fun h =>
  forall_mem_encode (p := (· ≠ '=')) (fun v hv => (ha v hv).2) b '=' h rfl

/-! ## Padding -/

/-- How many padding characters fill the last group. -/
def paddingLength (b : Bytes) : Nat := (3 - b.length % 3) % 3

/-- With its padding a text has four characters for every three bytes that are begun. -/
theorem length_encode_add_paddingLength (a : Alphabet) (b : Bytes) :
    (encode a b).length + paddingLength b = 4 * ((b.length + 2) / 3) := by
  unfold paddingLength
  fun_induction encode a b with
  | case1 x y z rest t ih =>
      simp only [List.length_cons] at ih ⊢
      omega
  | case2 => simp
  | case3 => simp
  | case4 => rfl

/-- What is written for a byte string, and no more padding than fills the last group. -/
def IsSpelling (a : Alphabet) (b : Bytes) (text : List Char) : Prop :=
  ∃ k ≤ paddingLength b, text = encode a b ++ List.replicate k '='

theorem exists_padding (text : List Char) :
    ∃ k, text = text.rdropWhile (· = '=') ++ List.replicate k '=' := by
  refine ⟨(text.rtakeWhile (· = '=')).length, ?_⟩
  have hall : ∀ c ∈ text.rtakeWhile (· = '='), c = '=' := by
    intro c hc
    have hpad := List.mem_rtakeWhile_imp hc
    rwa [decide_eq_true_iff] at hpad
  rw [← List.eq_replicate_of_mem hall, List.rdropWhile_append_rtakeWhile]

theorem rdropWhile_append_padding {chars : List Char} (h : '=' ∉ chars) (k : Nat) :
    (chars ++ List.replicate k '=').rdropWhile (· = '=') = chars := by
  induction k with
  | zero =>
      rw [List.replicate_zero, List.append_nil, List.rdropWhile_eq_self_iff]
      intro hne hlast
      exact h (of_decide_eq_true hlast ▸ List.getLast_mem hne)
  | succ k ih =>
      rw [List.replicate_succ', ← List.append_assoc,
        List.rdropWhile_concat_pos (· = '=') _ _ (by simp), ih]

theorem rtakeWhile_append_padding {chars : List Char} (h : '=' ∉ chars) (k : Nat) :
    (chars ++ List.replicate k '=').rtakeWhile (· = '=') = List.replicate k '=' := by
  have hparts := List.rdropWhile_append_rtakeWhile
    (p := (· = '=')) (l := chars ++ List.replicate k '=')
  rw [rdropWhile_append_padding h] at hparts
  exact List.append_cancel_left hparts

/-! ## Groups -/

theorem encode_quantum {v w x y : Nat} (hv : v < 64) (hw : w < 64) (hx : x < 64) (hy : y < 64) :
    encode a (quantum v w x y) = [a.char v, a.char w, a.char x, a.char y] := by
  let t := v * 262144 + w * 4096 + x * 64 + y
  have hnumber : (UInt8.ofNat (t / 65536)).toNat * 65536 + (UInt8.ofNat (t / 256)).toNat * 256
      + (UInt8.ofNat t).toNat = t := by
    simp only [UInt8.toNat_ofNat']
    omega
  have h1 : t / 262144 = v := by omega
  have h2 : t / 4096 % 64 = w := by omega
  have h3 : t / 64 % 64 = x := by omega
  have h4 : t % 64 = y := by omega
  show encode a [UInt8.ofNat (t / 65536), UInt8.ofNat (t / 256), UInt8.ofNat t] = _
  simp only [encode, hnumber, h1, h2, h3, h4]

/-- Three values make two bytes. The two bits that are left must be zero, or they would be lost. -/
theorem encode_quantum_two {v w x : Nat} (hv : v < 64) (hw : w < 64) (hx : x < 64)
    (hspare : x % 4 = 0) :
    encode a ((quantum v w x 0).take 2) = [a.char v, a.char w, a.char x] := by
  let t := v * 262144 + w * 4096 + x * 64 + 0
  have hnumber :
      (UInt8.ofNat (t / 65536)).toNat * 256 + (UInt8.ofNat (t / 256)).toNat = t / 256 := by
    simp only [UInt8.toNat_ofNat']
    omega
  have h1 : t / 256 / 1024 = v := by omega
  have h2 : t / 256 / 16 % 64 = w := by omega
  have h3 : t / 256 % 16 * 4 = x := by omega
  show encode a [UInt8.ofNat (t / 65536), UInt8.ofNat (t / 256)] = _
  simp only [encode, hnumber, h1, h2, h3]

/-- Two values make one byte, with four bits left. -/
theorem encode_quantum_one {v w : Nat} (hv : v < 64) (hw : w < 64) (hspare : w % 16 = 0) :
    encode a ((quantum v w 0 0).take 1) = [a.char v, a.char w] := by
  let t := v * 262144 + w * 4096 + 0 * 64 + 0
  have hnumber : (UInt8.ofNat (t / 65536)).toNat = t / 65536 := by
    rw [UInt8.toNat_ofNat']
    omega
  have h1 : t / 65536 / 4 = v := by omega
  have h2 : t / 65536 % 4 * 16 = w := by omega
  show encode a [UInt8.ofNat (t / 65536)] = _
  simp only [encode, hnumber, h1, h2]

/-- A group that is read is what is written for its bytes, of which there is one less. -/
theorem encode_of_decodeUnpadded (h : decodeUnpadded a group = some b) :
    encode a b = group ∧ b.length + 1 = group.length ∧ 2 ≤ group.length ∧ group.length ≤ 4 := by
  obtain ⟨values, hvalues, hbytes⟩ := Option.bind_eq_some_iff.mp h
  obtain ⟨hlt, rfl⟩ := chars_of_mapM_value? hvalues
  clear h hvalues
  split at hbytes
  next v w x y =>
    cases hbytes
    simp only [List.forall_mem_cons] at hlt
    exact ⟨encode_quantum hlt.1 hlt.2.1 hlt.2.2.1 hlt.2.2.2.1, rfl, by simp, by simp⟩
  next v w x =>
    obtain ⟨hspare, hbytes⟩ := Option.ite_none_right_eq_some.mp hbytes
    cases hbytes
    simp only [List.forall_mem_cons] at hlt
    exact ⟨encode_quantum_two hlt.1 hlt.2.1 hlt.2.2.1 hspare, rfl, by simp, by simp⟩
  next v w =>
    obtain ⟨hspare, hbytes⟩ := Option.ite_none_right_eq_some.mp hbytes
    cases hbytes
    simp only [List.forall_mem_cons] at hlt
    exact ⟨encode_quantum_one hlt.1 hlt.2.1 hspare, rfl, by simp, by simp⟩
  next => cases hbytes

theorem isSpelling_of_decodeGroup (hlength : group.length ≤ 4) (h : decodeGroup a group = some b) :
    IsSpelling a b group := by
  obtain ⟨k, hgroup⟩ := exists_padding group
  obtain ⟨hchars, hbytes, hleast, -⟩ := encode_of_decodeUnpadded h
  change encode a b = group.rdropWhile (· = '=') at hchars
  rw [← hchars] at hgroup
  refine ⟨k, ?_, hgroup⟩
  -- the bytes leave room for no more padding in a group of four
  change b.length + 1 = (group.rdropWhile (· = '=')).length at hbytes
  change 2 ≤ (group.rdropWhile (· = '=')).length at hleast
  rw [← hchars] at hbytes hleast
  rw [hgroup, List.length_append, List.length_replicate] at hlength
  unfold paddingLength
  omega

/-! ## Texts -/

theorem encode_append_of_length_eq {first : Bytes} (h : first.length = 3) (later : Bytes) :
    encode a (first ++ later) = encode a first ++ encode a later := by
  match first, h with
  | [x, y, z], _ => rfl

theorem isSpelling_of_decode (h : decode a text = some b) : IsSpelling a b text := by
  fun_induction decode a text generalizing b with
  | case1 =>
      cases h
      exact ⟨0, Nat.zero_le _, rfl⟩
  | case2 v w x y z rest ih =>
      obtain ⟨first, hfirst, h⟩ := Option.bind_eq_some_iff.mp h
      obtain ⟨later, hlater, h⟩ := Option.bind_eq_some_iff.mp h
      cases h
      obtain ⟨hchars, hbytes, -⟩ := encode_of_decodeUnpadded hfirst
      have hthree : first.length = 3 := Nat.succ.inj hbytes
      obtain ⟨k, hk, hrest⟩ := ih hlater
      refine ⟨k, ?_, ?_⟩
      · unfold paddingLength at hk ⊢
        rw [List.length_append]
        omega
      · rw [encode_append_of_length_eq hthree, hchars, List.append_assoc, ← hrest]
        rfl
  | case3 group hne hshort =>
      refine isSpelling_of_decodeGroup ?_ h
      match group, hshort with
      | [], _ | [_], _ | [_, _], _ | [_, _, _], _ | [_, _, _, _], _ => simp
      | v :: w :: x :: y :: z :: rest, hshort => exact absurd rfl (hshort v w x y z rest)

theorem decodeGroup_append_padding (group : List Char) (k : Nat) :
    decodeGroup a (group ++ List.replicate k '=') = decodeGroup a group := by
  induction k with
  | zero => rw [List.replicate_zero, List.append_nil]
  | succ k ih => rw [List.replicate_succ', ← List.append_assoc, decodeGroup_padded, ih]

theorem decode_eq_decodeGroup (hne : group ≠ []) (hlength : group.length ≤ 4) :
    decode a group = decodeGroup a group := by
  match group, hne, hlength with
  | [_], _, _ | [_, _], _, _ | [_, _, _], _, _ | [_, _, _, _], _, _ => rfl

/-- Padding behind a single group is not seen. -/
theorem decode_append_padding_of_group {k : Nat} (hne : group ≠ [])
    (hlength : group.length + k ≤ 4) :
    decode a (group ++ List.replicate k '=') = decode a group := by
  have hall : (group ++ List.replicate k '=').length ≤ 4 := by
    rwa [List.length_append, List.length_replicate]
  have hne' : group ++ List.replicate k '=' ≠ [] := List.append_ne_nil_of_left_ne_nil hne _
  rw [decode_eq_decodeGroup hne' hall, decodeGroup_append_padding,
    decode_eq_decodeGroup hne (Nat.le_of_add_right_le hlength)]

theorem decode_append_padding (ha : a.Sound) {k : Nat} (hk : k ≤ paddingLength b) :
    decode a (encode a b ++ List.replicate k '=') = some b := by
  fun_induction encode a b with
  | case1 x y z rest t ih =>
      have hx := x.toNat_lt
      have hy := y.toNat_lt
      have hz := z.toNat_lt
      have hrest : k ≤ paddingLength rest := by
        unfold paddingLength at hk ⊢
        simp only [List.length_cons] at hk
        omega
      simp only [List.cons_append]
      rw [decode_group _ _ _ (ha (t % 64) (by omega)).2,
        decodeUnpadded_of_values ha (by omega) (by omega) (by omega) (by omega),
        quantum_digits, ih hrest]
      rfl
  | case2 x y t =>
      have hroom : k ≤ 1 := hk
      have hlength : (encode a [x, y]).length + k ≤ 4 := Nat.add_le_add_left hroom 3
      exact (decode_append_padding_of_group (List.cons_ne_nil _ _) hlength).trans
        (decode_encode ha [x, y])
  | case3 x =>
      have hroom : k ≤ 2 := hk
      have hlength : (encode a [x]).length + k ≤ 4 := Nat.add_le_add_left hroom 2
      exact (decode_append_padding_of_group (List.cons_ne_nil _ _) hlength).trans
        (decode_encode ha [x])
  | case4 =>
      have hroom : k ≤ 0 := hk
      rw [Nat.le_zero.mp hroom]
      rfl

/-- A text is read as a byte string exactly if it spells it. -/
theorem decode_eq_some_iff (ha : a.Sound) : decode a text = some b ↔ IsSpelling a b text := by
  constructor
  · exact isSpelling_of_decode
  · rintro ⟨k, hk, rfl⟩
    exact decode_append_padding ha hk

theorem IsSpelling.rdropWhile_eq (ha : a.Sound) (h : IsSpelling a b text) :
    text.rdropWhile (· = '=') = encode a b := by
  obtain ⟨k, -, rfl⟩ := h
  exact rdropWhile_append_padding (padding_notMem_encode ha b) k

theorem IsSpelling.length_rtakeWhile_le (ha : a.Sound) (h : IsSpelling a b text) :
    (text.rtakeWhile (· = '=')).length ≤ paddingLength b := by
  obtain ⟨k, hk, rfl⟩ := h
  rwa [rtakeWhile_append_padding (padding_notMem_encode ha b), List.length_replicate]

end SmartWallet.Base64

namespace SmartWallet.Base64Url

/-- A text without the padding characters at its end. -/
def unpadded (text : String) : String := String.ofList (text.toList.rdropWhile (· = '='))

/-- How many padding characters there are at the end of a text. -/
def paddingCount (text : String) : Nat := (text.toList.rtakeWhile (· = '=')).length

/-- A text of so many padding characters. -/
def padding (k : Nat) : String := String.ofList (List.replicate k '=')

variable {text : String} {b : Bytes}

theorem decode?_eq_some_iff :
    decode? text = some b ↔ Base64.IsSpelling Base64.urlSafe b text.toList :=
  Base64.decode_eq_some_iff Base64.urlSafe_sound

theorem unpadded_of_decode? (h : decode? text = some b) : unpadded text = encode b := by
  have hspelling := decode?_eq_some_iff.mp h
  rw [unpadded, hspelling.rdropWhile_eq Base64.urlSafe_sound, encode]

theorem encode_inj {b c : Bytes} (h : encode b = encode c) : b = c := by
  have hread := decode?_encode b
  rw [h, decode?_encode] at hread
  exact (Option.some.inj hread).symm

/-- What is written is read as it was and is all letters, digits, `-` and `_`; what is read is what
was written with no more padding than canonical; any such padding is accepted; and so texts that are
read as the same byte string are those that are the same without their padding. -/
theorem spelling_up_to_padding :
    (∀ b, decode? (encode b) = some b
      ∧ (∀ c ∈ (encode b).toList, c.isAlphanum = true ∨ c = '-' ∨ c = '_')
      ∧ '=' ∉ (encode b).toList
      ∧ (encode b).toList.length + Base64.paddingLength b = 4 * ((b.length + 2) / 3))
    ∧ (∀ text b, decode? text = some b →
      unpadded text = encode b ∧ paddingCount text ≤ Base64.paddingLength b)
    ∧ (∀ b k, k ≤ Base64.paddingLength b → decode? (encode b ++ padding k) = some b)
    ∧ ∀ text text' b b', decode? text = some b → decode? text' = some b' →
      (b = b' ↔ unpadded text = unpadded text') := by
  refine ⟨fun b => ⟨decode?_encode b, ?_, ?_, ?_⟩, fun text b h => ⟨unpadded_of_decode? h, ?_⟩,
    fun b k hk => ?_, fun text text' b b' h h' => ?_⟩
  · rw [encode, String.toList_ofList]
    exact Base64.forall_mem_encode (by decide) b
  · rw [encode, String.toList_ofList]
    exact Base64.padding_notMem_encode Base64.urlSafe_sound b
  · rw [encode, String.toList_ofList]
    exact Base64.length_encode_add_paddingLength _ b
  · exact (decode?_eq_some_iff.mp h).length_rtakeWhile_le Base64.urlSafe_sound
  · refine decode?_eq_some_iff.mpr ⟨k, hk, ?_⟩
    rw [String.toList_append, encode, padding, String.toList_ofList, String.toList_ofList]
  · rw [unpadded_of_decode? h, unpadded_of_decode? h']
    exact ⟨congrArg encode, encode_inj⟩

theorem spelling_up_to_padding_sample :
    decode? "-w=" = some [0xfb] ∧ unpadded "-w=" = encode [0xfb] ∧ paddingCount "-w=" ≤ 2
      ∧ decode? (encode [0xfb] ++ padding 2) = some [0xfb]
      ∧ unpadded "-w=" = unpadded (encode [0xfb] ++ padding 2) := by
  obtain ⟨-, hread, hpadded, hsame⟩ := spelling_up_to_padding
  have hpart : decode? "-w=" = some [0xfb] := by decide +kernel
  have hfull : decode? (encode [0xfb] ++ padding 2) = some [0xfb] := hpadded [0xfb] 2 (by decide)
  obtain ⟨hchars, hcount⟩ := hread "-w=" [0xfb] hpart
  exact ⟨hpart, hchars, hcount, hfull, (hsame _ _ _ _ hpart hfull).mp rfl⟩

end SmartWallet.Base64Url
