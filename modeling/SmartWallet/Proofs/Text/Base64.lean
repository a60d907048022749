import SmartWallet.Text.Base64

set_option autoImplicit false

/-! # Reading what was written in base 64

`decode_encode`: the characters of a byte string, without padding, read as that byte string;
`decodeStream_encodePadded` is the same for a stream with padding. The argument goes by groups.
Three bytes are a number below `2²⁴`, whose four digits in base 64 are the values of the
characters; reading puts the number together again (`quantum_digits`). One or two bytes at the end
are the same with zeros behind them. -/

namespace SmartWallet.Base64

/-! ## Alphabets -/

/-- Every value below 64 has a character of its own, and none is the padding character. -/
def Alphabet.Sound (a : Alphabet) : Prop :=
  ∀ v < 64, a.value? (a.char v) = some v ∧ a.char v ≠ '='

theorem urlSafe_sound : urlSafe.Sound := by
  unfold Alphabet.Sound
  decide

theorem standard_sound : standard.Sound := by
  unfold Alphabet.Sound
  decide

variable {a : Alphabet}

theorem mapM_value?_char (ha : a.Sound) (values : List Nat) (h : ∀ v ∈ values, v < 64) :
    (values.map a.char).mapM a.value? = some values := by
  induction values with
  | nil => rfl
  | cons v rest ih =>
      have hv := (ha v (h v (by simp))).1
      have hrest := ih fun w hw => h w (by simp [hw])
      simp only [List.map_cons, List.mapM_cons, hv, hrest]
      rfl

/-! ## Groups -/

theorem quantum_digits (x y z : UInt8) :
    let t := x.toNat * 65536 + y.toNat * 256 + z.toNat
    quantum (t / 262144) (t / 4096 % 64) (t / 64 % 64) (t % 64) = [x, y, z] := by
  intro t
  have hx := x.toNat_lt
  have hy := y.toNat_lt
  have hz := z.toNat_lt
  -- the four digits make up the number again, of which the bytes are the digits in base 256
  have ht : t / 262144 * 262144 + t / 4096 % 64 * 4096 + t / 64 % 64 * 64 + t % 64 = t := by omega
  have h1 : UInt8.ofNat (t / 65536) = x := by
    apply UInt8.toNat_inj.mp
    rw [UInt8.toNat_ofNat']
    omega
  have h2 : UInt8.ofNat (t / 256) = y := by
    apply UInt8.toNat_inj.mp
    rw [UInt8.toNat_ofNat']
    omega
  have h3 : UInt8.ofNat t = z := by
    apply UInt8.toNat_inj.mp
    rw [UInt8.toNat_ofNat']
    omega
  unfold quantum
  simp only [ht, h1, h2, h3]

theorem decodeUnpadded_of_values (ha : a.Sound) {v w x y : Nat} (hv : v < 64) (hw : w < 64)
    (hx : x < 64) (hy : y < 64) :
    decodeUnpadded a [a.char v, a.char w, a.char x, a.char y] = some (quantum v w x y) := by
  have h := mapM_value?_char ha [v, w, x, y] (by simp [hv, hw, hx, hy])
  simp only [List.map_cons, List.map_nil] at h
  unfold decodeUnpadded
  rw [h]
  rfl

/-- Two bytes are three values, of which the last has two spare bits. -/
theorem decodeUnpadded_of_two (ha : a.Sound) (x y : UInt8) :
    let t := x.toNat * 256 + y.toNat
    decodeUnpadded a [a.char (t / 1024), a.char (t / 16 % 64), a.char (t % 16 * 4)]
      = some [x, y] := by
  intro t
  have hx := x.toNat_lt
  have hy := y.toNat_lt
  have h := mapM_value?_char ha [t / 1024, t / 16 % 64, t % 16 * 4] (by simp; omega)
  simp only [List.map_cons, List.map_nil] at h
  have hq := quantum_digits x y 0
  have h0 : (0 : UInt8).toNat = 0 := rfl
  have h1 : (x.toNat * 65536 + y.toNat * 256 + 0) / 262144 = t / 1024 := by omega
  have h2 : (x.toNat * 65536 + y.toNat * 256 + 0) / 4096 % 64 = t / 16 % 64 := by omega
  have h3 : (x.toNat * 65536 + y.toNat * 256 + 0) / 64 % 64 = t % 16 * 4 := by omega
  have h4 : (x.toNat * 65536 + y.toNat * 256 + 0) % 64 = 0 := by omega
  simp only [h0, h1, h2, h3, h4] at hq
  unfold decodeUnpadded
  rw [h]
  -- the spare bits are zero, as a reader demands
  show (if t % 16 * 4 % 4 = 0 then _ else _) = _
  rw [if_pos (by omega), hq]
  rfl

/-- One byte is two values, of which the second has four spare bits. -/
theorem decodeUnpadded_of_one (ha : a.Sound) (x : UInt8) :
    decodeUnpadded a [a.char (x.toNat / 4), a.char (x.toNat % 4 * 16)] = some [x] := by
  have hx := x.toNat_lt
  have h := mapM_value?_char ha [x.toNat / 4, x.toNat % 4 * 16] (by simp; omega)
  simp only [List.map_cons, List.map_nil] at h
  have hq := quantum_digits x 0 0
  have h0 : (0 : UInt8).toNat = 0 := rfl
  have h1 : (x.toNat * 65536 + 0 * 256 + 0) / 262144 = x.toNat / 4 := by omega
  have h2 : (x.toNat * 65536 + 0 * 256 + 0) / 4096 % 64 = x.toNat % 4 * 16 := by omega
  have h3 : (x.toNat * 65536 + 0 * 256 + 0) / 64 % 64 = 0 := by omega
  have h4 : (x.toNat * 65536 + 0 * 256 + 0) % 64 = 0 := by omega
  simp only [h0, h1, h2, h3, h4] at hq
  unfold decodeUnpadded
  rw [h]
  show (if x.toNat % 4 * 16 % 16 = 0 then _ else _) = _
  rw [if_pos (by omega), hq]
  rfl

/-- Only a group that ends in padding is cut. -/
theorem decodeGroup_concat (group : List Char) {c : Char} (hc : c ≠ '=') :
    decodeGroup a (group ++ [c]) = decodeUnpadded a (group ++ [c]) := by
  unfold decodeGroup
  rw [List.reverse_append, List.reverse_singleton, List.singleton_append,
    List.dropWhile_cons_of_neg (by simpa using hc), List.reverse_cons, List.reverse_reverse]

/-- A group of four characters is read before what follows. -/
theorem decode_group (v w x : Char) {y : Char} (hy : y ≠ '=') (rest : List Char) :
    decode a (v :: w :: x :: y :: rest)
      = do return (← decodeUnpadded a [v, w, x, y]) ++ (← decode a rest) := by
  cases rest with
  | cons z rest => rfl
  | nil =>
      have h : decode a [v, w, x, y] = decodeGroup a ([v, w, x] ++ [y]) := rfl
      rw [h, decodeGroup_concat _ hy]
      simp only [decode]
      show decodeUnpadded a [v, w, x, y] = _
      cases decodeUnpadded a [v, w, x, y] <;> simp [bind, Option.bind, pure]

/-! ## Texts -/

/-- What is written reads as what it was. -/
theorem decode_encode (ha : a.Sound) (b : Bytes) : decode a (encode a b) = some b := by
  -- one case for each group of three bytes, and for what is left at the end
  fun_induction encode a b with
  | case1 x y z rest t ih =>
      have hx := x.toNat_lt
      have hy := y.toNat_lt
      have hz := z.toNat_lt
      rw [decode_group _ _ _ (ha (t % 64) (by omega)).2,
        decodeUnpadded_of_values ha (by omega) (by omega) (by omega) (by omega),
        quantum_digits, ih]
      rfl
  | case2 x y t =>
      have hlast := (ha (t % 16 * 4) (by omega)).2
      show decodeGroup a ([a.char (t / 1024), a.char (t / 16 % 64)] ++ [a.char (t % 16 * 4)]) = _
      rw [decodeGroup_concat _ hlast]
      exact decodeUnpadded_of_two ha x y
  | case3 x =>
      have hlast := (ha (x.toNat % 4 * 16) (by omega)).2
      show decodeGroup a ([a.char (x.toNat / 4)] ++ [a.char (x.toNat % 4 * 16)]) = _
      rw [decodeGroup_concat _ hlast]
      exact decodeUnpadded_of_one ha x
  | case4 => rfl

/-! ## Streams -/

theorem decodeGroup_padded (group : List Char) :
    decodeGroup a (group ++ ['=']) = decodeGroup a group := by
  unfold decodeGroup
  rw [List.reverse_append, List.reverse_singleton, List.singleton_append,
    List.dropWhile_cons_of_pos (by simp)]

/-- A group that can be read is read before what follows. -/
theorem decodeStream_group {v w x y : Char} {b : Bytes} (h : decodeGroup a [v, w, x, y] = some b)
    (rest : List Char) : decodeStream a (v :: w :: x :: y :: rest)
      = (b ++ (decodeStream a rest).1, (decodeStream a rest).2) := by
  rw [decodeStream, h]

/-- What is written with padding is read to its end. -/
theorem decodeStream_encodePadded (ha : a.Sound) (b : Bytes) :
    decodeStream a (encodePadded a b) = (b, true) := by
  unfold encodePadded
  fun_induction encode a b with
  | case1 x y z rest t ih =>
      have hx := x.toNat_lt
      have hy := y.toNat_lt
      have hz := z.toNat_lt
      have hgroup : decodeGroup a ([a.char (t / 262144), a.char (t / 4096 % 64),
          a.char (t / 64 % 64)] ++ [a.char (t % 64)]) = some [x, y, z] := by
        rw [decodeGroup_concat _ (ha (t % 64) (by omega)).2]
        have hvalues := decodeUnpadded_of_values ha (v := t / 262144) (w := t / 4096 % 64)
          (x := t / 64 % 64) (y := t % 64) (by omega) (by omega) (by omega) (by omega)
        rw [quantum_digits] at hvalues
        exact hvalues
      -- three bytes more do not change how much padding is needed
      have hlength : (x :: y :: z :: rest).length % 3 = rest.length % 3 := by
        simp only [List.length_cons]
        omega
      rw [hlength]
      simp only [List.cons_append]
      rw [decodeStream_group hgroup, ih]
      rfl
  | case2 x y t =>
      have hlast := (ha (t % 16 * 4) (by omega)).2
      have hgroup : decodeGroup a ([a.char (t / 1024), a.char (t / 16 % 64)]
          ++ [a.char (t % 16 * 4)] ++ ['=']) = some [x, y] := by
        rw [decodeGroup_padded, decodeGroup_concat _ hlast]
        exact decodeUnpadded_of_two ha x y
      exact decodeStream_group hgroup []
  | case3 x =>
      have hlast := (ha (x.toNat % 4 * 16) (by omega)).2
      have hgroup : decodeGroup a ([a.char (x.toNat / 4)] ++ [a.char (x.toNat % 4 * 16)]
          ++ ['='] ++ ['=']) = some [x] := by
        rw [decodeGroup_padded, decodeGroup_padded, decodeGroup_concat _ hlast]
        exact decodeUnpadded_of_one ha x
      exact decodeStream_group hgroup []
  | case4 => rfl

end SmartWallet.Base64

namespace SmartWallet.Base64Url

/-- The base64url text of a byte string reads as that byte string. -/
@[simp] theorem decode?_encode (b : Bytes) : decode? (encode b) = some b := by
  unfold decode? encode
  rw [String.toList_ofList]
  exact Base64.decode_encode Base64.urlSafe_sound b

end SmartWallet.Base64Url
