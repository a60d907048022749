import SmartWallet.Bytes.Cursor
import SmartWallet.Proofs.Bytes.Number
import SmartWallet.Proofs.Except

set_option autoImplicit false

/-! # Reading bytes

A cursor hands out what it was given: when the bytes that remain start with `b`, reading as many
bytes as `b` has answers `b`, and what follows `b` remains.

A look-up by position makes reads whose places are known beforehand. `MakesReads` says what it comes
to: if a read passes the end, the first one that does is reported, and if none does, there is an
answer. It holds of single reads and passes to sequences of them (`MakesReads.bind`). -/

namespace SmartWallet

/-- A byte string that is long enough starts with one of a fixed length. -/
theorem Bytes.exists_eq_fixed_append {n : Nat} {b : Bytes} (h : n ≤ b.length) :
    ∃ (x : FixedBytes n) (rest : Bytes), b = x.toList ++ rest := by
  refine ⟨⟨b.take n, ?_⟩, b.drop n, (List.take_append_drop n b).symm⟩
  rw [List.length_take]
  omega

namespace Cursor

variable {c : Cursor} {b rest : Bytes}

/-! ## When a range fits -/

theorem seek_of_fits {offset : Nat} (h : offset ≤ c.bytes.length) :
    c.seek offset = .ok ⟨c.bytes, offset, h⟩ := dif_pos h

theorem seek_of_past {offset : Nat} (h : ¬ offset ≤ c.bytes.length) :
    c.seek offset = .error (c.truncatedAt offset 0) := dif_neg h

theorem peekAt_of_fits {offset n : Nat} (h : offset + n ≤ c.bytes.length) :
    c.peekAt offset n = .ok ((c.bytes.drop offset).take n) := if_pos h

theorem peekAt_of_past {offset n : Nat} (h : ¬ offset + n ≤ c.bytes.length) :
    c.peekAt offset n = .error (c.truncatedAt offset n) := if_neg h

theorem read_of_fits {n : Nat} (h : c.offset + n ≤ c.bytes.length) :
    c.read n = .ok ((c.bytes.drop c.offset).take n, ⟨c.bytes, c.offset + n, h⟩) := dif_pos h

theorem read_of_past {n : Nat} (h : ¬ c.offset + n ≤ c.bytes.length) :
    c.read n = .error (c.truncatedAt c.offset n) := dif_neg h

/-- A read of fixed length is a read. -/
theorem read_eq_map_readFixed (c : Cursor) (n : Nat) :
    c.read n = (fun r : FixedBytes n × Cursor => (r.1.toList, r.2)) <$> c.readFixed n := by
  unfold readFixed read
  by_cases h : c.offset + n ≤ c.bytes.length
  · rw [dif_pos h, dif_pos h]
    rfl
  · rw [dif_neg h, dif_neg h]
    rfl

/-! ## What is read of what remains -/

@[simp] theorem remaining_start (b : Bytes) : (start b).remaining = b := List.drop_zero

theorem read_of_remaining (h : c.remaining = b ++ rest) :
    ∃ d, c.read b.length = .ok (b, d) ∧ d.remaining = rest := by
  have hlength := congrArg List.length h
  simp only [remaining, List.length_drop, List.length_append] at hlength
  have hfits : c.offset + b.length ≤ c.bytes.length := by
    have := c.offset_le
    omega
  refine ⟨⟨c.bytes, c.offset + b.length, hfits⟩, ?_, ?_⟩
  · have hb : (c.bytes.drop c.offset).take b.length = b := by
      show c.remaining.take b.length = b
      rw [h, List.take_left]
    rw [read_of_fits hfits, hb]
  · show c.bytes.drop (c.offset + b.length) = rest
    rw [← List.drop_drop]
    show c.remaining.drop b.length = rest
    rw [h, List.drop_left]

theorem readU8_of_remaining {x : UInt8} (h : c.remaining = x :: rest) :
    ∃ d, c.readU8 = .ok (x, d) ∧ d.remaining = rest := by
  obtain ⟨d, hd, hrest⟩ := read_of_remaining (b := [x]) h
  refine ⟨d, ?_, hrest⟩
  have hd : c.read 1 = .ok ([x], d) := hd
  unfold readU8
  rw [hd]
  show Except.ok (UInt8.ofNat (Bytes.toNat [x]), d) = _
  rw [Bytes.ofNat_toNat_singleton]

theorem skip_of_remaining (h : c.remaining = b ++ rest) :
    ∃ d, c.skip b.length = .ok d ∧ d.remaining = rest := by
  obtain ⟨d, hd, hrest⟩ := read_of_remaining h
  refine ⟨d, ?_, hrest⟩
  unfold skip
  rw [hd]
  rfl

theorem readFixed_of_remaining {n : Nat} {b : FixedBytes n} (h : c.remaining = b.toList ++ rest) :
    ∃ d, c.readFixed n = .ok (b, d) ∧ d.remaining = rest := by
  obtain ⟨d, hd, hrest⟩ := read_of_remaining h
  rw [b.length_toList, read_eq_map_readFixed] at hd
  obtain ⟨⟨x, d'⟩, hfixed, hread⟩ := map_eq_ok_iff.mp hd
  obtain ⟨hlist, hd'⟩ := Prod.mk.inj hread
  obtain rfl : x = b := FixedBytes.ext hlist
  obtain rfl : d' = d := hd'
  exact ⟨d', hfixed, hrest⟩

/-! ## What a read takes -/

/-- A read that succeeds takes as many bytes as it asked for. -/
theorem remaining_of_read {d : Cursor} {n : Nat} (h : c.read n = .ok (b, d)) :
    b.length = n ∧ c.remaining = b ++ d.remaining ∧ d.bytes = c.bytes := by
  by_cases hfits : c.offset + n ≤ c.bytes.length
  · rw [read_of_fits hfits] at h
    obtain ⟨rfl, rfl⟩ := Prod.mk.inj (Except.ok.inj h)
    refine ⟨?_, ?_, rfl⟩
    · rw [List.length_take, List.length_drop]
      omega
    · show c.bytes.drop c.offset = (c.bytes.drop c.offset).take n ++ c.bytes.drop (c.offset + n)
      rw [← List.drop_drop, List.take_append_drop]
  · rw [read_of_past hfits] at h
    cases h

theorem remaining_of_readU8 {d : Cursor} {x : UInt8} (h : c.readU8 = .ok (x, d)) :
    c.remaining = x :: d.remaining ∧ d.bytes = c.bytes := by
  obtain ⟨⟨b, d'⟩, hread, hx⟩ := map_eq_ok_iff.mp h
  obtain ⟨hlength, hremaining, hbytes⟩ := remaining_of_read hread
  obtain ⟨y, rfl⟩ := List.length_eq_one_iff.mp hlength
  obtain ⟨rfl, rfl⟩ := Prod.mk.inj hx
  rw [Bytes.ofNat_toNat_singleton]
  exact ⟨hremaining, hbytes⟩

theorem remaining_of_readFixed {d : Cursor} {n : Nat} {b : FixedBytes n}
    (h : c.readFixed n = .ok (b, d)) : c.remaining = b.toList ++ d.remaining := by
  have hread : c.read n = .ok (b.toList, d) := by
    rw [read_eq_map_readFixed, h]
    rfl
  exact (remaining_of_read hread).2.1

theorem remaining_of_skip {d : Cursor} {n : Nat} (h : c.skip n = .ok d) :
    ∃ b : Bytes, b.length = n ∧ c.remaining = b ++ d.remaining ∧ d.bytes = c.bytes := by
  obtain ⟨⟨b, d'⟩, hread, rfl⟩ := map_eq_ok_iff.mp h
  exact ⟨b, remaining_of_read hread⟩

/-! ## Numbers -/

/-- The bytes of a number are read as that number. -/
theorem read_number_of_remaining {n v : Nat} (hv : v < Bytes.bound n)
    (h : c.remaining = Bytes.ofNat n v ++ rest) :
    ∃ b d, c.read n = .ok (b, d) ∧ Bytes.toNat b = v ∧ d.remaining = rest := by
  obtain ⟨d, hd, hrest⟩ := read_of_remaining h
  rw [Bytes.length_ofNat] at hd
  exact ⟨_, d, hd, Bytes.toNat_ofNat_of_lt hv, hrest⟩

/-- What is read as a number are the bytes of that number. -/
theorem remaining_of_read_number {d : Cursor} {n : Nat} (h : c.read n = .ok (b, d)) :
    Bytes.toNat b < Bytes.bound n ∧ c.remaining = Bytes.ofNat n (Bytes.toNat b) ++ d.remaining := by
  obtain ⟨rfl, hremaining, -⟩ := remaining_of_read h
  rw [Bytes.ofNat_toNat]
  exact ⟨Bytes.toNat_lt_bound b, hremaining⟩

theorem readU16_of_remaining {v : UInt16} (h : c.remaining = Bytes.ofNat 2 v.toNat ++ rest) :
    ∃ d, c.readU16 = .ok (v, d) ∧ d.remaining = rest := by
  obtain ⟨b, d, hd, hvalue, hrest⟩ := read_number_of_remaining v.toNat_lt h
  have hv : UInt16.ofNat (Bytes.toNat b) = v := by rw [hvalue, UInt16.ofNat_toNat]
  exact ⟨d, map_eq_ok_iff.mpr ⟨_, hd, Prod.ext hv rfl⟩, hrest⟩

theorem readU32_of_remaining {v : UInt32} (h : c.remaining = Bytes.ofNat 4 v.toNat ++ rest) :
    ∃ d, c.readU32 = .ok (v, d) ∧ d.remaining = rest := by
  obtain ⟨b, d, hd, hvalue, hrest⟩ := read_number_of_remaining v.toNat_lt h
  have hv : UInt32.ofNat (Bytes.toNat b) = v := by rw [hvalue, UInt32.ofNat_toNat]
  exact ⟨d, map_eq_ok_iff.mpr ⟨_, hd, Prod.ext hv rfl⟩, hrest⟩

theorem remaining_of_readU16 {d : Cursor} {v : UInt16} (h : c.readU16 = .ok (v, d)) :
    c.remaining = Bytes.ofNat 2 v.toNat ++ d.remaining := by
  obtain ⟨⟨b, d'⟩, hread, hv⟩ := map_eq_ok_iff.mp h
  obtain ⟨hlt, hremaining⟩ := remaining_of_read_number hread
  obtain ⟨rfl, rfl⟩ := Prod.mk.inj hv
  rwa [UInt16.toNat_ofNat_of_lt' hlt]

theorem remaining_of_readU32 {d : Cursor} {v : UInt32} (h : c.readU32 = .ok (v, d)) :
    c.remaining = Bytes.ofNat 4 v.toNat ++ d.remaining := by
  obtain ⟨⟨b, d'⟩, hread, hv⟩ := map_eq_ok_iff.mp h
  obtain ⟨hlt, hremaining⟩ := remaining_of_read_number hread
  obtain ⟨rfl, rfl⟩ := Prod.mk.inj hv
  rwa [UInt32.toNat_ofNat_of_lt' hlt]

end Cursor

/-- The report of a read that starts within a byte string and does not end within it. -/
structure Truncated.IsPast (t : Truncated) (b : Bytes) : Prop where
  offset_le : t.offset ≤ b.length
  length_lt : b.length < t.offset + t.len
  available_eq : t.available = b.length - t.offset

namespace Cursor

variable {c : Cursor} {b rest : Bytes} {t : Truncated}

/-- A read fails only if it would pass the end. -/
theorem isPast_of_read {n : Nat} (h : c.read n = .error t) : t.IsPast c.bytes := by
  by_cases hfits : c.offset + n ≤ c.bytes.length
  · rw [read_of_fits hfits] at h
    cases h
  · rw [read_of_past hfits] at h
    cases h
    exact ⟨c.offset_le, Nat.lt_of_not_le hfits, rfl⟩

theorem isPast_of_readU8 (h : c.readU8 = .error t) : t.IsPast c.bytes :=
  isPast_of_read (map_eq_error_iff.mp h)

theorem isPast_of_skip {n : Nat} (h : c.skip n = .error t) : t.IsPast c.bytes :=
  isPast_of_read (map_eq_error_iff.mp h)

end Cursor

/-! ## Reads in turn -/

namespace Truncated

/-- The report of the first of some reads, each given by its offset and its length, that passes the
end of a byte string. -/
def first? (b : Bytes) (reads : List (Nat × Nat)) : Option Truncated :=
  (reads.find? fun r => b.length < r.1 + r.2).map fun r => ⟨r.1, r.2, b.length - r.1⟩

variable {b : Bytes} {offset len : Nat} {reads later : List (Nat × Nat)}

theorem first?_append : first? b (reads ++ later) = (first? b reads).or (first? b later) := by
  unfold first?
  rw [List.find?_append, Option.map_or]

theorem first?_singleton : first? b [(offset, len)]
    = if b.length < offset + len then some ⟨offset, len, b.length - offset⟩ else none := by
  by_cases hpast : b.length < offset + len
  · simp [first?, hpast]
  · simp [first?, hpast]

theorem first?_eq_none_iff : first? b reads = none ↔ ∀ r ∈ reads, r.1 + r.2 ≤ b.length := by
  unfold first?
  rw [Option.map_eq_none_iff, List.find?_eq_none]
  simp only [decide_eq_true_eq, Nat.not_lt]

end Truncated

/-- A computation makes reads of a byte string in turn: it fails with the report of the first that
passes the end, and if there is none, it answers a value with the property. -/
def MakesReads {ε α : Type} (b : Bytes) (fail : Truncated → ε) (reads : List (Nat × Nat))
    (P : α → Prop) (x : Except ε α) : Prop :=
  match Truncated.first? b reads with
  | some t => x = .error (fail t)
  | none => ∃ a, x = .ok a ∧ P a

namespace MakesReads

variable {ε α β : Type} {b : Bytes} {fail : Truncated → ε} {reads later : List (Nat × Nat)}
  {P : α → Prop} {x : Except ε α}

theorem eq_error {t : Truncated} (h : MakesReads b fail reads P x)
    (ht : Truncated.first? b reads = some t) : x = .error (fail t) := by
  unfold MakesReads at h
  rwa [ht] at h

theorem exists_eq_ok (h : MakesReads b fail reads P x) (hfits : Truncated.first? b reads = none) :
    ∃ a, x = .ok a ∧ P a := by
  unfold MakesReads at h
  rwa [hfits] at h

theorem ok {a : α} (h : P a) : MakesReads b fail [] P (.ok a : Except ε α) := ⟨a, rfl, h⟩

theorem bind {Q : β → Prop} {f : α → Except ε β} (hx : MakesReads b fail reads P x)
    (hf : ∀ a, P a → MakesReads b fail later Q (f a)) :
    MakesReads b fail (reads ++ later) Q (x >>= f) := by
  cases ht : Truncated.first? b reads with
  | some t =>
      unfold MakesReads
      rw [Truncated.first?_append, ht, hx.eq_error ht]
      rfl
  | none =>
      obtain ⟨a, rfl, ha⟩ := hx.exists_eq_ok ht
      unfold MakesReads
      rw [Truncated.first?_append, ht, Option.none_or]
      exact hf a ha

/-- A single read, reported as another error. -/
theorem single {offset len : Nat} {r : Except Truncated α}
    (hfits : offset + len ≤ b.length → ∃ a, r = .ok a ∧ P a)
    (hpast : b.length < offset + len → r = .error ⟨offset, len, b.length - offset⟩) :
    MakesReads b fail [(offset, len)] P (r.mapError fail) := by
  unfold MakesReads
  rw [Truncated.first?_singleton]
  by_cases h : b.length < offset + len
  · rw [if_pos h, hpast h]
    rfl
  · rw [if_neg h]
    obtain ⟨a, rfl, ha⟩ := hfits (Nat.le_of_not_lt h)
    exact ⟨a, rfl, ha⟩

theorem peekAt (c : Cursor) (offset len : Nat) :
    MakesReads c.bytes fail [(offset, len)]
      (fun v => offset + len ≤ c.bytes.length ∧ v = (c.bytes.drop offset).take len)
      ((c.peekAt offset len).mapError fail) :=
  single (fun h => ⟨_, Cursor.peekAt_of_fits h, h, rfl⟩) fun h =>
    Cursor.peekAt_of_past (Nat.not_le_of_lt h)

theorem peekFixedAt (c : Cursor) (offset n : Nat) :
    MakesReads c.bytes fail [(offset, n)]
      (fun v : FixedBytes n => v.toList = (c.bytes.drop offset).take n)
      ((c.peekFixedAt offset n).mapError fail) :=
  single (fun h => ⟨_, dif_pos h, rfl⟩) fun h => dif_neg (Nat.not_le_of_lt h)

theorem readFixed (c : Cursor) (n : Nat) :
    MakesReads c.bytes fail [(c.offset, n)]
      (fun p : FixedBytes n × Cursor => p.1.toList = (c.bytes.drop c.offset).take n
        ∧ p.2.bytes = c.bytes ∧ p.2.offset = c.offset + n)
      ((c.readFixed n).mapError fail) :=
  single (fun h => ⟨_, dif_pos h, rfl, rfl, rfl⟩) fun h => dif_neg (Nat.not_le_of_lt h)

theorem skip (c : Cursor) (len : Nat) :
    MakesReads c.bytes fail [(c.offset, len)]
      (fun d : Cursor => d.bytes = c.bytes ∧ d.offset = c.offset + len)
      ((c.skip len).mapError fail) :=
  single (fun h => ⟨_, map_eq_ok_iff.mpr ⟨_, Cursor.read_of_fits h, rfl⟩, rfl, rfl⟩)
    fun h => map_eq_error_iff.mpr (Cursor.read_of_past (Nat.not_le_of_lt h))

end MakesReads

end SmartWallet
