import SmartWallet.Proofs.Bytes.Number
import SmartWallet.Xdr.Basic

set_option autoImplicit false

/-! # Readers and written forms

Two facts tie a reader to a written form.

* `Reads r e x`: with the bytes of `e` in front, whatever is behind them, `r` answers `x` and what
  is behind. It is asked only of a form whose lengths are within their maxima.
* `Yields r p`: every value that `r` answers has the property `p`. With `p` the fact that the value
  fits, it says that what was read can be written again.

There is one lemma of each kind for each way in which readers are put together, so the proof for a
type goes through its fields. `Xdr.Lawful` is both facts for a type. From the first follows that no
written form starts another (`write_append_inj`). -/

namespace SmartWallet.Xdr

variable {α β : Type}

/-! ## Written forms -/

namespace Encoding

theorem append_assoc (a b c : Encoding) : a ++ b ++ c = a ++ (b ++ c) := by
  show Encoding.mk _ _ = Encoding.mk _ _
  simp [List.append_assoc, Bool.and_assoc]

theorem append_empty (a : Encoding) : a ++ empty = a := by
  show Encoding.mk _ _ = a
  simp [empty]

@[simp] theorem fits_number (n v : Nat) : (number n v).fits = true := rfl

@[simp] theorem fits_tag (v : Nat) : (tag v).fits = true := rfl

@[simp] theorem fits_fixed (b : Bytes) : (fixed b).fits = true := rfl

@[simp] theorem fits_length (max n : Nat) : (length max n).fits = decide (n ≤ max) := rfl

theorem length_bytes_append (a b : Encoding) :
    (a ++ b).bytes.length = a.bytes.length + b.bytes.length := List.length_append

@[simp] theorem length_bytes_tag (v : Nat) : (tag v).bytes.length = 4 := Bytes.length_ofNat 4 v

theorem opaqueBytes_eq (max : Nat) (b : Bytes) :
    opaqueBytes max b
      = length max b.length ++ (fixed b ++ fixed (List.replicate (padding b.length) 0)) := by
  show Encoding.mk _ _ = Encoding.mk _ _
  simp [length, fixed]

theorem fits_concat_iff {write : α → Encoding} {items : List α} :
    (concat write items).fits = true ↔ ∀ x ∈ items, (write x).fits = true := by
  induction items with
  | nil => simp [concat, empty]
  | cons x rest ih => simp [concat, ih]

theorem fits_list_iff {max : Nat} {write : α → Encoding} {items : List α} :
    (list max write items).fits = true
      ↔ items.length ≤ max ∧ ∀ x ∈ items, (write x).fits = true := by
  rw [list, fits_append, fits_length, Bool.and_eq_true, decide_eq_true_iff, fits_concat_iff]

theorem length_le_length_concat {write : α → Encoding} {items : List α} {x : α} (h : x ∈ items) :
    (write x).bytes.length ≤ (concat write items).bytes.length := by
  induction items with
  | nil => cases h
  | cons y rest ih =>
      rw [concat, length_bytes_append]
      rcases List.mem_cons.mp h with rfl | h
      · omega
      · have := ih h
        omega

/-- The form of an item is shorter than that of its list, which starts with the number of items. -/
theorem length_lt_length_list {max : Nat} {write : α → Encoding} {items : List α} {x : α}
    (h : x ∈ items) : (write x).bytes.length < (list max write items).bytes.length := by
  have hitem : (write x).bytes.length ≤ (concat write items).bytes.length :=
    length_le_length_concat h
  have hnumber : (length max items.length).bytes.length = 4 := Bytes.length_ofNat 4 items.length
  rw [list, length_bytes_append, hnumber]
  omega

/-- The form of a value is shorter than what also says that the value is there. -/
theorem length_lt_length_option {write : α → Encoding} {x : α} :
    (write x).bytes.length < (option write (some x)).bytes.length := by
  rw [option, length_bytes_append, length_bytes_tag]
  omega

/-- What stands behind the number of a variant is shorter than the variant. -/
theorem length_le_of_tag_append {v depth : Nat} {e : Encoding}
    (h : (tag v ++ e).bytes.length ≤ depth + 1) : e.bytes.length ≤ depth := by
  rw [length_bytes_append, length_bytes_tag] at h
  omega

theorem toBytes_eq_ok_iff {e : Encoding} {b : Bytes} :
    e.toBytes = .ok b ↔ e.fits = true ∧ b = e.bytes := by
  unfold toBytes
  cases e.fits with
  | false => exact ⟨nofun, nofun⟩
  | true =>
      rw [if_pos rfl, Except.ok.injEq]
      exact ⟨fun h => ⟨rfl, h.symm⟩, fun h => h.2.symm⟩

end Encoding

namespace Reader

open Encoding (fits_append bytes_append)

/-! ## Reading what was written -/

/-- The reader answers the value when the bytes of the form stand in front, and
leaves what is behind them. -/
def Reads (r : Reader α) (e : Encoding) (x : α) : Prop :=
  e.fits = true → ∀ rest, r (e.bytes ++ rest) = .ok (x, rest)

theorem bind_apply (r : Reader α) (f : α → Reader β) (b : Bytes) :
    (r >>= f) b = r b >>= fun p => f p.1 p.2 := rfl

namespace Reads

theorem pure (x : α) : Reads (pure x) .empty x := fun _ _ => rfl

theorem bind {r : Reader α} {f : α → Reader β} {d e : Encoding} {x : α} {y : β}
    (hr : Reads r d x) (hf : Reads (f x) e y) : Reads (r >>= f) (d ++ e) y := by
  intro hfits rest
  rw [fits_append, Bool.and_eq_true] at hfits
  rw [bytes_append, List.append_assoc, bind_apply, hr hfits.1]
  exact hf hfits.2 rest

theorem map {r : Reader α} {e : Encoding} {x : α} (g : α → β) (h : Reads r e x) :
    Reads (g <$> r) e (g x) := by
  rw [map_eq_pure_bind, ← Encoding.append_empty e]
  exact h.bind (pure (g x))

/-- The last field of a value. -/
theorem last {r : Reader α} {e : Encoding} {x : α} {g : α → β} (h : Reads r e x) :
    Reads (do let y ← r; Pure.pure (g y)) e (g x) := by
  rw [← Encoding.append_empty e]
  exact h.bind (pure (g x))

theorem take {n : Nat} {b : Bytes} (h : b.length = n) : Reads (Reader.take n) (.fixed b) b := by
  subst h
  intro _ rest
  unfold Reader.take
  rw [if_pos (by simp [Encoding.fixed])]
  simp [Encoding.fixed]

theorem fixed {n : Nat} (b : FixedBytes n) : Reads (Reader.fixed n) (.fixed b.toList) b := by
  obtain ⟨b, rfl⟩ := b
  intro _ rest
  unfold Reader.fixed
  rw [dif_pos (by simp [Encoding.fixed])]
  simp [Encoding.fixed]

theorem number {n v : Nat} (h : v < Bytes.bound n) : Reads (Reader.number n) (.number n v) v := by
  have hread := map Bytes.toNat (take (Bytes.length_ofNat n v))
  rw [Bytes.toNat_ofNat_of_lt h] at hread
  exact hread

theorem tag {v : Nat} (h : v < 0x100000000) : Reads Reader.tag (.tag v) v := number h

/-- A variant with its number in front. -/
theorem tagged {v : Nat} {f : Nat → Reader α} {e : Encoding} {x : α}
    (hv : decide (v < 0x100000000) = true) (h : Reads (f v) e x) :
    Reads (Reader.tag >>= f) (.tag v ++ e) x :=
  bind (tag (of_decide_eq_true hv)) h

/-- A variant that is nothing but its number. -/
theorem bare {v : Nat} {f : Nat → Reader α} {x : α} (hv : decide (v < 0x100000000) = true)
    (h : Reads (f v) .empty x) : Reads (Reader.tag >>= f) (.tag v) x := by
  rw [← Encoding.append_empty (.tag v)]
  exact tagged hv h

theorem length {max n : Nat} (hmax : max ≤ maxLength) :
    Reads (Reader.length max) (.length max n) n := by
  intro hfits
  have hn : n ≤ max := of_decide_eq_true hfits
  have hread : Reads (Reader.length max) (.number 4 n ++ .empty) n := by
    refine bind (number (Nat.lt_of_le_of_lt (Nat.le_trans hn hmax) (by decide))) ?_
    rw [if_pos hn]
    exact pure n
  rw [Encoding.append_empty] at hread
  exact hread rfl

theorem opaqueBytes {max : Nat} (hmax : max ≤ maxLength) (b : Bytes) :
    Reads (Reader.opaqueBytes max) (.opaqueBytes max b) b := by
  rw [Encoding.opaqueBytes_eq, ← Encoding.append_empty (.fixed (List.replicate _ 0))]
  refine bind (length hmax) (bind (take rfl) (bind (take List.length_replicate) ?_))
  have hpad : (List.replicate (Encoding.padding b.length) (0 : UInt8)).all (· = 0) = true := by
    simp
  rw [if_pos hpad]
  exact pure b

theorem repeated {r : Reader α} {write : α → Encoding} {items : List α}
    (h : ∀ x ∈ items, Reads r (write x) x) :
    Reads (Reader.repeated r items.length) (.concat write items) items := by
  induction items with
  | nil => exact pure []
  | cons x rest ih =>
      have hrest := ih fun y hy => h y (List.mem_cons_of_mem x hy)
      exact bind (h x List.mem_cons_self) (last hrest)

theorem list {max : Nat} {r : Reader α} {write : α → Encoding} {items : List α}
    (hmax : max ≤ maxLength) (h : ∀ x ∈ items, Reads r (write x) x) :
    Reads (Reader.list max r) (.list max write items) items :=
  bind (length hmax) (repeated h)

theorem option {r : Reader α} {write : α → Encoding} {x : Option α}
    (h : ∀ y, x = some y → Reads r (write y) y) :
    Reads (Reader.option r) (.option write x) x := by
  cases x with
  | none => exact bare rfl (pure none)
  | some y => exact tagged rfl (map some (h y rfl))

/-- A form is read when as many levels are allowed as it has bytes. -/
theorem sized {r : Nat → Reader α} {e : Encoding} {x : α}
    (h : ∀ depth, e.bytes.length ≤ depth → Reads (r depth) e x) : Reads (Reader.sized r) e x := by
  intro hfits rest
  have hdepth : e.bytes.length ≤ (e.bytes ++ rest).length := by
    rw [List.length_append]
    omega
  exact h _ hdepth hfits rest

end Reads

/-! ## Writing what was read -/

/-- Every value that the reader answers has the property. -/
def Yields (r : Reader α) (p : α → Prop) : Prop := ∀ b x rest, r b = .ok (x, rest) → p x

namespace Yields

theorem pure {p : α → Prop} {x : α} (h : p x) : Yields (pure x) p := by
  rintro b y rest ⟨⟩
  exact h

theorem bind {r : Reader α} {f : α → Reader β} {p : α → Prop} {q : β → Prop} (hr : Yields r p)
    (hf : ∀ x, p x → Yields (f x) q) : Yields (r >>= f) q := by
  intro b y rest h
  rw [bind_apply] at h
  cases hx : r b with
  | error e =>
      rw [hx] at h
      cases h
  | ok a =>
      rw [hx] at h
      exact hf a.1 (hr b a.1 a.2 hx) a.2 y rest h

theorem trivial (r : Reader α) : Yields r fun _ => True := fun _ _ _ _ => True.intro

theorem map {r : Reader α} {g : α → β} {p : α → Prop} {q : β → Prop} (h : Yields r p)
    (hg : ∀ x, p x → q (g x)) : Yields (g <$> r) q := by
  rw [map_eq_pure_bind]
  exact h.bind fun x hx => pure (hg x hx)

/-- A variant, by its number. -/
theorem tagged {f : Nat → Reader α} {p : α → Prop} (h : ∀ v, Yields (f v) p) :
    Yields (Reader.tag >>= f) p := (trivial _).bind fun v _ => h v

theorem throw {p : α → Prop} (e : Error) : Yields (throw e : Reader α) p := by
  intro b x rest h
  cases h

theorem invalid {p : α → Prop} : Yields (Reader.invalid : Reader α) p := by
  intro b x rest h
  cases h

theorem take (n : Nat) : Yields (Reader.take n) fun b => b.length = n := by
  intro b x rest h
  unfold Reader.take at h
  split at h
  · cases h
    rw [List.length_take]
    omega
  · cases h

theorem length (max : Nat) : Yields (Reader.length max) (· ≤ max) := by
  refine (trivial _).bind fun n _ => ?_
  split
  · rename_i hn
    exact pure hn
  · exact throw _

theorem opaqueBytes (max : Nat) :
    Yields (Reader.opaqueBytes max) fun b => (Encoding.opaqueBytes max b).fits = true := by
  refine (length max).bind fun n hn => (take n).bind fun b hb => (trivial _).bind fun pad _ => ?_
  split
  · exact pure (decide_eq_true (hb ▸ hn))
  · exact throw _

theorem repeated {r : Reader α} {p : α → Prop} (h : Yields r p) (n : Nat) :
    Yields (Reader.repeated r n) fun items => items.length = n ∧ ∀ x ∈ items, p x := by
  induction n with
  | zero => exact pure ⟨rfl, fun x hx => absurd hx List.not_mem_nil⟩
  | succ n ih =>
      refine h.bind fun x hx => ih.bind fun rest hrest => pure ⟨?_, ?_⟩
      · rw [List.length_cons, hrest.1]
      · intro y hy
        rcases List.mem_cons.mp hy with rfl | hy
        · exact hx
        · exact hrest.2 y hy

theorem list {r : Reader α} {write : α → Encoding} (max : Nat)
    (h : Yields r fun x => (write x).fits = true) :
    Yields (Reader.list max r) fun items => (Encoding.list max write items).fits = true := by
  refine (length max).bind fun n hn => ?_
  intro b items rest hread
  obtain ⟨rfl, hfits⟩ := repeated h n b items rest hread
  exact Encoding.fits_list_iff.mpr ⟨hn, hfits⟩

theorem option {r : Reader α} {write : α → Encoding}
    (h : Yields r fun x => (write x).fits = true) :
    Yields (Reader.option r) fun x => (Encoding.option write x).fits = true := by
  refine tagged fun v => ?_
  split
  · exact pure rfl
  · exact h.map fun x hx => by rw [Encoding.option, fits_append, Encoding.fits_tag, hx]; rfl
  · exact invalid

theorem sized {r : Nat → Reader α} {p : α → Prop} (h : ∀ depth, Yields (r depth) p) :
    Yields (Reader.sized r) p := fun b => h b.length b

end Yields

end Reader

/-! ## Types -/

open Reader

/-- A type whose written form is read back, and whose values can be written once they were read. -/
class Lawful (α : Type) [Xdr α] : Prop where
  /-- What is written is read back. -/
  reads (x : α) : Reads read (write x) x
  /-- What was read can be written. -/
  fits : Yields read fun x : α => (write x).fits = true

instance : Lawful UInt32 where
  reads v := by
    have h := Reads.map UInt32.ofNat (Reads.number (n := 4) v.toNat_lt)
    rwa [UInt32.ofNat_toNat] at h
  fits := fun _ _ _ _ => rfl

instance : Lawful UInt64 where
  reads v := by
    have h := Reads.map UInt64.ofNat (Reads.number (n := 8) v.toNat_lt)
    rwa [UInt64.ofNat_toNat] at h
  fits := fun _ _ _ _ => rfl

instance : Lawful Int32 where
  reads v := by
    have h := Reads.map (fun w => (UInt32.ofNat w).toInt32)
      (Reads.number (n := 4) v.toUInt32.toNat_lt)
    rwa [UInt32.ofNat_toNat] at h
  fits := fun _ _ _ _ => rfl

instance : Lawful Int64 where
  reads v := by
    have h := Reads.map (fun w => (UInt64.ofNat w).toInt64)
      (Reads.number (n := 8) v.toUInt64.toNat_lt)
    rwa [UInt64.ofNat_toNat] at h
  fits := fun _ _ _ _ => rfl

instance : Lawful Bool where
  reads b := by
    cases b
    · exact Reads.map (· == 1) (Reads.number (n := 4) (v := 0) (by decide))
    · exact Reads.map (· == 1) (Reads.number (n := 4) (v := 1) (by decide))
  fits := fun _ _ _ _ => rfl

instance {n : Nat} : Lawful (FixedBytes n) where
  reads := Reads.fixed
  fits := fun _ _ _ _ => rfl

instance [Xdr α] [Lawful α] : Lawful (Option α) where
  reads _ := Reads.option fun y _ => Lawful.reads y
  fits := Yields.option Lawful.fits

section

variable [Xdr α] [Lawful α]

theorem reads_list {max : Nat} (hmax : max ≤ maxLength) (items : List α) :
    Reads (readList max) (writeList max items) items :=
  Reads.list hmax fun x _ => Lawful.reads x

theorem fits_readList (max : Nat) :
    Yields (readList max) fun items : List α => (writeList max items).fits = true :=
  Yields.list max Lawful.fits

/-- No written form starts another, so what stands in front of the rest
can be told from the bytes. -/
theorem write_append_inj {x y : α} {r s : Bytes} (hx : (write x).fits = true)
    (hy : (write y).fits = true) (h : (write x).bytes ++ r = (write y).bytes ++ s) :
    x = y ∧ r = s := by
  -- both are what is read from the same bytes
  have hread := Lawful.reads x hx r
  rw [h, Lawful.reads y hy s, Except.ok.injEq, Prod.mk.injEq] at hread
  exact ⟨hread.1.symm, hread.2.symm⟩

theorem write_inj {x y : α} (hx : (write x).fits = true) (hy : (write y).fits = true)
    (h : (write x).bytes = (write y).bytes) : x = y := by
  have happend : (write x).bytes ++ [] = (write y).bytes ++ [] := by rw [h]
  exact (write_append_inj hx hy happend).1

end

end SmartWallet.Xdr
