import SmartWallet.Proofs.Ecdsa.Der

set_option autoImplicit false

/-! # The pairs of signatures

`(r, s)` and `(r, n - s)` are a pair: whoever has one of them can write down the other, and both fit
the same messages and keys. `Signature.IsPair` says that two signatures are the same one or the two
of a pair, and the low form is a complete invariant of it, on the signatures with numbers in range:

* the low form is one of the pair (`Signature.isPair_of_normalize?`), with a second
  number of at most half the order,
* two signatures have the same low form exactly if they are a pair
  (`Signature.normalize?_eq_normalize?_iff`).

Three functions look at these numbers, each with tests of its own. They agree, and
`Der.normalizeCompact_canonical` puts this together: what the normalization leaves unchanged is what
`isLowS` holds of, and the only thing that verification accepts. -/

namespace SmartWallet.Ecdsa

namespace Signature

variable {x y : Signature}

/-! ## Numbers -/

/-- Another second number leaves the bytes of the first one. -/
theorem take_ofNumbers (x : Signature) (s : Nat) :
    (ofNumbers x.r s).bytes.toList.take 32 = x.bytes.toList.take 32 := by
  show (Bytes.ofNat 32 x.r ++ Bytes.ofNat 32 s).take 32 = x.bytes.toList.take 32
  rw [List.take_left' (Bytes.length_ofNat 32 x.r), ofNat_r]

theorem low_lt_bound (s : Nat) : low s < Bytes.bound 32 :=
  Nat.lt_of_le_of_lt (low_le_n s) n_lt

/-- The numbers up to half the order are those that are low. -/
theorem low_eq_self_iff {s : Nat} : low s = s ↔ s ≤ P256.n / 2 := by
  have hodd := n_odd
  constructor
  · intro h
    rw [← h]
    exact low_le_half s
  · intro h
    exact if_pos h

/-! ## Pairs -/

/-- The two signatures are the same one, or the two of a pair. -/
def IsPair (x y : Signature) : Prop := x.r = y.r ∧ (x.s = y.s ∨ x.s + y.s = P256.n)

/-- Two signatures that pair with a third one pair with each other. -/
theorem IsPair.of_common {z : Signature} (hx : IsPair x z) (hy : IsPair y z) : IsPair x y := by
  obtain ⟨hxr, hxs⟩ := hx
  obtain ⟨hyr, hys⟩ := hy
  refine ⟨hxr.trans hyr.symm, ?_⟩
  omega

/-- The second numbers of a pair have the same low form. -/
theorem IsPair.low_eq (h : IsPair x y) (hy : y.inRange = true) : low x.s = low y.s := by
  have hscalar : isScalar y.s = true := isScalar_iff.mpr (inRange_iff.mp hy).2
  rcases h.2 with hs | hs
  · rw [hs]
  · have hnegate : x.s = P256.n - y.s := by omega
    rw [hnegate, low_negate hscalar]

/-- The numbers of the low form. -/
theorem numbers_of_normalize? (h : x.normalize? = some y) : y.r = x.r ∧ y.s = low x.s := by
  obtain ⟨-, rfl⟩ := normalize?_eq_some_iff.mp h
  exact ⟨r_ofNumbers x.r_lt, s_ofNumbers (low_lt_bound x.s)⟩

/-- The low form is one of the pair. -/
theorem isPair_of_normalize? (h : x.normalize? = some y) : IsPair x y := by
  obtain ⟨hrange, -⟩ := normalize?_eq_some_iff.mp h
  obtain ⟨-, -, hlt⟩ := inRange_iff.mp hrange
  obtain ⟨hr, hs⟩ := numbers_of_normalize? h
  refine ⟨hr.symm, ?_⟩
  rw [hs, low_eq_min]
  omega

/-- Signatures in range have the same low form exactly if they are a pair. -/
theorem normalize?_eq_normalize?_iff (hx : x.inRange = true) (hy : y.inRange = true) :
    x.normalize? = y.normalize? ↔ IsPair x y := by
  have hx' : x.normalize? = some (ofNumbers x.r (low x.s)) := normalize?_eq_some_iff.mpr ⟨hx, rfl⟩
  have hy' : y.normalize? = some (ofNumbers y.r (low y.s)) := normalize?_eq_some_iff.mpr ⟨hy, rfl⟩
  constructor
  · intro h
    -- the low form that they share pairs with both of them
    rw [hx'] at h
    exact (isPair_of_normalize? hx').of_common (isPair_of_normalize? h.symm)
  · intro h
    rw [hx', hy', h.1, h.low_eq hy]

/-- The low signatures are their own low form, and no other signature is. -/
theorem normalize?_eq_self_iff : x.normalize? = some x ↔ x.isLowS = true := by
  rw [isLowS_iff, ← low_eq_self_iff]
  constructor
  · intro h
    obtain ⟨hrange, -⟩ := normalize?_eq_some_iff.mp h
    exact ⟨hrange, (numbers_of_normalize? h).2.symm⟩
  · rintro ⟨hrange, hlow⟩
    rw [normalize?_eq_some_iff, hlow, ofNumbers_r_s]
    exact ⟨hrange, rfl⟩

/-- The low form is low. -/
theorem isLowS_of_normalize? (h : x.normalize? = some y) : y.isLowS = true := by
  obtain ⟨hrange, -⟩ := normalize?_eq_some_iff.mp h
  obtain ⟨hr, hs⟩ := numbers_of_normalize? h
  have hrange' : y.inRange = true := by
    unfold inRange at hrange ⊢
    rwa [hr, hs, isScalar_low]
  have hhalf : y.s ≤ P256.n / 2 := by
    rw [hs]
    exact low_le_half x.s
  exact isLowS_iff.mpr ⟨hrange', hhalf⟩

end Signature

/-! ## Normalization -/

namespace Der

variable {x y : Signature}

/-- The only error is that of a number out of range. -/
theorem normalizeCompact_eq_error_iff {e : ParseError} :
    normalizeCompact x = .error e ↔ e = .invalidScalar ∧ x.inRange ≠ true := by
  unfold normalizeCompact Signature.normalize?
  by_cases hrange : x.inRange = true
  · rw [if_pos hrange]
    constructor
    · exact nofun
    · rintro ⟨-, hnot⟩
      exact absurd hrange hnot
  · rw [if_neg hrange]
    constructor
    · rintro ⟨⟩
      exact ⟨rfl, hrange⟩
    · rintro ⟨rfl, -⟩
      rfl

theorem normalizeCompact_eq_self_iff : normalizeCompact x = .ok x ↔ x.isLowS = true := by
  rw [normalizeCompact_eq_ok_iff, Signature.normalize?_eq_self_iff]

/-- Normalization chooses one signature of each pair. It refuses the numbers that are out of range,
and nothing else; it keeps the first number and takes the smaller of the second one and its
negative; what it has chosen, it leaves as it is. Two signatures come to the same one exactly if
they are a pair. The chosen ones are those that are low, and verification accepts no other. -/
theorem normalizeCompact_canonical :
    (∀ x, normalizeCompact x = .error .invalidScalar ↔
      ¬ ((0 < x.r ∧ x.r < P256.n) ∧ 0 < x.s ∧ x.s < P256.n))
    ∧ (∀ x, (0 < x.r ∧ x.r < P256.n) ∧ (0 < x.s ∧ x.s < P256.n) →
      ∃ y, normalizeCompact x = .ok y
        ∧ y.bytes.toList.take 32 = x.bytes.toList.take 32 ∧ y.r = x.r
        ∧ y.s = min x.s (P256.n - x.s) ∧ y.s ≤ (P256.n - 1) / 2
        ∧ normalizeCompact y = .ok y)
    ∧ (∀ x x' y y', normalizeCompact x = .ok y → normalizeCompact x' = .ok y' →
      (y = y' ↔ x.r = x'.r ∧ (x.s = x'.s ∨ x.s + x'.s = P256.n)))
    ∧ (∀ x : Signature, x.isLowS = true ↔ normalizeCompact x = .ok x)
    ∧ (∀ x digest k, verify x digest k = true → normalizeCompact x = .ok x) := by
  refine ⟨?refused, ?accepted, ?pairs, fun _ => normalizeCompact_eq_self_iff.symm, ?verified⟩
  case refused =>
    intro x
    rw [← Signature.inRange_iff, normalizeCompact_eq_error_iff]
    exact ⟨fun h => h.2, fun h => ⟨rfl, h⟩⟩
  case accepted =>
    intro x hrange
    have hnormalize : x.normalize? = some (.ofNumbers x.r (Signature.low x.s)) :=
      Signature.normalize?_eq_some_iff.mpr ⟨Signature.inRange_iff.mpr hrange, rfl⟩
    obtain ⟨hr, hs⟩ := Signature.numbers_of_normalize? hnormalize
    have hfixed := normalizeCompact_eq_self_iff.mpr (Signature.isLowS_of_normalize? hnormalize)
    refine ⟨_, normalizeCompact_eq_ok_iff.mpr hnormalize, Signature.take_ofNumbers x _, hr, ?_, ?_,
      hfixed⟩
    · rw [hs, Signature.low_eq_min]
    · have hhalf := Signature.low_le_half x.s
      have hodd := Signature.n_odd
      rw [hs]
      omega
  case pairs =>
    intro x x' y y' hx hx'
    rw [normalizeCompact_eq_ok_iff] at hx hx'
    obtain ⟨hrange, -⟩ := Signature.normalize?_eq_some_iff.mp hx
    obtain ⟨hrange', -⟩ := Signature.normalize?_eq_some_iff.mp hx'
    have hpair := Signature.normalize?_eq_normalize?_iff hrange hrange'
    rwa [hx, hx', Option.some_inj] at hpair
  case verified =>
    intro x digest k h
    exact normalizeCompact_eq_self_iff.mpr (isLowS_of_verify h)

/-- The pair of `(1, n - 1)` and `(1, 1)` comes to one signature. The signature of the
digest zero by the key `1`, whose two numbers are the first coordinate of the
generator, verifies and is unchanged. -/
theorem normalizeCompact_canonical_sample :
    (∃ y, normalizeCompact (.ofNumbers 1 (P256.n - 1)) = .ok y
      ∧ normalizeCompact (.ofNumbers 1 1) = .ok y ∧ y.s = 1)
    ∧ (let g := P256.Point.generator
       let x := Signature.ofNumbers g.x.val g.x.val
       let k := PublicKey.ofCoordinates (FixedBytes.ofNat 32 g.x.val) (FixedBytes.ofNat 32 g.y.val)
       verify x (FixedBytes.ofNat 32 0) k = true ∧ normalizeCompact x = .ok x) := by
  obtain ⟨-, haccepted, hpairs, -, hverified⟩ := normalizeCompact_canonical
  constructor
  · obtain ⟨y, hy, -, -, hs, -⟩ := haccepted (.ofNumbers 1 (P256.n - 1)) (by decide)
    obtain ⟨y', hy', -⟩ := haccepted (.ofNumbers 1 1) (by decide)
    have hsame : y = y' := (hpairs _ _ _ _ hy hy').mpr (by decide)
    refine ⟨y, hy, hsame ▸ hy', ?_⟩
    rw [hs]
    decide
  · intro g x k
    have hverify : verify x (FixedBytes.ofNat 32 0) k = true := by decide +kernel
    exact ⟨hverify, hverified _ _ _ hverify⟩

end Der

end SmartWallet.Ecdsa
