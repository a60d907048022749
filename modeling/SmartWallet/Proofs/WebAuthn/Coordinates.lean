import SmartWallet.Proofs.WebAuthn.AuthenticatorData
import SmartWallet.Sample

set_option autoImplicit false

/-! # Keys looked up by position

An encoded P-256 key is a header of ten bytes, the first coordinate, three bytes, and the second
coordinate: 77 bytes in all. Two look-ups go by these numbers only. In authenticator data the key
stands behind the id of the credential, and `CredentialKey.ofAuthenticatorData_agrees` says that the
look-up finds exactly the key that a reading of the data from the start would find there. In an
attestation object it stands where the header first occurs
(`CredentialKey.ofAttestationObject_first`).

Both make a fixed sequence of reads (`MakesReads`), and when the bytes end too early they report the
first of these reads that does not fit. -/

namespace SmartWallet.WebAuthn

/-- The bytes of the key whose encoded form stands at a position: the
tag and the two coordinates. -/
def keyBytesAt (b : Bytes) (i : Nat) : Bytes :=
  0x04 :: ((b.drop (i + 10)).take 32 ++ (b.drop (i + 45)).take 32)

theorem keyBytesAt_drop (b : Bytes) (i : Nat) : keyBytesAt (b.drop i) 0 = keyBytesAt b i := by
  unfold keyBytesAt
  rw [List.drop_drop, List.drop_drop, Nat.zero_add, Nat.zero_add]

theorem bytes_ofCoordinates {b : Bytes} {i : Nat} {x y : Bytes32}
    (hx : x.toList = (b.drop (i + 10)).take 32) (hy : y.toList = (b.drop (i + 45)).take 32) :
    (Ecdsa.PublicKey.ofCoordinates x y).bytes.toList = keyBytesAt b i := by
  show Ecdsa.uncompressedTag :: (x.toList ++ y.toList) = _
  rw [hx, hy]
  rfl

/-- An encoded key is found in itself, whatever separates the
coordinates and whatever follows them. -/
theorem bytes_of_encoded {b separator rest : Bytes} {x y : Bytes32}
    (hseparator : separator.length = 3)
    (h : b = coseHeader ++ (x.toList ++ (separator ++ (y.toList ++ rest)))) :
    (Ecdsa.PublicKey.ofCoordinates x y).bytes.toList = keyBytesAt b 0 ∧ 77 ≤ b.length := by
  have hheader : coseHeader.length = 10 := rfl
  have hx : x.toList = (b.drop (0 + 10)).take 32 := by
    rw [h, List.drop_left' hheader, List.take_left' x.length_toList]
  have hy : y.toList = (b.drop (0 + 45)).take 32 := by
    have hfront : (coseHeader ++ (x.toList ++ separator)).length = 0 + 45 := by
      simp only [List.length_append, x.length_toList, hheader, hseparator]
    have hb : b = coseHeader ++ (x.toList ++ separator) ++ (y.toList ++ rest) := by
      rw [h]
      simp only [List.append_assoc]
    rw [hb, List.drop_left' hfront, List.take_left' y.length_toList]
  refine ⟨bytes_ofCoordinates hx hy, ?_⟩
  rw [h]
  simp only [List.length_append, x.length_toList, y.length_toList, hheader, hseparator]
  omega

theorem eq_of_bytes_toList {k l : Ecdsa.PublicKey} (h : k.bytes.toList = l.bytes.toList) : k = l :=
  congrArg Ecdsa.PublicKey.mk (FixedBytes.ext h)

/-! ## Authenticator data -/

namespace AuthenticatorData

/-- The length of the id as the bytes in front of it say. -/
def idLength (data : Bytes) : Nat := Bytes.toNat ((data.drop credentialIdLengthOffset).take 2)

/-- The reads of a look-up, in their order: the flags, the length of the id, and the coordinates. -/
def coordinateReads (data : Bytes) : List (Nat × Nat) :=
  [(flagsOffset, 1), (credentialIdLengthOffset, 2), (65 + idLength data, 32),
    (100 + idLength data, 32)]

/-- The flags are there, and whether they announce a credential is as said. -/
def Announces (data : Bytes) (announced : Bool) : Prop :=
  ∃ flags, data[flagsOffset]? = some flags ∧ hasFlag flags .attestedCredential = announced

variable {data : Bytes} {rpIdHash : Bytes32} {flags : UInt8} {signCount : UInt32}
  {credential : AttestedCredential}

theorem Announces.unique {x y : Bool} (hx : Announces data x) (hy : Announces data y) : x = y := by
  obtain ⟨flags, hflags, rfl⟩ := hx
  obtain ⟨flags', hflags', rfl⟩ := hy
  rw [hflags] at hflags'
  cases hflags'
  rfl

theorem announces_true_of_lt (hlt : flagsOffset < data.length) (h : ¬ Announces data false) :
    Announces data true := by
  have hflags := List.getElem?_eq_getElem hlt
  cases hflag : hasFlag data[flagsOffset] .attestedCredential with
  | true => exact ⟨_, hflags, hflag⟩
  | false => exact absurd ⟨_, hflags, hflag⟩ h

theorem take_one_flags (h : data[flagsOffset]? = some flags) :
    (data.drop flagsOffset).take 1 = [flags] := by
  obtain ⟨hlt, hget⟩ := List.getElem?_eq_some_iff.mp h
  rw [List.drop_eq_getElem_cons hlt, hget]
  rfl

/-- Flags that announce no credential end the look-up. -/
theorem attestedCoordinates_of_unannounced (h : Announces data false) :
    attestedCoordinates data = .error .missingAttestedCredential := by
  obtain ⟨flags, hflags, hclear⟩ := h
  have hread : (Cursor.start data).peekAt flagsOffset 1 = .ok [flags] := by
    rw [← take_one_flags hflags]
    exact if_pos (List.getElem?_eq_some_iff.mp hflags).1
  unfold attestedCoordinates
  simp only [hread]
  show (if (!hasFlag flags .attestedCredential) = true then _ else _) = _
  rw [hclear]
  rfl

/-- Without such flags there are four reads, and the coordinates are
what the last two of them read. -/
theorem attestedCoordinates_reads (h : ¬ Announces data false) :
    MakesReads data .truncated (coordinateReads data)
      (fun (x, y) => x.toList = (data.drop (65 + idLength data)).take 32
        ∧ y.toList = (data.drop (100 + idLength data)).take 32)
      (attestedCoordinates data) := by
  refine .bind (.peekAt (.start data) flagsOffset 1) fun v hv => ?_
  obtain ⟨hfits, rfl⟩ := hv
  -- the flags are there, so they announce a credential and the look-up goes on
  obtain ⟨flags, hflags, hset⟩ : Announces data true := announces_true_of_lt hfits h
  show MakesReads data _ _ _
    (if (!hasFlag (((data.drop flagsOffset).take 1).headD 0) .attestedCredential) = true then _
      else _)
  rw [take_one_flags hflags, List.headD_cons, hset]
  refine .bind (.peekAt (.start data) credentialIdLengthOffset 2) fun v hv => ?_
  obtain ⟨-, rfl⟩ := hv
  refine .bind (.peekFixedAt (.start data) (65 + idLength data) 32) fun x hx => ?_
  refine .bind (.peekFixedAt (.start data) (100 + idLength data) 32) fun y hy => ?_
  exact .ok ⟨hx, hy⟩

/-- All reads fit if the last one does. -/
theorem first?_coordinateReads_eq_none_iff :
    Truncated.first? data (coordinateReads data) = none ↔ 132 + idLength data ≤ data.length := by
  rw [Truncated.first?_eq_none_iff]
  simp only [coordinateReads, flagsOffset, credentialIdLengthOffset, List.forall_mem_cons]
  constructor
  · rintro ⟨-, -, -, hlast, -⟩
    omega
  · intro h
    exact ⟨by omega, by omega, by omega, by omega, nofun⟩

/-! What is read from the start. -/

/-- A reading from the start finds the credential. -/
def Attests (data : Bytes) (credential : AttestedCredential) : Prop :=
  ∃ a, read data = .ok a ∧ a.attestedCredential = some credential

theorem idLength_header_append (hid : credential.credentialId.length ≤ 65535) :
    idLength (header rpIdHash flags signCount ++ credential.bytes)
      = credential.credentialId.length := by
  unfold idLength AttestedCredential.bytes
  rw [take_idLength (Bytes.length_ofNat _ _), Bytes.toNat_ofNat_of_lt (Nat.lt_succ_of_le hid)]

theorem drop_header_append :
    (header rpIdHash flags signCount ++ credential.bytes).drop (55 + credential.credentialId.length)
      = credential.credentialPublicKey := by
  unfold AttestedCredential.bytes
  have hfront : (header rpIdHash flags signCount ++ (credential.aaguid.toList
      ++ (Bytes.ofNat 2 credential.credentialId.length ++ credential.credentialId))).length
        = 55 + credential.credentialId.length := by
    simp only [List.length_append, length_header, credential.aaguid.length_toList,
      Bytes.length_ofNat]
    omega
  have hdata : header rpIdHash flags signCount ++ (credential.aaguid.toList
      ++ (Bytes.ofNat 2 credential.credentialId.length
        ++ (credential.credentialId ++ credential.credentialPublicKey)))
      = header rpIdHash flags signCount ++ (credential.aaguid.toList
        ++ (Bytes.ofNat 2 credential.credentialId.length ++ credential.credentialId))
        ++ credential.credentialPublicKey := by
    simp only [List.append_assoc]
  rw [hdata, List.drop_left' hfront]

/-- The bytes behind the id are the key of the credential. -/
theorem Attests.key_eq (h : Attests data credential) :
    Announces data true ∧ 55 + idLength data ≤ data.length
      ∧ data.drop (55 + idLength data) = credential.credentialPublicKey := by
  obtain ⟨a, hread, hcredential⟩ := h
  cases laidOut_of_read hread with
  | plain hflag => cases hcredential
  | attested hflag hid =>
      cases hcredential
      rw [idLength_header_append hid]
      refine ⟨⟨_, getElem?_flagsOffset, hflag⟩, ?_, drop_header_append⟩
      rw [List.length_append, length_header, AttestedCredential.length_bytes]
      omega

theorem Attests.keyBytesAt_eq (h : Attests data credential) :
    keyBytesAt data (55 + idLength data) = keyBytesAt credential.credentialPublicKey 0 := by
  rw [← h.key_eq.2.2, keyBytesAt_drop]

theorem exists_attests_iff :
    (∃ credential, Attests data credential ∧ 77 ≤ credential.credentialPublicKey.length)
      ↔ ¬ Announces data false ∧ Truncated.first? data (coordinateReads data) = none := by
  rw [first?_coordinateReads_eq_none_iff]
  constructor
  · rintro ⟨credential, hattests, hlength⟩
    obtain ⟨hset, hle, hkey⟩ := hattests.key_eq
    rw [← hkey, List.length_drop] at hlength
    refine ⟨fun hclear => ?_, by omega⟩
    cases hset.unique hclear
  · rintro ⟨hannounced, hlength⟩
    have hset : Announces data true := by
      refine announces_true_of_lt ?_ hannounced
      rw [flagsOffset]
      omega
    -- where the last read fits, the data are complete, and a reading from the start succeeds
    have hid : 55 + idLength data ≤ data.length := by omega
    have hcomplete : Complete data := ⟨by omega, fun _ _ _ => ⟨by omega, hid⟩⟩
    obtain ⟨a, ha⟩ := hcomplete.exists_laidOut
    have hread := read_of_laidOut ha
    cases ha with
    | plain hflag => cases hset.unique ⟨_, getElem?_flagsOffset, hflag⟩
    | @attested _ _ _ credential _ _ =>
        refine ⟨credential, ⟨_, hread, rfl⟩, ?_⟩
        obtain ⟨-, hle, hkey⟩ := Attests.key_eq ⟨_, hread, rfl⟩
        rw [← hkey, List.length_drop]
        omega

end AuthenticatorData

namespace CredentialKey

open AuthenticatorData

variable {data : Bytes}

theorem ofAuthenticatorData_of_unannounced (h : Announces data false) :
    ofAuthenticatorData data = .error .missingAttestedCredential := by
  unfold ofAuthenticatorData
  rw [attestedCoordinates_of_unannounced h]

theorem ofAuthenticatorData_of_past {t : Truncated} (h : ¬ Announces data false)
    (ht : Truncated.first? data (coordinateReads data) = some t) :
    ofAuthenticatorData data = .error (.truncated t) := by
  unfold ofAuthenticatorData
  rw [(attestedCoordinates_reads h).eq_error ht]

theorem ofAuthenticatorData_of_fits (h : ¬ Announces data false)
    (hfits : Truncated.first? data (coordinateReads data) = none) :
    ∃ k, ofAuthenticatorData data = .ok k
      ∧ k.bytes.toList = keyBytesAt data (55 + idLength data) := by
  obtain ⟨⟨x, y⟩, hread, hx, hy⟩ := (attestedCoordinates_reads h).exists_eq_ok hfits
  refine ⟨.ofCoordinates x y, ?_, bytes_ofCoordinates ?_ ?_⟩
  · unfold ofAuthenticatorData
    rw [hread]
  · rw [hx]
    congr 2
    omega
  · rw [hy]
    congr 2
    omega

theorem ofAuthenticatorData_of_attests {credential : AttestedCredential}
    (h : Attests data credential) (hlength : 77 ≤ credential.credentialPublicKey.length) :
    ∃ k, ofAuthenticatorData data = .ok k
      ∧ k.bytes.toList = keyBytesAt credential.credentialPublicKey 0 := by
  obtain ⟨hannounced, hfits⟩ := exists_attests_iff.mp ⟨credential, h, hlength⟩
  rw [← h.keyBytesAt_eq]
  exact ofAuthenticatorData_of_fits hannounced hfits

/-- The two ways to read authenticator data agree. A key is looked up exactly if a reading from the
start finds a credential whose key has the 77 bytes of an encoded one, and then it is that key.
There is said to be no credential exactly if the flags are there and announce none. In all other
cases the look-up reports the first of its reads that passes the end. -/
theorem ofAuthenticatorData_agrees (data : Bytes) :
    ((∃ k, ofAuthenticatorData data = .ok k) ↔
      ∃ credential, Attests data credential ∧ 77 ≤ credential.credentialPublicKey.length)
    ∧ (∀ k credential, ofAuthenticatorData data = .ok k → Attests data credential →
      k.bytes.toList = keyBytesAt credential.credentialPublicKey 0)
    ∧ (ofAuthenticatorData data = .error .missingAttestedCredential ↔ Announces data false)
    ∧ ((¬ ∃ credential, Attests data credential
        ∧ 77 ≤ credential.credentialPublicKey.length) → ¬ Announces data false →
      ∃ t, ofAuthenticatorData data = .error (.truncated t)
        ∧ Truncated.first? data (coordinateReads data) = some t) := by
  rw [exists_attests_iff]
  by_cases hclear : Announces data false
  · rw [ofAuthenticatorData_of_unannounced hclear]
    simp [hclear]
  cases ht : Truncated.first? data (coordinateReads data) with
  | some t =>
      rw [ofAuthenticatorData_of_past hclear ht]
      simp [hclear]
  | none =>
      obtain ⟨k, hk, hbytes⟩ := ofAuthenticatorData_of_fits hclear ht
      rw [hk]
      refine ⟨by simp [hclear], ?_, by simp [hclear], by simp [hclear]⟩
      rintro _ credential ⟨⟩ hattests
      rw [hbytes, hattests.keyBytesAt_eq]

/-- The data of the sample hold its key; other data announce no credential, or have a key of two
bytes. -/
theorem ofAuthenticatorData_agrees_sample :
    (∃ credential, Attests Sample.attestedData credential
      ∧ 77 ≤ credential.credentialPublicKey.length
      ∧ Sample.publicKey.bytes.toList = keyBytesAt credential.credentialPublicKey 0)
    ∧ ofAuthenticatorData samplePlain = .error .missingAttestedCredential
    ∧ ∃ t, ofAuthenticatorData sampleAttested = .error (.truncated t) := by
  have hsample : ofAuthenticatorData Sample.attestedData = .ok Sample.publicKey :=
    toOption_eq_some_iff.mp (by decide +kernel)
  obtain ⟨hfound, hkey, -⟩ := ofAuthenticatorData_agrees Sample.attestedData
  obtain ⟨credential, hattests, hlength⟩ := hfound.mp ⟨_, hsample⟩
  obtain ⟨-, -, hmissing, -⟩ := ofAuthenticatorData_agrees samplePlain
  obtain ⟨hfound', -, -, hpast⟩ := ofAuthenticatorData_agrees sampleAttested
  have hset : Announces sampleAttested true := ⟨0x41, rfl, rfl⟩
  have hnone : (ofAuthenticatorData sampleAttested).toOption = none := by decide +kernel
  have hno : ¬ ∃ credential, Attests sampleAttested credential
      ∧ 77 ≤ credential.credentialPublicKey.length := by
    intro h
    obtain ⟨k, hk⟩ := hfound'.mpr h
    rw [hk] at hnone
    cases hnone
  obtain ⟨t, ht, -⟩ := hpast hno fun hclear => Bool.noConfusion (hset.unique hclear)
  exact ⟨⟨credential, hattests, hlength, hkey _ _ hsample hattests⟩,
    hmissing.mpr ⟨1, rfl, rfl⟩, t, ht⟩

end CredentialKey

/-! ## Attestation objects -/

/-- A pattern stands at a position, and nowhere before it. -/
structure FirstAt (pattern b : Bytes) (i : Nat) : Prop where
  prefix_drop : pattern <+: b.drop i
  not_before : ∀ j < i, ¬ pattern <+: b.drop j

section Search

variable {pattern b : Bytes} {i : Nat}

theorem prefix_of_indexOf? (h : indexOf? pattern b = some i) : pattern <+: b.drop i := by
  induction b generalizing i with
  | nil =>
      unfold indexOf? at h
      split at h
      · rename_i hnil
        rw [hnil]
        exact List.nil_prefix
      · cases h
  | cons x rest ih =>
      unfold indexOf? at h
      split at h
      · rename_i hprefix
        cases h
        exact List.isPrefixOf_iff_prefix.mp hprefix
      · obtain ⟨j, hj, rfl⟩ := Option.map_eq_some_iff.mp h
        exact ih hj

/-- Where the pattern stands, or before that, it is found. -/
theorem exists_indexOf?_of_prefix_drop (h : pattern <+: b.drop i) :
    ∃ j ≤ i, indexOf? pattern b = some j := by
  induction b generalizing i with
  | nil =>
      rw [List.drop_nil, List.prefix_nil] at h
      exact ⟨0, Nat.zero_le i, by rw [indexOf?, if_pos h]⟩
  | cons x rest ih =>
      unfold indexOf?
      by_cases hprefix : pattern.isPrefixOf (x :: rest) = true
      · exact ⟨0, Nat.zero_le i, by rw [if_pos hprefix]⟩
      · rw [if_neg hprefix]
        cases i with
        | zero => exact absurd (List.isPrefixOf_iff_prefix.mpr h) hprefix
        | succ i =>
            obtain ⟨j, hj, hfound⟩ := ih h
            exact ⟨j + 1, Nat.succ_le_succ hj, by rw [hfound]; rfl⟩

/-- The search finds the first position. -/
theorem indexOf?_eq_some_iff : indexOf? pattern b = some i ↔ FirstAt pattern b i := by
  constructor
  · intro h
    refine ⟨prefix_of_indexOf? h, fun j hj hprefix => ?_⟩
    obtain ⟨k, hk, hfound⟩ := exists_indexOf?_of_prefix_drop hprefix
    rw [h] at hfound
    cases hfound
    omega
  · intro h
    obtain ⟨k, hk, hfound⟩ := exists_indexOf?_of_prefix_drop h.prefix_drop
    have hle : i ≤ k := Nat.le_of_not_lt fun hlt => h.not_before k hlt (prefix_of_indexOf? hfound)
    rw [hfound, Nat.le_antisymm hk hle]

theorem indexOf?_eq_none_iff : indexOf? pattern b = none ↔ ¬ pattern <:+: b := by
  constructor
  · rintro h ⟨before, rest, rfl⟩
    have hprefix : pattern <+: (before ++ pattern ++ rest).drop before.length := by
      rw [List.append_assoc, List.drop_left]
      exact List.prefix_append _ _
    obtain ⟨k, -, hfound⟩ := exists_indexOf?_of_prefix_drop hprefix
    rw [h] at hfound
    cases hfound
  · intro h
    cases hfound : indexOf? pattern b with
    | none => rfl
    | some k =>
        exact absurd ((prefix_of_indexOf? hfound).isInfix.trans (List.drop_suffix k b).isInfix) h

end Search

namespace CredentialKey

/-- The reads of the key whose header stands at a position: the first coordinate, what separates it
from the second, and the second. -/
def keyReads (i : Nat) : List (Nat × Nat) := [(i + 10, 32), (i + 42, 3), (i + 45, 32)]

variable {object : Bytes} {i : Nat}

theorem first?_keyReads_eq_none_iff :
    Truncated.first? object (keyReads i) = none ↔ i + 77 ≤ object.length := by
  rw [Truncated.first?_eq_none_iff]
  simp only [keyReads, List.forall_mem_cons]
  constructor
  · rintro ⟨-, -, hlast, -⟩
    omega
  · intro h
    exact ⟨by omega, by omega, by omega, nofun⟩

theorem ofAttestationObject_reads (h : FirstAt coseHeader object i) :
    MakesReads object .truncated (keyReads i) (fun k => k.bytes.toList = keyBytesAt object i)
      (ofAttestationObject object) := by
  have hle : i + 10 ≤ object.length := by
    have hlength := h.prefix_drop.length_le
    rw [List.length_drop] at hlength
    have hheader : coseHeader.length = 10 := rfl
    omega
  -- the header is there, so moving behind it does not fail
  have hseek : (Cursor.start object).seek (i + coseHeader.length) = .ok ⟨object, i + 10, hle⟩ :=
    dif_pos hle
  unfold ofAttestationObject
  simp only [indexOf?_eq_some_iff.mpr h, hseek]
  refine .bind (.readFixed ⟨object, i + 10, hle⟩ 32) fun p hp => ?_
  obtain ⟨x, ⟨_, _, hle⟩⟩ := p
  obtain ⟨hx, ⟨⟩, ⟨⟩⟩ := hp
  refine .bind (.skip ⟨object, i + 42, hle⟩ 3) fun c hc => ?_
  obtain ⟨_, _, hle⟩ := c
  obtain ⟨⟨⟩, ⟨⟩⟩ := hc
  refine .bind (.readFixed ⟨object, i + 45, hle⟩ 32) fun p hp => ?_
  obtain ⟨y, c⟩ := p
  exact .ok (bytes_ofCoordinates hx hp.1)

/-- In an attestation object the key is the one behind the first header, if there is a header and
the bytes suffice. Without a header there is no key; and if the bytes behind the first one are too
few, the first of the three reads that passes the end is reported. -/
theorem ofAttestationObject_first (object : Bytes) :
    (¬ coseHeader <:+: object →
      ofAttestationObject object = .error (.decode "COSE P-256 key not found"))
    ∧ (coseHeader <:+: object → ∃ i, FirstAt coseHeader object i
      ∧ (i + 77 ≤ object.length → ∃ k, ofAttestationObject object = .ok k
        ∧ k.bytes.toList = keyBytesAt object i)
      ∧ (object.length < i + 77 → ∃ t, ofAttestationObject object = .error (.truncated t)
        ∧ Truncated.first? object [(i + 10, 32), (i + 42, 3), (i + 45, 32)] = some t)) := by
  constructor
  · intro h
    unfold ofAttestationObject
    rw [indexOf?_eq_none_iff.mpr h]
    rfl
  · intro h
    obtain ⟨i, hi⟩ := Option.ne_none_iff_exists'.mp (mt indexOf?_eq_none_iff.mp (not_not_intro h))
    have hfirst := indexOf?_eq_some_iff.mp hi
    have hreads := ofAttestationObject_reads hfirst
    refine ⟨i, hfirst, fun hle => ?_, fun hlt => ?_⟩
    · exact hreads.exists_eq_ok (first?_keyReads_eq_none_iff.mpr hle)
    · have hpast := mt first?_keyReads_eq_none_iff.mp (Nat.not_le_of_lt hlt)
      obtain ⟨t, ht⟩ := Option.ne_none_iff_exists'.mp hpast
      exact ⟨t, hreads.eq_error ht, ht⟩

/-- A byte in front of an encoded key that could start its header. -/
def sampleObject : Bytes :=
  0xa5 :: (coseHeader ++ (Sample.x.toList ++ (coseSeparator ++ Sample.y.toList)))

theorem ofAttestationObject_first_sample :
    ofAttestationObject [0xa5] = .error (.decode "COSE P-256 key not found")
      ∧ ofAttestationObject (sampleObject.take 77) = .error (.truncated ⟨46, 32, 31⟩)
      ∧ ∃ k, ofAttestationObject sampleObject = .ok k
        ∧ k.bytes.toList = keyBytesAt sampleObject 1 := by
  have hfirst : indexOf? coseHeader sampleObject = some 1 := by decide +kernel
  have hfirst' : indexOf? coseHeader (sampleObject.take 77) = some 1 := by decide +kernel
  obtain ⟨hnone, -⟩ := ofAttestationObject_first [0xa5]
  obtain ⟨-, hwhole⟩ := ofAttestationObject_first sampleObject
  obtain ⟨-, hcut⟩ := ofAttestationObject_first (sampleObject.take 77)
  obtain ⟨i, hi, hok, -⟩ := hwhole (by decide +kernel)
  obtain ⟨j, hj, -, hpast⟩ := hcut (by decide +kernel)
  obtain rfl := Option.some.inj ((indexOf?_eq_some_iff.mpr hi).symm.trans hfirst)
  obtain rfl := Option.some.inj ((indexOf?_eq_some_iff.mpr hj).symm.trans hfirst')
  refine ⟨hnone (by decide), ?_, hok (by decide +kernel)⟩
  obtain ⟨t, ht, hreport⟩ := hpast (by decide +kernel)
  have ht' : Truncated.first? (sampleObject.take 77) [(11, 32), (43, 3), (46, 32)]
      = some ⟨46, 32, 31⟩ := by decide +kernel
  rw [ht, Option.some.inj (hreport.symm.trans ht')]

end CredentialKey

end SmartWallet.WebAuthn
