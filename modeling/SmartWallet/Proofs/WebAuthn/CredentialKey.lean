import SmartWallet.Proofs.Text.Base64
import SmartWallet.Proofs.WebAuthn.Coordinates
import SmartWallet.WebAuthn.Authenticator

set_option autoImplicit false

/-! # The key of a software authenticator, read from what it shows

The DER form and the authenticator data always give back the key of the authenticator: in the one it
stands at the end, in the other behind the id of the credential, whose length is known. In the
attestation object it is searched for, and the search goes through the id as well. It finds the key
of the authenticator unless the id, with its length in front, contains the header of an encoded key
(`exists_ofAttestationObject`); if it does, what follows that header is taken for the key.

That nothing else can be mistaken for the header has two reasons. Its first byte is not among the
bytes in front of the id, except perhaps in the length of the data, and those are so few that a
header there would reach a byte that it does not have. And its first byte does not recur in it, so
it cannot begin in the id and end in the header of the key. -/

namespace SmartWallet.WebAuthn

/-! ## The position of a pattern behind other bytes -/

section Search

variable {pattern rest : Bytes}

/-- Bytes at which the pattern does not start only shift its position. -/
theorem indexOf?_append {before : Bytes}
    (h : ∀ i < before.length, ¬ pattern <+: (before ++ rest).drop i) :
    indexOf? pattern (before ++ rest) = (indexOf? pattern rest).map (· + before.length) := by
  induction before with
  | nil => simp
  | cons x before ih =>
      have hfirst : ¬ pattern.isPrefixOf (x :: (before ++ rest)) = true := fun hprefix =>
        h 0 (Nat.zero_lt_succ _) (List.isPrefixOf_iff_prefix.mp hprefix)
      have hlater := ih fun i hi => h (i + 1) (Nat.succ_lt_succ hi)
      rw [List.cons_append, indexOf?, if_neg hfirst, hlater, Option.map_map]
      rfl

/-- Bytes without the first byte of the pattern are no start of it. -/
theorem indexOf?_append_of_not_mem {x : UInt8} {before : Bytes} (hx : pattern.head? = some x)
    (h : x ∉ before) :
    indexOf? pattern (before ++ rest) = (indexOf? pattern rest).map (· + before.length) := by
  refine indexOf?_append fun i hi hprefix => h ?_
  obtain ⟨tail, rfl⟩ := List.head?_eq_some_iff.mp hx
  rw [List.drop_append_of_le_length (Nat.le_of_lt hi), List.drop_eq_getElem_cons hi] at hprefix
  have hsame := (List.cons_prefix_cons.mp hprefix).1
  rw [hsame]
  exact List.getElem_mem hi

/-- Where a pattern reaches beyond the front of a byte string, it has the byte behind the front. -/
theorem getElem?_of_prefix_append {x : UInt8} {front : Bytes} (h : pattern <+: front ++ x :: rest)
    (hreach : front.length < pattern.length) : pattern[front.length]? = some x := by
  have hbyte := h.getElem hreach
  rw [List.getElem_append_right (Nat.le_refl _)] at hbyte
  simp only [Nat.sub_self, List.getElem_cons_zero] at hbyte
  rw [List.getElem?_eq_getElem hreach, hbyte]

/-- A few bytes in front of one that the pattern does not have are no start of it. -/
theorem indexOf?_append_of_barrier {x : UInt8} {before : Bytes} (hx : x ∉ pattern)
    (h : before.length < pattern.length) :
    indexOf? pattern (before ++ x :: rest)
      = (indexOf? pattern (x :: rest)).map (· + before.length) := by
  refine indexOf?_append fun i hi hprefix => hx ?_
  rw [List.drop_append_of_le_length (Nat.le_of_lt hi)] at hprefix
  have hreach : (before.drop i).length < pattern.length := by
    rw [List.length_drop]
    omega
  exact List.mem_of_getElem? (getElem?_of_prefix_append hprefix hreach)

/-- A pattern whose first byte does not recur in it is not found across the start of another
occurrence. -/
theorem indexOf?_of_not_infix {x : UInt8} {tail before : Bytes} (hx : x ∉ tail)
    (h : ¬ (x :: tail) <:+: before) :
    indexOf? (x :: tail) (before ++ (x :: (tail ++ rest))) = some before.length := by
  have hhere : indexOf? (x :: tail) (x :: (tail ++ rest)) = some 0 := by
    have hprefix : (x :: tail).isPrefixOf (x :: (tail ++ rest)) = true :=
      List.isPrefixOf_iff_prefix.mpr (List.prefix_append (x :: tail) rest)
    rw [indexOf?, if_pos hprefix]
  rw [indexOf?_append, hhere, Option.map_some, Nat.zero_add]
  intro i hi hprefix
  rw [List.drop_append_of_le_length (Nat.le_of_lt hi)] at hprefix
  by_cases hreach : (before.drop i).length < (x :: tail).length
  -- the occurrence would end in the other one, whose first byte it then has as a later byte
  · have hbyte := getElem?_of_prefix_append hprefix hreach
    obtain ⟨k, hk⟩ : ∃ k, (before.drop i).length = k + 1 :=
      Nat.exists_eq_add_one.mpr (by rw [List.length_drop]; omega)
    rw [hk, List.getElem?_cons_succ] at hbyte
    exact hx (List.mem_of_getElem? hbyte)
  · have hinside : (x :: tail) <+: before.drop i :=
      List.prefix_of_prefix_length_le hprefix (List.prefix_append _ _) (by omega)
    exact h (hinside.isInfix.trans (List.drop_suffix i before).isInfix)

end Search

/-! ## Keys by position -/

namespace CredentialKey

/-- The key whose coordinates stand where they would if the first header in a byte string
were that of an encoded key. -/
def FirstIn (b : Bytes) (k : Ecdsa.PublicKey) : Prop :=
  ∃ i x y before rest, indexOf? coseHeader b = some i ∧ before.length = coseSeparator.length
    ∧ b.drop i = coseHeader ++ (x.toList ++ (before ++ (y.toList ++ rest)))
    ∧ k = .ofCoordinates x y

theorem ofAttestationObject_of_firstIn {b : Bytes} {k : Ecdsa.PublicKey} (h : FirstIn b k) :
    ofAttestationObject b = .ok k := by
  obtain ⟨i, x, y, separator, rest, hi, hseparator, hdrop, rfl⟩ := h
  obtain ⟨hkey, hlength⟩ := bytes_of_encoded hseparator hdrop
  have hle : i + 77 ≤ b.length := by
    rw [List.length_drop] at hlength
    omega
  rw [keyBytesAt_drop] at hkey
  obtain ⟨k, hk, hbytes⟩ := (ofAttestationObject_reads (indexOf?_eq_some_iff.mp hi)).exists_eq_ok
    (first?_keyReads_eq_none_iff.mpr hle)
  rw [hk, eq_of_bytes_toList (hbytes.trans hkey.symm)]

theorem FirstIn.unique {b : Bytes} {k l : Ecdsa.PublicKey} (hk : FirstIn b k) (hl : FirstIn b l) :
    k = l :=
  Except.ok.inj ((ofAttestationObject_of_firstIn hk).symm.trans (ofAttestationObject_of_firstIn hl))

/-- Bytes at which no header starts do not change the key. -/
theorem FirstIn.append {before b : Bytes} {k : Ecdsa.PublicKey}
    (hindex : indexOf? coseHeader (before ++ b)
      = (indexOf? coseHeader b).map (· + before.length))
    (h : FirstIn b k) : FirstIn (before ++ b) k := by
  obtain ⟨i, x, y, separator, rest, hi, hseparator, hdrop, rfl⟩ := h
  refine ⟨i + before.length, x, y, separator, rest, ?_, hseparator, ?_, rfl⟩
  · rw [hindex, hi]
    rfl
  · rw [Nat.add_comm, ← List.drop_drop, List.drop_left, hdrop]

/-- In front of a key there is always a first key, that one or another. -/
theorem exists_firstIn (before : Bytes) (x y : Bytes32) :
    ∃ k, FirstIn (before ++ (coseHeader ++ (x.toList ++ (coseSeparator ++ y.toList)))) k := by
  have hkey : coseHeader <+: (before ++ (coseHeader ++ (x.toList ++ (coseSeparator
      ++ y.toList)))).drop before.length := by
    rw [List.drop_left]
    exact List.prefix_append _ _
  obtain ⟨i, hle, hi⟩ := exists_indexOf?_of_prefix_drop hkey
  obtain ⟨body, hbody⟩ := prefix_of_indexOf? hi
  -- the coordinates behind the header found are there, since those of the key are
  have hlength := congrArg List.length hbody
  simp only [List.length_append, List.length_drop, x.length_toList, y.length_toList] at hlength
  have hseparator : coseSeparator.length = 3 := rfl
  obtain ⟨x', rest, rfl⟩ := Bytes.exists_eq_fixed_append (n := 32) (b := body) (by omega)
  rw [List.length_append, x'.length_toList] at hlength
  obtain ⟨separator, rest, rfl⟩ := Bytes.exists_eq_fixed_append (n := 3) (b := rest) (by omega)
  rw [List.length_append, separator.length_toList] at hlength
  obtain ⟨y', rest, rfl⟩ := Bytes.exists_eq_fixed_append (n := 32) (b := rest) (by omega)
  exact ⟨_, i, x', y', separator.toList, rest, hi, separator.length_toList, hbody.symm, rfl⟩

end CredentialKey

/-! ## What a software authenticator shows -/

theorem SigningKey.exists_coordinates (k : Ecdsa.SigningKey) :
    ∃ x y, k.publicKey = .ofCoordinates x y := by
  unfold Ecdsa.SigningKey.publicKey
  split
  · exact ⟨_, _, rfl⟩
  · exact ⟨_, _, rfl⟩

/-- The object is the data with something in front: a fixed start and the length of the data. -/
theorem exists_attestationObject_eq (data : Bytes) :
    ∃ length : Bytes, length.length < coseHeader.length
      ∧ attestationObject data = attestationHeader ++ (length ++ data) := by
  refine ⟨if data.length < 256 then [0x58, UInt8.ofNat data.length]
    else 0x59 :: Bytes.ofNat 2 data.length, ?_, List.append_assoc _ _ _⟩
  split
  · simp [coseHeader]
  · simp [coseHeader]

namespace SoftwareAuthenticator

variable {a : SoftwareAuthenticator} {x y : Bytes32}

/-- The id of the credential with its length in front. -/
def idField (a : SoftwareAuthenticator) : Bytes :=
  Bytes.ofNat 2 a.credentialId.length ++ a.credentialId

/-- What stands in front of the id in the data of a registration. -/
def attestedHeader : Bytes :=
  dataHeader (userFlags ||| Flag.attestedCredential.mask) ++ List.replicate aaguidLength 0

theorem attestedData_eq (a : SoftwareAuthenticator) :
    a.attestedData = attestedHeader ++ (a.idField ++ a.coseKey) := by
  unfold attestedData attestedHeader idField
  simp only [List.append_assoc]

theorem coseKey_eq (h : a.publicKey = .ofCoordinates x y) :
    a.coseKey = coseHeader ++ (x.toList ++ (coseSeparator ++ y.toList)) := by
  have hbytes : a.publicKey.bytes.toList.drop 1 = x.toList ++ y.toList := by
    rw [h]
    rfl
  unfold coseKey
  simp only [hbytes, List.take_left' x.length_toList, List.drop_left' x.length_toList,
    List.append_assoc]

/-- The DER form ends with the key. -/
theorem ofSpkiTail?_spki (a : SoftwareAuthenticator) :
    CredentialKey.ofSpkiTail? a.spki = some a.publicKey := by
  obtain ⟨x, y, h⟩ := SigningKey.exists_coordinates a.key
  have hlength : a.spki.length = spkiHeader.length + 65 := by
    rw [spki, List.length_append, a.publicKey.bytes.length_toList]
  have htail : a.spki.drop (a.spki.length - 65) = a.publicKey.bytes.toList := by
    rw [hlength, Nat.add_sub_cancel, spki, List.drop_left]
  have htag : a.publicKey.bytes.toList.head? = some Ecdsa.uncompressedTag := by
    show a.key.publicKey.bytes.toList.head? = _
    rw [h]
    rfl
  unfold CredentialKey.ofSpkiTail? Ecdsa.PublicKey.ofSec1?
  rw [if_pos (by omega), htail, FixedBytes.ofList?_toList]
  simp only [htag, if_true]

/-- The credential as it is attested. -/
def credential (a : SoftwareAuthenticator) : AttestedCredential :=
  ⟨.replicate 16 0, a.credentialId, a.coseKey⟩

/-- A reading from the start finds the credential, since the length of its id fits in two bytes. -/
theorem attests_credential (h : a.credentialId.length < 65536) :
    AuthenticatorData.Attests a.attestedData a.credential := by
  have hdata : a.attestedData = AuthenticatorData.header (Digest.sha256 (Bytes.ofString rpId))
      (userFlags ||| Flag.attestedCredential.mask) 1 ++ a.credential.bytes := by
    rw [attestedData_eq, attestedHeader, dataHeader, AuthenticatorData.header]
    simp only [List.append_assoc]
    rfl
  rw [hdata]
  exact ⟨_, AuthenticatorData.read_of_laidOut (.attested (by decide) (Nat.le_of_lt_succ h)), rfl⟩

theorem ofAuthenticatorData_attestedData (h : a.credentialId.length < 65536) :
    CredentialKey.ofAuthenticatorData a.attestedData = .ok a.publicKey := by
  obtain ⟨x, y, hkey⟩ := SigningKey.exists_coordinates a.key
  have hkey : a.publicKey = .ofCoordinates x y := hkey
  have hcose : a.coseKey = coseHeader ++ (x.toList ++ (coseSeparator ++ (y.toList ++ []))) := by
    rw [coseKey_eq hkey, List.append_nil]
  obtain ⟨hbytes, hlength⟩ := bytes_of_encoded rfl hcose
  obtain ⟨k, hk, hk'⟩ :=
    CredentialKey.ofAuthenticatorData_of_attests (a.attests_credential h) hlength
  rw [hk, hkey, eq_of_bytes_toList (hk'.trans hbytes.symm)]

/-! ## The attestation object -/

open CredentialKey

/-- No header starts in front of the id. -/
theorem firstIn_attestationObject {rest : Bytes} {k : Ecdsa.PublicKey} (h : FirstIn rest k) :
    FirstIn (attestationObject (attestedHeader ++ rest)) k := by
  have hfirst : coseHeader.head? = some 0xa5 := rfl
  obtain ⟨length, hlength, hobject⟩ := exists_attestationObject_eq (attestedHeader ++ rest)
  -- from the back: the data in front of the id, their length, the fixed start
  have hdata : FirstIn (attestedHeader ++ rest) k :=
    h.append (indexOf?_append_of_not_mem hfirst (by decide +kernel))
  obtain ⟨tail, htail⟩ : ∃ tail, attestedHeader = 0x49 :: tail :=
    List.head?_eq_some_iff.mp (by decide +kernel)
  have hsized : FirstIn (length ++ (attestedHeader ++ rest)) k := by
    refine hdata.append ?_
    rw [htail]
    exact indexOf?_append_of_barrier (by decide) hlength
  rw [hobject]
  exact hsized.append (indexOf?_append_of_not_mem hfirst (by decide))

/-- Without a header in the id, or across its start, the first key is that of the authenticator. -/
theorem firstIn_publicKey (h : ¬ coseHeader <:+: a.idField) :
    FirstIn (a.idField ++ a.coseKey) a.publicKey := by
  obtain ⟨x, y, hkey⟩ := SigningKey.exists_coordinates a.key
  have hkey : a.publicKey = .ofCoordinates x y := hkey
  rw [coseKey_eq hkey, hkey]
  refine ⟨a.idField.length, x, y, coseSeparator, [], ?_, rfl, ?_, rfl⟩
  · exact indexOf?_of_not_infix (by decide) h
  · rw [List.drop_left, List.append_nil]

theorem exists_ofAttestationObject (a : SoftwareAuthenticator) :
    ∃ k, ofAttestationObject (attestationObject a.attestedData) = .ok k
      ∧ FirstIn (a.idField ++ a.coseKey) k
      ∧ (¬ coseHeader <:+: a.idField → k = a.publicKey) := by
  obtain ⟨x, y, hkey⟩ := SigningKey.exists_coordinates a.key
  obtain ⟨k, hk⟩ := exists_firstIn a.idField x y
  rw [← coseKey_eq hkey] at hk
  refine ⟨k, ?_, hk, fun hid => hk.unique (firstIn_publicKey hid)⟩
  rw [attestedData_eq]
  exact ofAttestationObject_of_firstIn (firstIn_attestationObject hk)

/-! ## Registrations -/

theorem decodeField_encode (b : Bytes) : decodeField (Base64Url.encode b) = .ok b := by
  unfold decodeField
  rw [Base64Url.decode?_encode]

/-- A registration whose authenticator shows its key in several places gives the key of the
authenticator; one that has the object only gives what is found in there. -/
theorem extract_register {o : RegistrationOptions} {response : RegistrationResponse}
    (h : a.register o = .ok response) (hid : a.credentialId.length < 65536) :
    response.rawId = a.credentialId ∧ extract response =
      if a.format = .attestationObject then ofAttestationObject (attestationObject a.attestedData)
      else .ok a.publicKey := by
  unfold register at h
  split at h
  · cases h
  split at h
  case isFalse => cases h
  case isTrue =>
    cases h
    refine ⟨rfl, ?_⟩
    unfold extract attestation
    cases a.format with
    | full =>
        simp only [if_true, Option.bind_some, Base64Url.decode?_encode, ofSpkiTail?_spki]
        rfl
    | authenticatorData =>
        show decodeField (Base64Url.encode a.attestedData) >>= ofAuthenticatorData = _
        rw [decodeField_encode]
        exact ofAuthenticatorData_attestedData hid
    | attestationObject =>
        show decodeField (Base64Url.encode _) >>= ofAttestationObject = _
        rw [decodeField_encode]
        rfl

end SoftwareAuthenticator

end SmartWallet.WebAuthn
