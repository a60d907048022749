import SmartWallet.Proofs.Bytes.Cursor
import SmartWallet.WebAuthn.AuthenticatorData

set_option autoImplicit false

/-! # The layout of authenticator data

`AuthenticatorData.header` and `AttestedCredential.bytes` write authenticator data as they are laid
out, field after field. `AuthenticatorData.read_eq_ok_iff` says that reading goes the other way and
nothing else is read: a byte string is read as the data that it lays out. With a credential these
are all of its bytes, since the key takes whatever follows the id; without one anything may follow
the header, and it is passed over.

What can be read is said without reading it by `Complete`: the header is there, and if
its flags announce a credential, so are the model number, the length of the id, and as
many bytes as that length says. -/

namespace SmartWallet.WebAuthn

/-! ## Writing -/

/-- A credential as it is laid out. -/
def AttestedCredential.bytes (a : AttestedCredential) : Bytes :=
  a.aaguid.toList ++ (Bytes.ofNat 2 a.credentialId.length
    ++ (a.credentialId ++ a.credentialPublicKey))

/-- The part in front of the credential. -/
def AuthenticatorData.header (rpIdHash : Bytes32) (flags : UInt8) (signCount : UInt32) : Bytes :=
  rpIdHash.toList ++ ([flags] ++ Bytes.ofNat 4 signCount.toNat)

theorem AttestedCredential.length_bytes (a : AttestedCredential) :
    a.bytes.length = 18 + a.credentialId.length + a.credentialPublicKey.length := by
  simp only [bytes, List.length_append, a.aaguid.length_toList, Bytes.length_ofNat]
  omega

theorem AuthenticatorData.length_header (rpIdHash : Bytes32) (flags : UInt8) (signCount : UInt32) :
    (header rpIdHash flags signCount).length = 37 := by
  simp [header, rpIdHash.length_toList]

/-! ## Credentials -/

namespace AttestedCredential

variable {a : AttestedCredential} {c : Cursor}

theorem read_of_remaining (hid : a.credentialId.length ≤ 65535) (h : c.remaining = a.bytes) :
    read c = .ok a := by
  have hlength : (UInt16.ofNat a.credentialId.length).toNat = a.credentialId.length :=
    UInt16.toNat_ofNat_of_lt' (Nat.lt_succ_of_le hid)
  obtain ⟨d, haaguid, hd⟩ := Cursor.readFixed_of_remaining h
  rw [← hlength] at hd
  obtain ⟨e, hlen, he⟩ := Cursor.readU16_of_remaining hd
  obtain ⟨f, hread, hf⟩ := Cursor.read_of_remaining he
  rw [← hlength] at hread
  refine except_bind_eq_ok_iff.mpr ⟨_, haaguid, ?_⟩
  refine except_bind_eq_ok_iff.mpr ⟨_, hlen, ?_⟩
  refine except_bind_eq_ok_iff.mpr ⟨_, hread, ?_⟩
  show Except.ok (⟨a.aaguid, a.credentialId, f.remaining⟩ : AttestedCredential) = .ok a
  rw [hf]

theorem remaining_of_read (h : read c = .ok a) :
    a.credentialId.length ≤ 65535 ∧ c.remaining = a.bytes := by
  obtain ⟨⟨aaguid, d⟩, haaguid, h⟩ := except_bind_eq_ok_iff.mp h
  obtain ⟨⟨len, e⟩, hlen, h⟩ := except_bind_eq_ok_iff.mp h
  obtain ⟨⟨id, f⟩, hread, h⟩ := except_bind_eq_ok_iff.mp h
  cases h
  obtain ⟨hid, he, -⟩ := Cursor.remaining_of_read hread
  refine ⟨?_, ?_⟩
  · show id.length ≤ 65535
    rw [hid]
    exact Nat.le_of_lt_succ len.toNat_lt
  · show c.remaining = aaguid.toList ++ (Bytes.ofNat 2 id.length ++ (id ++ f.remaining))
    rw [Cursor.remaining_of_readFixed haaguid, Cursor.remaining_of_readU16 hlen, hid, he]

/-- A credential is read from the bytes that lay it out, to the end. -/
theorem read_eq_ok_iff :
    read c = .ok a ↔ a.credentialId.length ≤ 65535 ∧ c.remaining = a.bytes :=
  ⟨remaining_of_read, fun ⟨hid, h⟩ => read_of_remaining hid h⟩

end AttestedCredential

/-! ## Data -/

namespace AuthenticatorData

variable {data rest : Bytes} {a : AuthenticatorData} {rpIdHash : Bytes32} {flags : UInt8}
  {signCount : UInt32}

/-- The bytes that lay data out. -/
inductive LaidOut : Bytes → AuthenticatorData → Prop
  /-- The flags announce a credential, and it takes the rest. -/
  | attested {rpIdHash : Bytes32} {flags : UInt8} {signCount : UInt32}
      {credential : AttestedCredential} :
      hasFlag flags .attestedCredential = true → credential.credentialId.length ≤ 65535 →
      LaidOut (header rpIdHash flags signCount ++ credential.bytes)
        ⟨rpIdHash, flags, signCount, some credential⟩
  /-- The flags announce no credential, and anything may follow. -/
  | plain {rpIdHash : Bytes32} {flags : UInt8} {signCount : UInt32} {rest : Bytes} :
      hasFlag flags .attestedCredential = false →
      LaidOut (header rpIdHash flags signCount ++ rest) ⟨rpIdHash, flags, signCount, none⟩

/-- Behind the header it depends on the flags whether a credential is read. -/
theorem exists_read_header (rpIdHash : Bytes32) (flags : UInt8) (signCount : UInt32)
    (rest : Bytes) :
    ∃ c : Cursor, c.remaining = rest ∧ read (header rpIdHash flags signCount ++ rest)
      = if hasFlag flags .attestedCredential then
          AttestedCredential.read c >>= fun x => .ok ⟨rpIdHash, flags, signCount, some x⟩
        else .ok ⟨rpIdHash, flags, signCount, none⟩ := by
  have hstart : (Cursor.start (header rpIdHash flags signCount ++ rest)).remaining
      = rpIdHash.toList ++ (flags :: (Bytes.ofNat 4 signCount.toNat ++ rest)) := by
    rw [Cursor.remaining_start, header, List.append_assoc]
    rfl
  obtain ⟨c, hhash, hc⟩ := Cursor.readFixed_of_remaining hstart
  obtain ⟨d, hflags, hd⟩ := Cursor.readU8_of_remaining hc
  obtain ⟨e, hcount, he⟩ := Cursor.readU32_of_remaining hd
  refine ⟨e, he, ?_⟩
  unfold read
  rw [hhash]
  show (c.readU8 >>= _) = _
  rw [hflags]
  show (d.readU32 >>= _) = _
  rw [hcount]
  rfl

theorem read_of_laidOut (h : LaidOut data a) : read data = .ok a := by
  cases h with
  | attested hflag hid =>
      obtain ⟨c, hc, hread⟩ := exists_read_header _ _ _ _
      rw [hread, if_pos hflag, AttestedCredential.read_eq_ok_iff.mpr ⟨hid, hc⟩]
      rfl
  | plain hflag =>
      obtain ⟨c, -, hread⟩ := exists_read_header _ _ _ _
      rw [hread, if_neg (by rw [hflag]; exact Bool.false_ne_true)]

theorem laidOut_of_read (h : read data = .ok a) : LaidOut data a := by
  obtain ⟨⟨rpIdHash, c⟩, hhash, h⟩ := except_bind_eq_ok_iff.mp h
  obtain ⟨⟨flags, d⟩, hflags, h⟩ := except_bind_eq_ok_iff.mp h
  obtain ⟨⟨signCount, e⟩, hcount, h⟩ := except_bind_eq_ok_iff.mp h
  have hdata : data = header rpIdHash flags signCount ++ e.remaining := by
    have hstart := Cursor.remaining_of_readFixed hhash
    rw [Cursor.remaining_start, (Cursor.remaining_of_readU8 hflags).1,
      Cursor.remaining_of_readU32 hcount] at hstart
    rw [hstart, header, List.append_assoc]
    rfl
  rw [hdata]
  cases hflag : hasFlag flags .attestedCredential with
  | true =>
      simp only [hflag, if_true] at h
      obtain ⟨credential, hread, h⟩ := except_bind_eq_ok_iff.mp h
      cases h
      obtain ⟨hid, hrest⟩ := AttestedCredential.read_eq_ok_iff.mp hread
      rw [hrest]
      exact .attested hflag hid
  | false =>
      simp only [hflag] at h
      cases h
      exact .plain hflag

/-- A byte string is read as the data that it lays out. -/
theorem read_eq_ok_iff : read data = .ok a ↔ LaidOut data a := ⟨laidOut_of_read, read_of_laidOut⟩

/-! ## What can be read -/

/-- There are as many bytes as the flags and the length of the id ask for. -/
structure Complete (data : Bytes) : Prop where
  header_le : 37 ≤ data.length
  credential_le : ∀ flags, data[flagsOffset]? = some flags →
    hasFlag flags .attestedCredential = true →
    55 ≤ data.length
      ∧ 55 + Bytes.toNat ((data.drop credentialIdLengthOffset).take 2) ≤ data.length

theorem getElem?_flagsOffset :
    (header rpIdHash flags signCount ++ rest)[flagsOffset]? = some flags := by
  have hdata : header rpIdHash flags signCount ++ rest
      = rpIdHash.toList ++ (flags :: (Bytes.ofNat 4 signCount.toNat ++ rest)) :=
    List.append_assoc _ _ _
  have hbehind : rpIdHash.toList.length = flagsOffset := rpIdHash.length_toList
  rw [hdata, List.getElem?_append_right (Nat.le_of_eq hbehind), hbehind, Nat.sub_self]
  rfl

/-- The length of the id stands behind the header and the model number. -/
theorem take_idLength {aaguid : FixedBytes 16} {len : Bytes} (hlen : len.length = 2) :
    ((header rpIdHash flags signCount ++ (aaguid.toList ++ (len ++ rest))).drop
      credentialIdLengthOffset).take 2 = len := by
  have hfront : (header rpIdHash flags signCount ++ aaguid.toList).length
      = credentialIdLengthOffset := by
    rw [List.length_append, length_header, aaguid.length_toList]
    rfl
  rw [← List.append_assoc, List.drop_left' hfront, List.take_left' hlen]

theorem LaidOut.complete (h : LaidOut data a) : Complete data := by
  cases h with
  | attested hflag hid =>
      rename_i credential
      have hlength := credential.length_bytes
      refine ⟨?_, fun _ _ _ => ⟨?_, ?_⟩⟩
      · rw [List.length_append, length_header]
        omega
      · rw [List.length_append, length_header]
        omega
      · unfold AttestedCredential.bytes
        rw [take_idLength (Bytes.length_ofNat _ _),
          Bytes.toNat_ofNat_of_lt (Nat.lt_succ_of_le hid), ← AttestedCredential.bytes,
          List.length_append, length_header]
        omega
  | plain hflag =>
      refine ⟨?_, fun flags hflags hset => ?_⟩
      · rw [List.length_append, length_header]
        omega
      · rw [getElem?_flagsOffset] at hflags
        cases hflags
        rw [hflag] at hset
        cases hset

theorem exists_header_append (h : 37 ≤ data.length) :
    ∃ rpIdHash flags signCount rest, data = header rpIdHash flags signCount ++ rest := by
  obtain ⟨rpIdHash, rest, rfl⟩ := Bytes.exists_eq_fixed_append (n := 32) (b := data) (by omega)
  rw [List.length_append, rpIdHash.length_toList] at h
  obtain ⟨flags, rest, rfl⟩ := List.exists_cons_of_length_pos (l := rest) (by omega)
  rw [List.length_cons] at h
  obtain ⟨count, rest, rfl⟩ := Bytes.exists_eq_fixed_append (n := 4) (b := rest) (by omega)
  have hcount : Bytes.ofNat 4 (UInt32.ofNat count.toNat).toNat = count.toList := by
    rw [UInt32.toNat_ofNat_of_lt' count.toNat_lt_bound, count.ofNat_toNat]
  refine ⟨rpIdHash, flags, UInt32.ofNat count.toNat, rest, ?_⟩
  rw [header, hcount, List.append_assoc, List.append_assoc]
  rfl

theorem Complete.exists_laidOut (h : Complete data) : ∃ a, LaidOut data a := by
  obtain ⟨rpIdHash, flags, signCount, rest, rfl⟩ := exists_header_append h.header_le
  cases hflag : hasFlag flags .attestedCredential with
  | false => exact ⟨_, .plain hflag⟩
  | true =>
      obtain ⟨hfixed, hid⟩ := h.credential_le flags getElem?_flagsOffset hflag
      rw [List.length_append, length_header] at hfixed hid
      obtain ⟨aaguid, rest, rfl⟩ := Bytes.exists_eq_fixed_append (n := 16) (b := rest) (by omega)
      rw [List.length_append, aaguid.length_toList] at hfixed hid
      obtain ⟨len, rest, rfl⟩ := Bytes.exists_eq_fixed_append (n := 2) (b := rest) (by omega)
      rw [take_idLength len.length_toList, List.length_append, len.length_toList] at hid
      -- the id is as long as the two bytes in front of it say, and the key is what is left
      have hlength : (rest.take len.toNat).length = len.toNat := by
        rw [List.length_take, FixedBytes.toNat]
        omega
      have hbytes : aaguid.toList ++ (len.toList ++ rest)
          = (⟨aaguid, rest.take len.toNat, rest.drop len.toNat⟩ : AttestedCredential).bytes := by
        show _ = aaguid.toList ++ (Bytes.ofNat 2 (rest.take len.toNat).length
          ++ (rest.take len.toNat ++ rest.drop len.toNat))
        rw [hlength, len.ofNat_toNat, List.take_append_drop]
      rw [hbytes]
      refine ⟨_, .attested hflag ?_⟩
      show (rest.take len.toNat).length ≤ 65535
      rw [hlength]
      exact Nat.le_of_lt_succ len.toNat_lt_bound

/-- What can be read is what is complete. -/
theorem exists_read_eq_ok_iff : (∃ a, read data = .ok a) ↔ Complete data := by
  constructor
  · rintro ⟨a, h⟩
    exact (read_eq_ok_iff.mp h).complete
  · intro h
    obtain ⟨a, ha⟩ := h.exists_laidOut
    exact ⟨a, read_eq_ok_iff.mpr ha⟩

theorem eq_of_laidOut_attested (h : LaidOut data a)
    (hflag : hasFlag a.flags .attestedCredential = true) :
    ∃ credential, a.attestedCredential = some credential
      ∧ header a.rpIdHash a.flags a.signCount ++ credential.bytes = data := by
  cases h with
  | attested _ _ => exact ⟨_, rfl, rfl⟩
  | plain hplain =>
      rw [hplain] at hflag
      cases hflag

theorem eq_of_laidOut_plain (h : LaidOut data a)
    (hflag : hasFlag a.flags .attestedCredential = false) :
    a.attestedCredential = none
      ∧ header a.rpIdHash a.flags a.signCount = data.take 37 := by
  cases h with
  | attested hset _ =>
      rw [hset] at hflag
      cases hflag
  | plain _ => exact ⟨rfl, (List.take_left' (length_header _ _ _)).symm⟩

/-! ## The layout -/

/-- Authenticator data are read exactly as they are laid out. There is something to read
exactly if the bytes are complete. What is read lays out the bytes again: all of them if
there is a credential, and else the header. And whatever credential is laid out behind flags
that announce it is read back. -/
theorem read_layout :
    (∀ data, (∃ a, read data = .ok a) ↔ Complete data)
    ∧ (∀ data a, read data = .ok a →
      (hasFlag a.flags .attestedCredential = true →
        ∃ credential, a.attestedCredential = some credential
          ∧ header a.rpIdHash a.flags a.signCount ++ credential.bytes = data)
      ∧ (hasFlag a.flags .attestedCredential = false →
        a.attestedCredential = none ∧ header a.rpIdHash a.flags a.signCount = data.take 37))
    ∧ ∀ rpIdHash flags signCount (credential : AttestedCredential),
      hasFlag flags .attestedCredential = true → credential.credentialId.length ≤ 65535 →
      read (header rpIdHash flags signCount ++ credential.bytes)
        = .ok ⟨rpIdHash, flags, signCount, some credential⟩ := by
  refine ⟨fun _ => exists_read_eq_ok_iff, fun data a h => ⟨?_, ?_⟩, ?_⟩
  · exact eq_of_laidOut_attested (read_eq_ok_iff.mp h)
  · exact eq_of_laidOut_plain (read_eq_ok_iff.mp h)
  · intro rpIdHash flags signCount credential hflag hid
    exact read_eq_ok_iff.mpr (.attested hflag hid)

/-- A credential with an id of one byte and a key of two. -/
def sampleCredential : AttestedCredential := ⟨.replicate 16 0, [7], [8, 9]⟩

/-- Data with that credential. -/
def sampleAttested : Bytes :=
  List.replicate 32 1 ++ [0x41, 0, 0, 0, 5] ++ List.replicate 16 0 ++ [0, 1, 7, 8, 9]

/-- Data without a credential and a byte that is passed over. -/
def samplePlain : Bytes := List.replicate 32 1 ++ [1, 0, 0, 0, 5, 6]

theorem read_layout_sample :
    read sampleAttested = .ok ⟨.replicate 32 1, 0x41, 5, some sampleCredential⟩
      ∧ Complete sampleAttested
      ∧ header (.replicate 32 1) 0x41 5 ++ sampleCredential.bytes = sampleAttested
      ∧ read samplePlain = .ok ⟨.replicate 32 1, 1, 5, none⟩
      ∧ header (.replicate 32 1) 1 5 = samplePlain.take 37 := by
  obtain ⟨hcomplete, hback, hforth⟩ := read_layout
  have hattested : read sampleAttested = .ok ⟨.replicate 32 1, 0x41, 5, some sampleCredential⟩ :=
    hforth (.replicate 32 1) 0x41 5 sampleCredential (by decide) (by decide)
  have hplain : read samplePlain = .ok ⟨.replicate 32 1, 1, 5, none⟩ := by rfl
  obtain ⟨credential, hcredential, hbytes⟩ := (hback _ _ hattested).1 (by decide)
  cases hcredential
  obtain ⟨-, hheader⟩ := (hback _ _ hplain).2 (by decide)
  exact ⟨hattested, (hcomplete _).mp ⟨_, hattested⟩, hbytes, hplain, hheader⟩

end AuthenticatorData

end SmartWallet.WebAuthn
