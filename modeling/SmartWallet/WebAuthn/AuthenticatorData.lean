import SmartWallet.Bytes.Cursor

set_option autoImplicit false

/-! # Authenticator data

What an authenticator says about itself and signs, laid out as

    hash of the relying party id   32 bytes
    flags                           1 byte
    signature counter               4 bytes
    attested credential, if the flag `AT` is set:
      model of the authenticator   16 bytes
      length of the credential id   2 bytes
      credential id
      credential public key, to the end

with numbers most significant byte first. `AuthenticatorData.read` follows the layout from the
start; `attestedCoordinates` looks up the two coordinates of a P-256 credential key at the places
where its fixed encoding puts them. -/

namespace SmartWallet.WebAuthn

/-! ## Layout -/

/-- The length of the hash of the relying party id. -/
def rpIdHashLength : Nat := 32

/-- The length of the authenticator's model number. -/
def aaguidLength : Nat := 16

/-- Where the flags stand. -/
def flagsOffset : Nat := 32

/-- Where the length of the credential id stands. -/
def credentialIdLengthOffset : Nat := 53

/-- The bits of the flags byte. -/
inductive Flag where
  | userPresent
  | userVerified
  /-- The credential may be backed up. -/
  | backupEligible
  /-- The credential is backed up. -/
  | backedUp
  /-- An attested credential follows. -/
  | attestedCredential
  /-- Extensions follow. -/
  | extensions
deriving DecidableEq, Repr

def Flag.mask : Flag → UInt8
  | userPresent => 1
  | userVerified => 4
  | backupEligible => 8
  | backedUp => 16
  | attestedCredential => 64
  | extensions => 128

/-- Whether all bits of a mask are set. -/
def hasBits (flags mask : UInt8) : Bool := flags &&& mask = mask

/-- Whether a flag is set. -/
def hasFlag (flags : UInt8) (f : Flag) : Bool := hasBits flags f.mask

/-! ## Reading -/

/-- A credential with the authenticator that made it. -/
structure AttestedCredential where
  /-- The model of the authenticator. -/
  aaguid : FixedBytes 16
  credentialId : Bytes
  /-- The encoded public key and whatever follows it. -/
  credentialPublicKey : Bytes
deriving DecidableEq

structure AuthenticatorData where
  /-- The hash of the relying party id. -/
  rpIdHash : Bytes32
  flags : UInt8
  signCount : UInt32
  /-- The credential, if the flags announce one. -/
  attestedCredential : Option AttestedCredential
deriving DecidableEq

def AttestedCredential.read (c : Cursor) : Except Truncated AttestedCredential := do
  let (aaguid, c) ← c.readFixed 16
  let (len, c) ← c.readU16
  let (credentialId, c) ← c.read len.toNat
  return ⟨aaguid, credentialId, c.remaining⟩

def AuthenticatorData.read (data : Bytes) : Except Truncated AuthenticatorData := do
  let (rpIdHash, c) ← (Cursor.start data).readFixed 32
  let (flags, c) ← c.readU8
  let (signCount, c) ← c.readU32
  if hasFlag flags .attestedCredential then
    return ⟨rpIdHash, flags, signCount, some (← AttestedCredential.read c)⟩
  else
    return ⟨rpIdHash, flags, signCount, none⟩

/-! ## Coordinates by position -/

/-- Why no coordinates are found. -/
inductive CoordinatesError where
  /-- The flag for an attested credential is not set. -/
  | missingAttestedCredential
  /-- The data ends too early. -/
  | truncated (cause : Truncated)
deriving DecidableEq, Repr

instance : MonadLift (Except Truncated) (Except CoordinatesError) := ⟨Except.mapError .truncated⟩

/-- The coordinates of the credential key: the key starts behind the credential id, its `x` after a
header of ten bytes and its `y` after three more bytes. -/
def attestedCoordinates (data : Bytes) : Except CoordinatesError (Bytes32 × Bytes32) := do
  let c := Cursor.start data
  let flags ← c.peekAt flagsOffset 1
  if !(hasFlag (flags.headD 0) .attestedCredential) then throw .missingAttestedCredential
  let idLength := Bytes.toNat (← c.peekAt credentialIdLengthOffset 2)
  let x ← c.peekFixedAt (65 + idLength) 32
  let y ← c.peekFixedAt (100 + idLength) 32
  return (x, y)

end SmartWallet.WebAuthn
