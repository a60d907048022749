import SmartWallet.Ecdsa
import SmartWallet.Text.Base64
import SmartWallet.WebAuthn.AuthenticatorData
import SmartWallet.WebAuthn.Ceremony

set_option autoImplicit false

/-! # The public key of a credential

A registration can show the new P-256 key in three ways: as the tail of its DER form, inside the
authenticator data, and inside the attestation object. `extract` takes the first source that the
response offers; a DER form that cannot be read is passed over. In the attestation object the key is
found by the ten bytes that every encoded P-256 key starts with. -/

namespace SmartWallet.WebAuthn

/-- Why no key is found. -/
inductive CredentialKeyError where
  /-- The source has no key. -/
  | decode (reason : String)
  /-- The flag for an attested credential is not set. -/
  | missingAttestedCredential
  /-- The source ends too early. -/
  | truncated (cause : Truncated)
  /-- The source is not base64url. -/
  | base64
deriving DecidableEq, Repr

/-- The report of a missing key; there is none for a text that is not base64url. -/
def CredentialKeyError.message? : CredentialKeyError → Option String
  | decode reason => some ("public key decode: " ++ reason)
  | missingAttestedCredential => some "attested credential data flag is not set"
  | truncated cause => some ("public key decode: " ++ cause.message)
  | base64 => none

instance : MonadLift (Except Truncated) (Except CredentialKeyError) :=
  ⟨Except.mapError .truncated⟩

/-- What an encoded P-256 key starts with: its kind, algorithm and curve, and the start of `x`. -/
def coseHeader : Bytes := [0xa5, 0x01, 0x02, 0x03, 0x26, 0x20, 0x01, 0x21, 0x58, 0x20]

/-- What stands between the coordinates of an encoded P-256 key. -/
def coseSeparator : Bytes := [0x22, 0x58, 0x20]

/-- The first position of a byte string in another. -/
def indexOf? (pattern : Bytes) : Bytes → Option Nat
  | [] => if pattern = [] then some 0 else none
  | x :: rest =>
    if pattern.isPrefixOf (x :: rest) then some 0 else (indexOf? pattern rest).map (· + 1)

namespace CredentialKey

/-- The key at the end of a DER form. -/
def ofSpkiTail? (spki : Bytes) : Option Ecdsa.PublicKey :=
  if 65 ≤ spki.length then Ecdsa.PublicKey.ofSec1? (spki.drop (spki.length - 65)) else none

def ofAuthenticatorData (data : Bytes) : Except CredentialKeyError Ecdsa.PublicKey :=
  match attestedCoordinates data with
  | .ok (x, y) => .ok (.ofCoordinates x y)
  | .error .missingAttestedCredential => .error .missingAttestedCredential
  | .error (.truncated cause) => .error (.truncated cause)

def ofAttestationObject (object : Bytes) : Except CredentialKeyError Ecdsa.PublicKey := do
  match indexOf? coseHeader object with
  | none => throw (.decode "COSE P-256 key not found")
  | some i =>
    let c ← (Cursor.start object).seek (i + coseHeader.length)
    let (x, c) ← c.readFixed 32
    let c ← c.skip coseSeparator.length
    let (y, _) ← c.readFixed 32
    return .ofCoordinates x y

/-- The bytes of a base64url field. -/
def decodeField (text : String) : Except CredentialKeyError Bytes :=
  match Base64Url.decode? text with
  | some b => .ok b
  | none => .error .base64

def extract (r : RegistrationResponse) : Except CredentialKeyError Ecdsa.PublicKey :=
  match (r.response.publicKey.bind Base64Url.decode?).bind ofSpkiTail? with
  | some k => .ok k
  | none =>
    match r.response.authenticatorData with
    | some text => do ofAuthenticatorData (← decodeField text)
    | none => do ofAttestationObject (← decodeField r.response.attestationObject)

end CredentialKey

end SmartWallet.WebAuthn
