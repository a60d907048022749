import SmartWallet.Ecdsa.Der
import SmartWallet.WebAuthn.AuthenticatorData
import SmartWallet.WebAuthn.ClientData
import SmartWallet.WebAuthn.Ceremony

set_option autoImplicit false

/-! # Assertions

An assertion is the answer to an authentication in the form that a wallet contract takes: the
authenticator data, the client data and a compact low signature. `Assertion.check` says whether a
wallet would take it as an approval of a payload: the challenge in the client data is the payload,
the flags allow it, and the signature covers the authenticator data and the digest of the client
data. The tests are made in a fixed order and the first that fails is reported. -/

namespace SmartWallet.WebAuthn

/-- A signed answer to an authentication. -/
structure Assertion where
  authenticatorData : Bytes
  /-- The client data as JSON text. -/
  clientDataJson : Bytes
  signature : Ecdsa.Signature
deriving DecidableEq

/-- Why an assertion is refused. -/
inductive AssertionError where
  /-- The authenticator data is too short to have flags. -/
  | missingFlags
  | userNotPresent
  /-- The user was not verified, although that was required. -/
  | userNotVerified
  /-- The credential is backed up but must not be. -/
  | inconsistentBackupState
  /-- The client data is not the JSON it should be. -/
  | clientData
  /-- The client data is from another kind of ceremony. -/
  | wrongCeremony
  | challengeMismatch
  /-- The signature does not fit the key. -/
  | invalidSignature
deriving DecidableEq, Repr

/-- The report of a refused assertion; there is none for bad client data. -/
def AssertionError.message? : AssertionError → Option String
  | missingFlags => some "authenticator data ends before the flags byte"
  | userNotPresent => some "user presence flag is not set"
  | userNotVerified => some "user verification flag is not set"
  | inconsistentBackupState =>
    some "backup state flag set on a credential that is not backup eligible"
  | clientData => none
  | wrongCeremony => some "client data is not from a webauthn.get ceremony"
  | challengeMismatch => some "challenge is not the authorization payload"
  | invalidSignature => some "signature does not match the public key"

namespace Assertion

/-- The assertion in an authenticator's answer, with the signature
brought to its compact low form. -/
def ofResponse (r : AssertionResponse) : Except Ecdsa.Der.ParseError Assertion := do
  let signature ← Ecdsa.Der.readSignature r.signature
  return ⟨r.authenticatorData, r.clientDataJSON, signature⟩

/-- What the signature covers. -/
def signedMessage (authenticatorData clientDataJson : Bytes) : Bytes :=
  authenticatorData ++ (Digest.sha256 clientDataJson).toList

/-- Tests the flags. -/
def checkFlags (flags : UInt8) (uv : UserVerification) : Except AssertionError Unit :=
  if !hasFlag flags .userPresent then .error .userNotPresent
  else if uv = .required ∧ !hasFlag flags .userVerified then .error .userNotVerified
  else if hasFlag flags .backedUp ∧ !hasFlag flags .backupEligible then
    .error .inconsistentBackupState
  else .ok ()

/-- Tests the client data. -/
def checkClientData (text : Bytes) (payload : Bytes32) : Except AssertionError Unit :=
  match ClientData.parse? text with
  | none => .error .clientData
  | some d =>
    if d.type ≠ .get then .error .wrongCeremony
    else if d.challenge ≠ payload.toList then .error .challengeMismatch
    else .ok ()

/-- Whether a wallet would take the assertion as an approval of the payload by the key. -/
def check (a : Assertion) (payload : Bytes32) (k : Ecdsa.PublicKey) (uv : UserVerification) :
    Except AssertionError Unit := do
  match a.authenticatorData[flagsOffset]? with
  | none => throw .missingFlags
  | some flags =>
    checkFlags flags uv
    checkClientData a.clientDataJson payload
    let digest := Digest.sha256 (signedMessage a.authenticatorData a.clientDataJson)
    if Ecdsa.verify a.signature digest k then return () else throw .invalidSignature

end Assertion

end SmartWallet.WebAuthn
