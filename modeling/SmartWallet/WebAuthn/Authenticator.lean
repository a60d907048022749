import SmartWallet.Ecdsa.SigningKey
import SmartWallet.WebAuthn.Assertion
import SmartWallet.WebAuthn.CredentialKey

set_option autoImplicit false

/-! # A software authenticator

An authenticator with a single credential whose key it holds itself. It answers every registration
with that credential and signs every authentication that admits it, always with the user present and
verified. It can report the new key in three ways, and sign with the high of the two signatures that
fit a message, as some devices do.

The attestation object wraps the authenticator data: a map of three entries, of which the last is a
byte string of that data with its length in one or two bytes. -/

namespace SmartWallet.WebAuthn

/-- Where a registration puts the new key. -/
inductive AttestationFormat where
  /-- In all three places. -/
  | full
  /-- In the authenticator data and the attestation object. -/
  | authenticatorData
  /-- Only in the attestation object. -/
  | attestationObject
deriving DecidableEq, Repr

/-- An authenticator with a single credential. -/
structure SoftwareAuthenticator where
  key : Ecdsa.SigningKey
  credentialId : Bytes
  /-- Where a registration puts the key. -/
  format : AttestationFormat
  /-- Whether it signs with high signatures. -/
  highS : Bool
  /-- Whether the user gives up each time. -/
  cancelled : Bool
deriving DecidableEq

/-- What precedes a P-256 key in its DER form. -/
def spkiHeader : Bytes :=
  [0x30, 0x59, 0x30, 0x13, 0x06, 0x07, 0x2a, 0x86, 0x48, 0xce, 0x3d, 0x02, 0x01,
   0x06, 0x08, 0x2a, 0x86, 0x48, 0xce, 0x3d, 0x03, 0x01, 0x07, 0x03, 0x42, 0x00]

/-- The start of an attestation object without attestation, up to the authenticator data. -/
def attestationHeader : Bytes :=
  [0xa3] ++ (0x63 :: Bytes.ofString "fmt") ++ (0x64 :: Bytes.ofString "none")
    ++ (0x67 :: Bytes.ofString "attStmt") ++ [0xa0] ++ (0x68 :: Bytes.ofString "authData")

/-- The attestation object around authenticator data of less than 65536 bytes. -/
def attestationObject (data : Bytes) : Bytes :=
  let length := if data.length < 256 then [0x58, UInt8.ofNat data.length]
    else 0x59 :: Bytes.ofNat 2 data.length
  attestationHeader ++ length ++ data

namespace SoftwareAuthenticator

/-- The domain it works for. -/
def rpId : String := "localhost"

/-- The page that starts its ceremonies. -/
def origin : String := "http://localhost:5173"

def publicKey (a : SoftwareAuthenticator) : Ecdsa.PublicKey := a.key.publicKey

/-- The DER form of the public key. -/
def spki (a : SoftwareAuthenticator) : Bytes := spkiHeader ++ a.publicKey.bytes.toList

/-- The encoded public key. -/
def coseKey (a : SoftwareAuthenticator) : Bytes :=
  let coordinates := a.publicKey.bytes.toList.drop 1
  coseHeader ++ coordinates.take 32 ++ coseSeparator ++ coordinates.drop 32

/-- The start of the authenticator data: the hash of the domain, the flags and a counter of one. -/
def dataHeader (flags : UInt8) : Bytes :=
  (Digest.sha256 (Bytes.ofString rpId)).toList ++ [flags] ++ Bytes.ofNat 4 1

/-- The flags it always sets. -/
def userFlags : UInt8 := Flag.userPresent.mask ||| Flag.userVerified.mask

/-- The authenticator data of an authentication. -/
def assertionData : Bytes := dataHeader userFlags

/-- The authenticator data of a registration. -/
def attestedData (a : SoftwareAuthenticator) : Bytes :=
  dataHeader (userFlags ||| Flag.attestedCredential.mask) ++ List.replicate aaguidLength 0
    ++ Bytes.ofNat 2 a.credentialId.length ++ a.credentialId ++ a.coseKey

def clientData (type : CeremonyType) (challenge : Bytes) : Bytes :=
  ClientData.render ⟨type, challenge, origin⟩

/-- The compact signature of a message, high or low as the authenticator does it. -/
def compactSignature (a : SoftwareAuthenticator) (message : Bytes) : Ecdsa.Signature :=
  let x := a.key.sign (Digest.sha256 message)
  let low := Ecdsa.Signature.low x.s
  .ofNumbers x.r (if a.highS then P256.n - low else low)

/-- The DER signature of an assertion. -/
def sign (a : SoftwareAuthenticator) (data clientData : Bytes) : Bytes :=
  Ecdsa.Der.writeSignature (a.compactSignature (Assertion.signedMessage data clientData))

/-- What a registration says about the credential. -/
def attestation (a : SoftwareAuthenticator) (challenge : Bytes) : AttestationResponse where
  clientDataJSON := Base64Url.encode (clientData .create challenge)
  attestationObject := Base64Url.encode (WebAuthn.attestationObject a.attestedData)
  authenticatorData :=
    if a.format = .attestationObject then none else some (Base64Url.encode a.attestedData)
  publicKey := if a.format = .full then some (Base64Url.encode a.spki) else none
  publicKeyAlgorithm := some algorithmES256
  transports := ["internal"]

/-- Answers a registration. -/
def register (a : SoftwareAuthenticator) (o : RegistrationOptions) :
    Except CeremonyError RegistrationResponse :=
  if a.cancelled then .error .cancelled
  else if o.pubKeyCredParams.any fun p => p.alg = algorithmES256 then
    .ok ⟨Base64Url.encode a.credentialId, a.credentialId, a.attestation o.challenge, .publicKey⟩
  else .error (.platform "no supported algorithm")

/-- Whether the credential may answer an authentication. -/
def admitted (a : SoftwareAuthenticator) (o : AuthenticationOptions) : Bool :=
  o.allowCredentials.isEmpty || o.allowCredentials.any fun d => d.id = a.credentialId

/-- Answers an authentication. -/
def authenticate (a : SoftwareAuthenticator) (o : AuthenticationOptions) :
    Except CeremonyError AuthenticationResponse :=
  if a.cancelled then .error .cancelled
  else if a.admitted o then
    let client := clientData .get o.challenge
    .ok ⟨Base64Url.encode a.credentialId, a.credentialId,
      ⟨assertionData, client, a.sign assertionData client, none⟩, .publicKey⟩
  else .error (.platform "no matching credential")

end SoftwareAuthenticator

end SmartWallet.WebAuthn
