import SmartWallet.Json.Record

set_option autoImplicit false

/-! # Ceremonies

The options that start a registration or an authentication, and the responses to them, as they are
exchanged with a browser. Byte strings are base64url texts in JSON. A response to a registration
keeps its byte strings as texts, since browsers differ in which of them they fill in.

Each type has `toJson` and `ofJson?`: fields without value and empty lists are left out, and reading
puts them back. -/

namespace SmartWallet.WebAuthn

/-- The identifier of ES256, ECDSA with SHA-256 over P-256, among signature algorithms. -/
def algorithmES256 : Int64 := -7

/-! ## Small types -/

/-- The kind of a credential; there is one. -/
inductive CredentialType where
  | publicKey
deriving DecidableEq, Repr

/-- Whether the user has to be verified. -/
inductive UserVerification where
  | required
  | preferred
  | discouraged
deriving DecidableEq, Repr

/-- Whether the credential has to be discoverable. -/
inductive ResidentKey where
  | discouraged
  | preferred
  | required
deriving DecidableEq, Repr

/-- How much the authenticator should say about itself. -/
inductive Attestation where
  | none
  /-- Something, perhaps anonymised. -/
  | indirect
  | direct
  | enterprise
deriving DecidableEq, Repr

def CredentialType.name : CredentialType → String
  | publicKey => "public-key"

def UserVerification.name : UserVerification → String
  | required => "required"
  | preferred => "preferred"
  | discouraged => "discouraged"

def ResidentKey.name : ResidentKey → String
  | discouraged => "discouraged"
  | preferred => "preferred"
  | required => "required"

def Attestation.name : Attestation → String
  | none => "none"
  | indirect => "indirect"
  | direct => "direct"
  | enterprise => "enterprise"

namespace CredentialType

def toJson (t : CredentialType) : Json := .ofText t.name

def ofJson? : Json → Option CredentialType := Json.oneOf? [("public-key", publicKey)]

end CredentialType

namespace UserVerification

def toJson (t : UserVerification) : Json := .ofText t.name

def ofJson? : Json → Option UserVerification :=
  Json.oneOf? [("required", required), ("preferred", preferred), ("discouraged", discouraged)]

end UserVerification

namespace ResidentKey

def toJson (t : ResidentKey) : Json := .ofText t.name

def ofJson? : Json → Option ResidentKey :=
  Json.oneOf? [("discouraged", discouraged), ("preferred", preferred), ("required", required)]

end ResidentKey

namespace Attestation

def toJson (t : Attestation) : Json := .ofText t.name

def ofJson? : Json → Option Attestation :=
  Json.oneOf? [("none", none), ("indirect", indirect), ("direct", direct),
    ("enterprise", enterprise)]

end Attestation

/-! ## Registration options -/

/-- The party a credential is made for. -/
structure RelyingParty where
  /-- Its domain, if it is not that of the page. -/
  id : Option String
  name : String
deriving DecidableEq

namespace RelyingParty

def toJson (r : RelyingParty) : Json :=
  Json.ofFields (Json.optionalField "id" .ofText r.id ++ [("name", .ofText r.name)])

def ofJson? (v : Json) : Option RelyingParty := do
  let f ← Json.fields? ["id", "name"] v
  return { id := ← f.optional "id" Json.text?, name := ← f.required "name" Json.text? }

end RelyingParty

/-- The user a credential is made for. -/
structure UserEntity where
  id : Bytes
  name : String
  /-- The name shown to the user. -/
  displayName : String
deriving DecidableEq

namespace UserEntity

def toJson (u : UserEntity) : Json :=
  Json.ofFields [("id", .ofBytes u.id), ("name", .ofText u.name),
    ("displayName", .ofText u.displayName)]

def ofJson? (v : Json) : Option UserEntity := do
  let f ← Json.fields? ["id", "name", "displayName"] v
  return {
    id := ← f.required "id" Json.bytes?
    name := ← f.required "name" Json.text?
    displayName := ← f.required "displayName" Json.text? }

end UserEntity

/-- A signature algorithm that is welcome. -/
structure CredentialParameters where
  /-- The algorithm's identifier. -/
  alg : Int64
  type : CredentialType
deriving DecidableEq

namespace CredentialParameters

def toJson (p : CredentialParameters) : Json :=
  Json.ofFields [("alg", .ofInt p.alg.toInt), ("type", p.type.toJson)]

def ofJson? (v : Json) : Option CredentialParameters := do
  let f ← Json.fields? ["alg", "type"] v
  return {
    alg := ← f.required "alg" Json.int64?
    type := ← f.withDefault "type" CredentialType.ofJson? .publicKey }

end CredentialParameters

/-- What the authenticator should be able to do. -/
structure AuthenticatorSelection where
  /-- Whether the credential should be discoverable. -/
  residentKey : Option ResidentKey
  /-- The older form of the same wish. -/
  requireResidentKey : Bool
  /-- Whether the user should be verified. -/
  userVerification : UserVerification
deriving DecidableEq

namespace AuthenticatorSelection

def toJson (s : AuthenticatorSelection) : Json :=
  Json.ofFields (Json.optionalField "residentKey" ResidentKey.toJson s.residentKey
    ++ [("requireResidentKey", .bool s.requireResidentKey),
      ("userVerification", s.userVerification.toJson)])

def ofJson? (v : Json) : Option AuthenticatorSelection := do
  let f ← Json.fields? ["residentKey", "requireResidentKey", "userVerification"] v
  return {
    residentKey := ← f.optional "residentKey" ResidentKey.ofJson?
    requireResidentKey := ← f.withDefault "requireResidentKey" Json.bool? false
    userVerification := ← f.withDefault "userVerification" UserVerification.ofJson? .preferred }

end AuthenticatorSelection

/-- The options that start a registration. -/
structure RegistrationOptions where
  rp : RelyingParty
  user : UserEntity
  challenge : Bytes
  /-- The welcome algorithms, the best first. -/
  pubKeyCredParams : List CredentialParameters
  /-- What the authenticator should be able to do. -/
  authenticatorSelection : Option AuthenticatorSelection
  /-- How much the authenticator should say about itself. -/
  attestation : Attestation
deriving DecidableEq

namespace RegistrationOptions

def toJson (o : RegistrationOptions) : Json :=
  Json.ofFields ([("rp", o.rp.toJson), ("user", o.user.toJson), ("challenge", .ofBytes o.challenge),
      ("pubKeyCredParams", .array (o.pubKeyCredParams.map CredentialParameters.toJson))]
    ++ Json.optionalField "authenticatorSelection" AuthenticatorSelection.toJson
      o.authenticatorSelection
    ++ [("attestation", o.attestation.toJson)])

def ofJson? (v : Json) : Option RegistrationOptions := do
  let f ← Json.fields? ["rp", "user", "challenge", "pubKeyCredParams", "authenticatorSelection",
    "attestation"] v
  return {
    rp := ← f.required "rp" RelyingParty.ofJson?
    user := ← f.required "user" UserEntity.ofJson?
    challenge := ← f.required "challenge" Json.bytes?
    pubKeyCredParams := ← f.required "pubKeyCredParams" (Json.list? CredentialParameters.ofJson?)
    authenticatorSelection :=
      ← f.optional "authenticatorSelection" AuthenticatorSelection.ofJson?
    attestation := ← f.withDefault "attestation" Attestation.ofJson? .none }

end RegistrationOptions

/-! ## Authentication options -/

/-- A credential that may be used. -/
structure CredentialDescriptor where
  id : Bytes
  type : CredentialType
deriving DecidableEq

namespace CredentialDescriptor

def toJson (d : CredentialDescriptor) : Json :=
  Json.ofFields [("id", .ofBytes d.id), ("type", d.type.toJson)]

def ofJson? (v : Json) : Option CredentialDescriptor := do
  let f ← Json.fields? ["id", "type"] v
  return {
    id := ← f.required "id" Json.bytes?
    type := ← f.withDefault "type" CredentialType.ofJson? .publicKey }

end CredentialDescriptor

/-- The options that start an authentication. -/
structure AuthenticationOptions where
  challenge : Bytes
  /-- The domain of the party, if it is not that of the page. -/
  rpId : Option String
  /-- The credentials that may be used; none for any that the authenticator finds itself. -/
  allowCredentials : List CredentialDescriptor
  /-- Whether the user should be verified. -/
  userVerification : UserVerification
deriving DecidableEq

namespace AuthenticationOptions

def toJson (o : AuthenticationOptions) : Json :=
  Json.ofFields ([("challenge", .ofBytes o.challenge)]
    ++ Json.optionalField "rpId" .ofText o.rpId
    ++ Json.listField "allowCredentials" CredentialDescriptor.toJson o.allowCredentials
    ++ [("userVerification", o.userVerification.toJson)])

def ofJson? (v : Json) : Option AuthenticationOptions := do
  let f ← Json.fields? ["challenge", "rpId", "allowCredentials", "userVerification"] v
  return {
    challenge := ← f.required "challenge" Json.bytes?
    rpId := ← f.optional "rpId" Json.text?
    allowCredentials :=
      ← f.withDefault "allowCredentials" (Json.list? CredentialDescriptor.ofJson?) []
    userVerification := ← f.withDefault "userVerification" UserVerification.ofJson? .preferred }

end AuthenticationOptions

/-! ## Responses -/

/-- What a registration answers about the new credential. Byte strings are still base64url texts. -/
structure AttestationResponse where
  clientDataJSON : String
  attestationObject : String
  /-- The authenticator data, if the browser takes it out of the attestation object. -/
  authenticatorData : Option String
  /-- The public key in its DER form, if the browser knows how to write it. -/
  publicKey : Option String
  publicKeyAlgorithm : Option Int64
  /-- How the authenticator can be reached. -/
  transports : List String
deriving DecidableEq

namespace AttestationResponse

def toJson (r : AttestationResponse) : Json :=
  Json.ofFields ([("clientDataJSON", .ofText r.clientDataJSON),
      ("attestationObject", .ofText r.attestationObject)]
    ++ Json.optionalField "authenticatorData" .ofText r.authenticatorData
    ++ Json.optionalField "publicKey" .ofText r.publicKey
    ++ Json.optionalField "publicKeyAlgorithm" (fun a => .ofInt a.toInt) r.publicKeyAlgorithm
    ++ Json.listField "transports" .ofText r.transports)

def ofJson? (v : Json) : Option AttestationResponse := do
  let f ← Json.fields? ["clientDataJSON", "attestationObject", "authenticatorData", "publicKey",
    "publicKeyAlgorithm", "transports"] v
  return {
    clientDataJSON := ← f.required "clientDataJSON" Json.text?
    attestationObject := ← f.required "attestationObject" Json.text?
    authenticatorData := ← f.optional "authenticatorData" Json.text?
    publicKey := ← f.optional "publicKey" Json.text?
    publicKeyAlgorithm := ← f.optional "publicKeyAlgorithm" Json.int64?
    transports := ← f.withDefault "transports" (Json.list? Json.text?) [] }

end AttestationResponse

structure RegistrationResponse where
  /-- The name of the credential, as a text. -/
  id : String
  rawId : Bytes
  response : AttestationResponse
  type : CredentialType
deriving DecidableEq

namespace RegistrationResponse

def toJson (r : RegistrationResponse) : Json :=
  Json.ofFields [("id", .ofText r.id), ("rawId", .ofBytes r.rawId), ("response", r.response.toJson),
    ("type", r.type.toJson)]

def ofJson? (v : Json) : Option RegistrationResponse := do
  let f ← Json.fields? ["id", "rawId", "response", "type"] v
  return {
    id := ← f.required "id" Json.text?
    rawId := ← f.required "rawId" Json.bytes?
    response := ← f.required "response" AttestationResponse.ofJson?
    type := ← f.withDefault "type" CredentialType.ofJson? .publicKey }

end RegistrationResponse

/-- What an authentication answers: the signed data and the signature. -/
structure AssertionResponse where
  authenticatorData : Bytes
  /-- The client data as JSON text. -/
  clientDataJSON : Bytes
  /-- The signature in DER form. -/
  signature : Bytes
  /-- The handle of the account, if the authenticator keeps it. -/
  userHandle : Option String
deriving DecidableEq

namespace AssertionResponse

def toJson (r : AssertionResponse) : Json :=
  Json.ofFields ([("authenticatorData", .ofBytes r.authenticatorData),
      ("clientDataJSON", .ofBytes r.clientDataJSON), ("signature", .ofBytes r.signature)]
    ++ Json.optionalField "userHandle" .ofText r.userHandle)

def ofJson? (v : Json) : Option AssertionResponse := do
  let f ← Json.fields? ["authenticatorData", "clientDataJSON", "signature", "userHandle"] v
  return {
    authenticatorData := ← f.required "authenticatorData" Json.bytes?
    clientDataJSON := ← f.required "clientDataJSON" Json.bytes?
    signature := ← f.required "signature" Json.bytes?
    userHandle := ← f.optional "userHandle" Json.text? }

end AssertionResponse

structure AuthenticationResponse where
  /-- The name of the credential, as a text. -/
  id : String
  rawId : Bytes
  /-- The signed data and the signature. -/
  response : AssertionResponse
  type : CredentialType
deriving DecidableEq

namespace AuthenticationResponse

def toJson (r : AuthenticationResponse) : Json :=
  Json.ofFields [("id", .ofText r.id), ("rawId", .ofBytes r.rawId), ("response", r.response.toJson),
    ("type", r.type.toJson)]

def ofJson? (v : Json) : Option AuthenticationResponse := do
  let f ← Json.fields? ["id", "rawId", "response", "type"] v
  return {
    id := ← f.required "id" Json.text?
    rawId := ← f.required "rawId" Json.bytes?
    response := ← f.required "response" AssertionResponse.ofJson?
    type := ← f.withDefault "type" CredentialType.ofJson? .publicKey }

end AuthenticationResponse

/-! ## Refusals -/

/-- Why a ceremony gave no response. -/
inductive CeremonyError where
  /-- The user gave up. -/
  | cancelled
  /-- The platform refused, in its own words. -/
  | platform (reason : String)
deriving DecidableEq, Repr

/-- The report of a ceremony without response. -/
def CeremonyError.message : CeremonyError → String
  | cancelled => "ceremony cancelled by the user"
  | platform reason => "authenticator: " ++ reason

end SmartWallet.WebAuthn
