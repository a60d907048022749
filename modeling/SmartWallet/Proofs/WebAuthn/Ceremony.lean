import SmartWallet.Proofs.Json.Form
import SmartWallet.WebAuthn.Ceremony

set_option autoImplicit false

/-! # Forms of options and responses

What is exchanged with a browser reads back as it was written: options and responses with byte
strings and texts of any kind, any algorithm, and any of the optional fields and lists left out.
There is one theorem for each type, `toJson_form`, made from those of its fields. -/

namespace SmartWallet.WebAuthn

open Json (Form form_record form_text form_bytes form_bool form_int64 form_oneOf)
open Json.Fields (Written)

/-! ## Small types -/

theorem CredentialType.toJson_form : Form toJson ofJson? :=
  form_oneOf fun t => by cases t; rfl

theorem UserVerification.toJson_form : Form toJson ofJson? :=
  form_oneOf fun t => by cases t <;> rfl

theorem ResidentKey.toJson_form : Form toJson ofJson? :=
  form_oneOf fun t => by cases t <;> rfl

theorem Attestation.toJson_form : Form toJson ofJson? :=
  form_oneOf fun t => by cases t <;> rfl

/-! ## Registration options -/

theorem RelyingParty.toJson_form : Form toJson ofJson? := by
  refine form_record (by decide) (fun r => ?written) fun r f hf => ?read
  case written =>
    exact .append (.optionalField form_text "id" r.id) (.cons form_text "name" r.name .nil)
  case read =>
    have hid : f.optional "id" Json.text? = some r.id := form_text.optional (by simp [← hf])
    have hname : f.required "name" Json.text? = some r.name := form_text.required (by simp [← hf])
    rw [hid, hname]
    rfl

theorem UserEntity.toJson_form : Form toJson ofJson? := by
  refine form_record (by decide) (fun u => ?written) fun u f hf => ?read
  case written =>
    exact .cons form_bytes "id" u.id (.cons form_text "name" u.name
      (.cons form_text "displayName" u.displayName .nil))
  case read =>
    have hid : f.required "id" Json.bytes? = some u.id := form_bytes.required (by simp [← hf])
    have hname : f.required "name" Json.text? = some u.name := form_text.required (by simp [← hf])
    have hdisplay : f.required "displayName" Json.text? = some u.displayName :=
      form_text.required (by simp [← hf])
    rw [hid, hname, hdisplay]
    rfl

theorem CredentialParameters.toJson_form : Form toJson ofJson? := by
  refine form_record (by decide) (fun p => ?written) fun p f hf => ?read
  case written =>
    exact .cons form_int64 "alg" p.alg (.cons CredentialType.toJson_form "type" p.type .nil)
  case read =>
    have halg : f.required "alg" Json.int64? = some p.alg := form_int64.required (by simp [← hf])
    have htype : f.withDefault "type" CredentialType.ofJson? .publicKey = some p.type :=
      CredentialType.toJson_form.withDefault (by simp [← hf]) _
    rw [halg, htype]
    rfl

theorem AuthenticatorSelection.toJson_form : Form toJson ofJson? := by
  refine form_record (by decide) (fun s => ?written) fun s f hf => ?read
  case written =>
    exact .append (.optionalField ResidentKey.toJson_form "residentKey" s.residentKey)
      (.cons form_bool "requireResidentKey" s.requireResidentKey
        (.cons UserVerification.toJson_form "userVerification" s.userVerification .nil))
  case read =>
    have hkey : f.optional "residentKey" ResidentKey.ofJson? = some s.residentKey :=
      ResidentKey.toJson_form.optional (by simp [← hf])
    have hrequire : f.withDefault "requireResidentKey" Json.bool? false
        = some s.requireResidentKey := form_bool.withDefault (by simp [← hf]) _
    have huser : f.withDefault "userVerification" UserVerification.ofJson? .preferred
        = some s.userVerification := UserVerification.toJson_form.withDefault (by simp [← hf]) _
    rw [hkey, hrequire, huser]
    rfl

theorem RegistrationOptions.toJson_form : Form toJson ofJson? := by
  refine form_record (by decide) (fun o => ?written) fun o f hf => ?read
  case written =>
    have hfirst := Written.cons RelyingParty.toJson_form "rp" o.rp
      (.cons UserEntity.toJson_form "user" o.user (.cons form_bytes "challenge" o.challenge
        (.cons CredentialParameters.toJson_form.list "pubKeyCredParams" o.pubKeyCredParams .nil)))
    exact (hfirst.append (.optionalField AuthenticatorSelection.toJson_form "authenticatorSelection"
      o.authenticatorSelection)).append
      (.cons Attestation.toJson_form "attestation" o.attestation .nil)
  case read =>
    have hrp : f.required "rp" RelyingParty.ofJson? = some o.rp :=
      RelyingParty.toJson_form.required (by simp [← hf])
    have huser : f.required "user" UserEntity.ofJson? = some o.user :=
      UserEntity.toJson_form.required (by simp [← hf])
    have hchallenge : f.required "challenge" Json.bytes? = some o.challenge :=
      form_bytes.required (by simp [← hf])
    have hparams : f.required "pubKeyCredParams" (Json.list? CredentialParameters.ofJson?)
        = some o.pubKeyCredParams := CredentialParameters.toJson_form.list.required (by simp [← hf])
    have hselection : f.optional "authenticatorSelection" AuthenticatorSelection.ofJson?
        = some o.authenticatorSelection :=
      AuthenticatorSelection.toJson_form.optional (by simp [← hf])
    have hattestation : f.withDefault "attestation" Attestation.ofJson? .none
        = some o.attestation := Attestation.toJson_form.withDefault (by simp [← hf]) _
    rw [hrp, huser, hchallenge, hparams, hselection, hattestation]
    rfl

/-! ## Authentication options -/

theorem CredentialDescriptor.toJson_form : Form toJson ofJson? := by
  refine form_record (by decide) (fun d => ?written) fun d f hf => ?read
  case written =>
    exact .cons form_bytes "id" d.id (.cons CredentialType.toJson_form "type" d.type .nil)
  case read =>
    have hid : f.required "id" Json.bytes? = some d.id := form_bytes.required (by simp [← hf])
    have htype : f.withDefault "type" CredentialType.ofJson? .publicKey = some d.type :=
      CredentialType.toJson_form.withDefault (by simp [← hf]) _
    rw [hid, htype]
    rfl

theorem AuthenticationOptions.toJson_form : Form toJson ofJson? := by
  refine form_record (by decide) (fun o => ?written) fun o f hf => ?read
  case written =>
    have hfirst := Written.cons form_bytes "challenge" o.challenge .nil
    exact ((hfirst.append (.optionalField form_text "rpId" o.rpId)).append
      (.listField CredentialDescriptor.toJson_form "allowCredentials" o.allowCredentials)).append
      (.cons UserVerification.toJson_form "userVerification" o.userVerification .nil)
  case read =>
    have hchallenge : f.required "challenge" Json.bytes? = some o.challenge :=
      form_bytes.required (by simp [← hf])
    have hrpId : f.optional "rpId" Json.text? = some o.rpId := form_text.optional (by simp [← hf])
    have hallow : f.withDefault "allowCredentials" (Json.list? CredentialDescriptor.ofJson?) []
        = some o.allowCredentials :=
      CredentialDescriptor.toJson_form.listWithDefault (by simp [← hf])
    have huser : f.withDefault "userVerification" UserVerification.ofJson? .preferred
        = some o.userVerification := UserVerification.toJson_form.withDefault (by simp [← hf]) _
    rw [hchallenge, hrpId, hallow, huser]
    rfl

/-! ## Responses -/

theorem AttestationResponse.toJson_form : Form toJson ofJson? := by
  refine form_record (by decide) (fun r => ?written) fun r f hf => ?read
  case written =>
    have hfirst := Written.cons form_text "clientDataJSON" r.clientDataJSON
      (.cons form_text "attestationObject" r.attestationObject .nil)
    exact (((hfirst.append
      (.optionalField form_text "authenticatorData" r.authenticatorData)).append
      (.optionalField form_text "publicKey" r.publicKey)).append
      (.optionalField form_int64 "publicKeyAlgorithm" r.publicKeyAlgorithm)).append
      (.listField form_text "transports" r.transports)
  case read =>
    have hclient : f.required "clientDataJSON" Json.text? = some r.clientDataJSON :=
      form_text.required (by simp [← hf])
    have hobject : f.required "attestationObject" Json.text? = some r.attestationObject :=
      form_text.required (by simp [← hf])
    have hdata : f.optional "authenticatorData" Json.text? = some r.authenticatorData :=
      form_text.optional (by simp [← hf])
    have hkey : f.optional "publicKey" Json.text? = some r.publicKey :=
      form_text.optional (by simp [← hf])
    have halgorithm : f.optional "publicKeyAlgorithm" Json.int64? = some r.publicKeyAlgorithm :=
      form_int64.optional (by simp [← hf])
    have htransports : f.withDefault "transports" (Json.list? Json.text?) [] = some r.transports :=
      form_text.listWithDefault (by simp [← hf])
    rw [hclient, hobject, hdata, hkey, halgorithm, htransports]
    rfl

theorem RegistrationResponse.toJson_form : Form toJson ofJson? := by
  refine form_record (by decide) (fun r => ?written) fun r f hf => ?read
  case written =>
    exact .cons form_text "id" r.id (.cons form_bytes "rawId" r.rawId
      (.cons AttestationResponse.toJson_form "response" r.response
        (.cons CredentialType.toJson_form "type" r.type .nil)))
  case read =>
    have hid : f.required "id" Json.text? = some r.id := form_text.required (by simp [← hf])
    have hrawId : f.required "rawId" Json.bytes? = some r.rawId :=
      form_bytes.required (by simp [← hf])
    have hresponse : f.required "response" AttestationResponse.ofJson? = some r.response :=
      AttestationResponse.toJson_form.required (by simp [← hf])
    have htype : f.withDefault "type" CredentialType.ofJson? .publicKey = some r.type :=
      CredentialType.toJson_form.withDefault (by simp [← hf]) _
    rw [hid, hrawId, hresponse, htype]
    rfl

theorem AssertionResponse.toJson_form : Form toJson ofJson? := by
  refine form_record (by decide) (fun r => ?written) fun r f hf => ?read
  case written =>
    have hfirst := Written.cons form_bytes "authenticatorData" r.authenticatorData
      (.cons form_bytes "clientDataJSON" r.clientDataJSON
        (.cons form_bytes "signature" r.signature .nil))
    exact hfirst.append (.optionalField form_text "userHandle" r.userHandle)
  case read =>
    have hdata : f.required "authenticatorData" Json.bytes? = some r.authenticatorData :=
      form_bytes.required (by simp [← hf])
    have hclient : f.required "clientDataJSON" Json.bytes? = some r.clientDataJSON :=
      form_bytes.required (by simp [← hf])
    have hsignature : f.required "signature" Json.bytes? = some r.signature :=
      form_bytes.required (by simp [← hf])
    have hhandle : f.optional "userHandle" Json.text? = some r.userHandle :=
      form_text.optional (by simp [← hf])
    rw [hdata, hclient, hsignature, hhandle]
    rfl

theorem AuthenticationResponse.toJson_form : Form toJson ofJson? := by
  refine form_record (by decide) (fun r => ?written) fun r f hf => ?read
  case written =>
    exact .cons form_text "id" r.id (.cons form_bytes "rawId" r.rawId
      (.cons AssertionResponse.toJson_form "response" r.response
        (.cons CredentialType.toJson_form "type" r.type .nil)))
  case read =>
    have hid : f.required "id" Json.text? = some r.id := form_text.required (by simp [← hf])
    have hrawId : f.required "rawId" Json.bytes? = some r.rawId :=
      form_bytes.required (by simp [← hf])
    have hresponse : f.required "response" AssertionResponse.ofJson? = some r.response :=
      AssertionResponse.toJson_form.required (by simp [← hf])
    have htype : f.withDefault "type" CredentialType.ofJson? .publicKey = some r.type :=
      CredentialType.toJson_form.withDefault (by simp [← hf]) _
    rw [hid, hrawId, hresponse, htype]
    rfl

end SmartWallet.WebAuthn
