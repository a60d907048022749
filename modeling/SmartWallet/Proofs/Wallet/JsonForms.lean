import SmartWallet.Proofs.WebAuthn.Ceremony
import SmartWallet.Proofs.WebAuthn.ClientData
import SmartWallet.Wallet.Config

set_option autoImplicit false

/-! # Everything with a JSON text reads back

Options, responses, client data and configurations are passed on as JSON texts.
`parse_render_forms`: each of them is read from its text as it was written, whatever its byte
strings, texts and numbers are and whichever of its fields are left out. -/

namespace SmartWallet

open Json (Form form_record form_text form_uint32)
open Json.Fields (Written)
open WebAuthn

/-- A configuration is written with all of its fields but the domain, so the
defaults of the others do not show. -/
theorem Config.toJson_form : Form toJson ofJson? := by
  refine form_record (by decide) (fun c => ?written) fun c f hf => ?read
  case written =>
    have hfirst := Written.cons form_text "rpc_url" c.rpcUrl
      (.cons form_text "network_passphrase" c.networkPassphrase
        (.cons form_text "factory_contract_id" c.factoryContractId
          (.cons form_uint32 "timeout_secs" c.timeoutSeconds .nil)))
    exact hfirst.append (.optionalField form_text "rp_id" c.rpId)
  case read =>
    have hurl : f.withDefault "rpc_url" Json.text? "" = some c.rpcUrl :=
      form_text.withDefault (by simp [← hf]) _
    have hpassphrase : f.withDefault "network_passphrase" Json.text? Network.test.passphrase
        = some c.networkPassphrase := form_text.withDefault (by simp [← hf]) _
    have hfactory : f.withDefault "factory_contract_id" Json.text? "" = some c.factoryContractId :=
      form_text.withDefault (by simp [← hf]) _
    have htimeout : f.withDefault "timeout_secs" Json.uint32? defaultTimeoutSeconds
        = some c.timeoutSeconds := form_uint32.withDefault (by simp [← hf]) _
    have hrpId : f.optional "rp_id" Json.text? = some c.rpId := form_text.optional (by simp [← hf])
    rw [hurl, hpassphrase, hfactory, htimeout, hrpId]
    rfl

/-- What is written as a JSON text is read from it. -/
theorem parse_render_forms (creation : RegistrationOptions) (request : AuthenticationOptions)
    (created : RegistrationResponse) (answered : AuthenticationResponse) (d : ClientData)
    (c : Config) :
    (Json.parse creation.toJson.render).bind RegistrationOptions.ofJson? = some creation
    ∧ (Json.parse request.toJson.render).bind AuthenticationOptions.ofJson? = some request
    ∧ (Json.parse created.toJson.render).bind RegistrationResponse.ofJson? = some created
    ∧ (Json.parse answered.toJson.render).bind AuthenticationResponse.ofJson? = some answered
    ∧ ClientData.parse? d.render = some d
    ∧ Config.parse? c.toJson.render = some c := by
  refine ⟨?creation, ?request, ?created, ?answered, ?client, ?config⟩
  case creation => exact RegistrationOptions.toJson_form.parse creation
  case request => exact AuthenticationOptions.toJson_form.parse request
  case created => exact RegistrationResponse.toJson_form.parse created
  case answered => exact AuthenticationResponse.toJson_form.parse answered
  case client => exact ClientData.parse?_render d
  case config => exact Config.toJson_form.parse c

end SmartWallet
