import SmartWallet.Proofs.Json.Form
import SmartWallet.WebAuthn.ClientData

set_option autoImplicit false

/-! # Reading client data that was written

`parse?_render`: the JSON text of client data reads as that client data, whatever its challenge and
its origin are. -/

namespace SmartWallet.WebAuthn

open Json (Form form_record form_text form_bytes form_oneOf)

theorem CeremonyType.lookup_name (t : CeremonyType) : names.lookup t.name = some t := by
  cases t <;> rfl

namespace ClientData

theorem toJson_form : Form toJson ofJson? := by
  have htypes := form_oneOf CeremonyType.lookup_name
  refine form_record (by decide) (fun d => ?written) fun d f hf => ?read
  case written =>
    exact .cons htypes "type" d.type (.cons form_bytes "challenge" d.challenge
      (.cons form_text "origin" d.origin .nil))
  case read =>
    have htype : f.required "type" (Json.oneOf? CeremonyType.names) = some d.type :=
      htypes.required (by simp [← hf])
    have hchallenge : f.required "challenge" Json.bytes? = some d.challenge :=
      form_bytes.required (by simp [← hf])
    have horigin : f.required "origin" Json.text? = some d.origin :=
      form_text.required (by simp [← hf])
    rw [htype, hchallenge, horigin]
    rfl

/-- The text of client data reads as the client data. -/
theorem parse?_render (d : ClientData) : parse? d.render = some d := toJson_form.parse d

end ClientData

end SmartWallet.WebAuthn
