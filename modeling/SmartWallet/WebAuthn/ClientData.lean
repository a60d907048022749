import SmartWallet.Json.Record

set_option autoImplicit false

/-! # Client data

What the browser tells the authenticator about a ceremony: its kind, the challenge it answers and
the page it was started from. It is passed on as JSON text, whose digest the authenticator signs. -/

namespace SmartWallet.WebAuthn

/-- The kind of a ceremony. -/
inductive CeremonyType where
  | create
  | get
deriving DecidableEq, Repr

/-- The kinds by their names. -/
def CeremonyType.names : List (String × CeremonyType) :=
  [("webauthn.create", create), ("webauthn.get", get)]

def CeremonyType.name : CeremonyType → String
  | create => "webauthn.create"
  | get => "webauthn.get"

structure ClientData where
  type : CeremonyType
  challenge : Bytes
  /-- The page that started the ceremony. -/
  origin : String
deriving DecidableEq

namespace ClientData

def ofJson? (v : Json) : Option ClientData := do
  let f ← Json.fields? ["type", "challenge", "origin"] v
  return {
    type := ← f.required "type" (Json.oneOf? CeremonyType.names)
    challenge := ← f.required "challenge" Json.bytes?
    origin := ← f.required "origin" Json.text? }

def toJson (d : ClientData) : Json :=
  Json.ofFields [("type", .ofText d.type.name), ("challenge", .ofBytes d.challenge),
    ("origin", .ofText d.origin)]

/-- Client data read from JSON text. -/
def parse? (text : Bytes) : Option ClientData := (Json.parse text).bind ofJson?

/-- The compact JSON text of client data. -/
def render (d : ClientData) : Bytes := d.toJson.render

end ClientData

end SmartWallet.WebAuthn
