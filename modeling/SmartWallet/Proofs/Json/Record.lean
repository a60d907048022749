import SmartWallet.Json.Record
import SmartWallet.Proofs.Json.Value
import SmartWallet.Proofs.Text.Base64

set_option autoImplicit false

/-! # Reading records that were written

`fields?_ofFields`: the fields of a record come back as they were given, when their names are known
and no name stands twice. Beside it stand the fields of common kinds, each read back from its
written form. -/

namespace SmartWallet.Json

/-- The names and values of an object are those that were spelled. -/
theorem mapM_unspell (fields : Fields) :
    (fields.map fun (name, v) => (escape name, v)).mapM
      (fun (name, v) => (fun text => (text, v)) <$> unspell? name) = some fields := by
  induction fields with
  | nil => rfl
  | cons f rest ih =>
      rw [List.map_cons, List.mapM_cons, ih]
      simp only [unspell?_escape]
      rfl

/-- A record is read as the fields it was made of. -/
theorem fields?_ofFields {names : List String} {fields : Fields}
    (known : ∀ f ∈ fields, f.1 ∈ names) (distinct : (fields.map Prod.fst).Nodup) :
    fields? names (ofFields fields) = some fields := by
  have hfilter : fields.filter (fun f => names.contains f.1) = fields := by
    rw [List.filter_eq_self]
    intro f hf
    exact List.contains_iff_mem.mpr (known f hf)
  unfold fields? ofFields
  simp only [mapM_unspell, bind, Option.bind]
  rw [hfilter, if_pos distinct]

theorem spelled_ofFields {fields : Fields} (h : ∀ f ∈ fields, f.2.Spelled) :
    (ofFields fields).Spelled := spelledMembers_map h

@[simp] theorem bytes?_ofBytes (b : Bytes) : bytes? (ofBytes b) = some b := by
  unfold bytes? ofBytes
  rw [text?_ofText]
  exact Base64Url.decode?_encode b

theorem oneOf?_ofText {α : Type} (names : List (String × α)) (text : String) :
    oneOf? names (ofText text) = names.lookup text := by
  show (unspell? (escape text)).bind (fun name => names.lookup name) = _
  rw [unspell?_escape]
  rfl

end SmartWallet.Json
