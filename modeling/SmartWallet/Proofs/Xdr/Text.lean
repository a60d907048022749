import SmartWallet.Proofs.Except
import SmartWallet.Proofs.Text.Base64
import SmartWallet.Proofs.Xdr.Codec
import SmartWallet.Xdr.Text

set_option autoImplicit false

/-! # Binary forms as text

For a lawful type a value has a text exactly if its lengths are within their maxima,
the text is read as that value, and whatever is read from a text, in whatever
spelling, has a text of its own. -/

namespace SmartWallet.Xdr

variable {α : Type} [Xdr α] {x : α} {text : String}

theorem encodeText_eq_ok_iff :
    encodeText x = .ok text ↔ (write x).fits = true
      ∧ text = String.ofList (Base64.encodePadded Base64.standard (write x).bytes) := by
  unfold encodeText encode
  rw [except_bind_eq_ok_iff]
  constructor
  · rintro ⟨b, hb, htext⟩
    obtain ⟨hfits, rfl⟩ := Encoding.toBytes_eq_ok_iff.mp hb
    exact ⟨hfits, (Except.ok.inj htext).symm⟩
  · rintro ⟨hfits, rfl⟩
    exact ⟨_, Encoding.toBytes_eq_ok_iff.mpr ⟨hfits, rfl⟩, rfl⟩

theorem exists_encodeText (h : (write x).fits = true) : ∃ text, encodeText x = .ok text :=
  ⟨_, encodeText_eq_ok_iff.mpr ⟨h, rfl⟩⟩

variable [Lawful α]

/-- The text of a value is read as the value. -/
theorem decodeText_encodeText (h : encodeText x = .ok text) : decodeText text = .ok x := by
  obtain ⟨hfits, rfl⟩ := encodeText_eq_ok_iff.mp h
  have hread := Lawful.reads x hfits []
  rw [List.append_nil] at hread
  unfold decodeText
  rw [String.toList_ofList, Base64.decodeStream_encodePadded Base64.standard_sound]
  show (read (write x).bytes >>= _) = _
  rw [hread]
  rfl

/-- A value that was read from a text has a text. -/
theorem fits_of_decodeText (h : decodeText text = .ok x) : (write x).fits = true := by
  unfold decodeText at h
  obtain ⟨⟨y, rest⟩, hread, h⟩ := except_bind_eq_ok_iff.mp h
  have hfits := Lawful.fits _ y rest hread
  -- what is still checked is that nothing is left, of the bytes and of the text
  dsimp only at h
  split at h
  · cases h
  split at h
  · cases h
  · cases h
    exact hfits

end SmartWallet.Xdr
