import Mathlib.Data.UInt
import SmartWallet.Bytes

set_option autoImplicit false

/-! # Texts as bytes

A text and its bytes determine each other. As long as the characters are of ASCII each stands for
one byte, and bytes of ASCII can come from no other characters. -/

namespace SmartWallet.Bytes

/-- The bytes of a text spell the text. -/
@[simp] theorem toString?_ofString (s : String) : toString? (ofString s) = some s := by
  unfold toString? ofString String.fromUTF8?
  exact dif_pos s.isValidUTF8

theorem ofString_inj {a b : String} : ofString a = ofString b ↔ a = b := by
  constructor
  · intro h
    have hdata : a.toUTF8.data = b.toUTF8.data := Array.toList_inj.mp h
    exact String.toByteArray_inj.mp (ByteArray.ext hdata)
  · rintro rfl
    rfl

/-! ## Characters of ASCII -/

variable {chars : List Char} {b : Bytes}

theorem toUInt8_toChar (x : UInt8) : x.toChar.toUInt8 = x := UInt8.toUInt8_toUInt32 x

theorem ofString_ofList (chars : List Char) :
    ofString (String.ofList chars) = chars.flatMap String.utf8EncodeChar := by
  unfold ofString String.toUTF8
  rw [String.toByteArray_ofList]
  exact List.toList_data_toByteArray

/-- Each character of ASCII is one byte. -/
theorem ofString_ofList_of_lt (h : ∀ c ∈ chars, c.toNat < 128) :
    ofString (String.ofList chars) = chars.map Char.toUInt8 := by
  rw [ofString_ofList]
  induction chars with
  | nil => rfl
  | cons c rest ih =>
      obtain ⟨hc, hrest⟩ := List.forall_mem_cons.mp h
      have hsize : c.utf8Size = 1 := Char.utf8Size_eq_one_iff.mpr (Nat.le_of_lt_succ hc)
      rw [List.flatMap_cons, String.utf8EncodeChar_eq_singleton hsize, ih hrest]
      rfl

/-- Bytes of ASCII come from the characters that they stand for. -/
theorem eq_map_toChar (hb : ofString (String.ofList chars) = b) (h : ∀ x ∈ b, x.toNat < 128) :
    chars = b.map UInt8.toChar := by
  have hlt : ∀ c ∈ b.map UInt8.toChar, c.toNat < 128 := by
    intro c hc
    obtain ⟨x, hx, rfl⟩ := List.mem_map.mp hc
    exact h x hx
  have hback : ofString (String.ofList (b.map UInt8.toChar)) = b := by
    rw [ofString_ofList_of_lt hlt, List.map_map]
    exact (List.map_congr_left fun x _ => toUInt8_toChar x).trans (List.map_id b)
  exact String.ofList_injective (ofString_inj.mp (hb.trans hback.symm))

end SmartWallet.Bytes
