import SmartWallet.Proofs.Authorization.Binary
import SmartWallet.Proofs.Authorization.Preimage
import SmartWallet.Sample

set_option autoImplicit false

/-! # What preimages commit to

The bytes of a preimage determine it (`toBytes_inj`): they start with the number of its purpose, and
behind it stand the fields, each in a form that is not the start of another one. So a hash that was
made for one network, nonce, expiration and tree of invocations serves no other, and no hash made
for a signature names a contract. -/

namespace SmartWallet.Preimage

open Xdr

theorem toBytes_eq_ok_iff {p : Preimage} {b : Bytes} :
    p.toBytes = .ok b ↔ p.write.fits = true ∧ b = p.write.bytes := by
  unfold toBytes
  rw [mapError_eq_ok_iff]
  exact Encoding.toBytes_eq_ok_iff

/-! ## One purpose -/

theorem contractId_inj {network₁ network₂ : Bytes32} {p₁ p₂ : ContractIdPreimage}
    (h : (contractId network₁ p₁).write.bytes = (contractId network₂ p₂).write.bytes) :
    network₁ = network₂ ∧ p₁ = p₂ := by
  simp only [write, Encoding.bytes_append, List.append_assoc] at h
  have hfields := List.append_cancel_left h
  obtain ⟨hnetwork, hp⟩ := write_append_inj rfl rfl hfields
  exact ⟨hnetwork, write_inj p₁.fits_write p₂.fits_write hp⟩

theorem authorization_inj {network₁ network₂ : Bytes32} {nonce₁ nonce₂ : Int64}
    {expiration₁ expiration₂ : UInt32} {i₁ i₂ : Invocation} (h₁ : (Xdr.write i₁).fits = true)
    (h₂ : (Xdr.write i₂).fits = true)
    (h : (authorization network₁ nonce₁ expiration₁ i₁).write.bytes
      = (authorization network₂ nonce₂ expiration₂ i₂).write.bytes) :
    network₁ = network₂ ∧ nonce₁ = nonce₂ ∧ expiration₁ = expiration₂ ∧ i₁ = i₂ := by
  simp only [write, Encoding.bytes_append, List.append_assoc] at h
  -- field by field: none starts another, so each can be told from what stands behind it
  have hfields := List.append_cancel_left h
  obtain ⟨hnetwork, hfields⟩ := write_append_inj rfl rfl hfields
  obtain ⟨hnonce, hfields⟩ := write_append_inj rfl rfl hfields
  obtain ⟨hexpiration, hi⟩ := write_append_inj rfl rfl hfields
  exact ⟨hnetwork, hnonce, hexpiration, write_inj h₁ h₂ hi⟩

/-! ## Two purposes -/

theorem authorization_ne_contractId {network₁ network₂ : Bytes32} {nonce : Int64}
    {expiration : UInt32} {i : Invocation} {p : ContractIdPreimage} :
    (authorization network₁ nonce expiration i).write.bytes
      ≠ (contractId network₂ p).write.bytes := by
  intro h
  simp only [write, Encoding.bytes_append, List.append_assoc] at h
  -- the numbers of the purposes have four bytes each, so they would be the same
  have hpurpose := (List.append_inj h (by simp)).1
  exact absurd hpurpose (by decide)

/-- The bytes of a preimage determine it. -/
theorem toBytes_inj {p q : Preimage} {b : Bytes} (hp : p.toBytes = .ok b) (hq : q.toBytes = .ok b) :
    p = q := by
  obtain ⟨hpfits, hpbytes⟩ := toBytes_eq_ok_iff.mp hp
  obtain ⟨hqfits, hqbytes⟩ := toBytes_eq_ok_iff.mp hq
  have hbytes := hpbytes.symm.trans hqbytes
  cases p with
  | contractId network preimage =>
      cases q with
      | contractId network' preimage' =>
          obtain ⟨rfl, rfl⟩ := contractId_inj hbytes
          rfl
      | authorization network' nonce expiration invocation =>
          exact absurd hbytes.symm authorization_ne_contractId
  | authorization network nonce expiration invocation =>
      cases q with
      | contractId network' preimage =>
          exact absurd hbytes authorization_ne_contractId
      | authorization network' nonce' expiration' invocation' =>
          rw [write, Encoding.fits_append, Bool.and_eq_true] at hpfits hqfits
          obtain ⟨rfl, rfl, rfl, rfl⟩ := authorization_inj hpfits.2 hqfits.2 hbytes
          rfl

theorem exists_toBytes_authorization (passphrase : String) (nonce : Int64) (expiration : UInt32)
    {i : Invocation} (h : (Xdr.write i).fits = true) :
    ∃ b, (authorizationPreimage passphrase nonce expiration i).toBytes = .ok b :=
  ⟨_, toBytes_authorization_eq_ok_iff.mpr ⟨h, rfl⟩⟩

theorem exists_toBytes_contractId (network : Bytes32) (p : ContractIdPreimage) :
    ∃ b, (contractId network p).toBytes = .ok b := by
  have hp : (Xdr.write p).fits = true := p.fits_write
  refine ⟨_, toBytes_eq_ok_iff.mpr ⟨?_, rfl⟩⟩
  rw [write, Encoding.fits_append, hp]
  rfl

end SmartWallet.Preimage

namespace SmartWallet

open Preimage

/-! ## What is signed and what is hashed -/

/-- Preimages that are signed have bytes, from which all that they were made of can be told; so have
those of contracts that are deployed, and none of the former has the bytes of one that names a
contract. -/
theorem preimages_commit {i₁ i₂ : Invocation} (h₁ : (Xdr.write i₁).fits = true)
    (h₂ : (Xdr.write i₂).fits = true) (passphrase₁ passphrase₂ : String) :
    (∀ (nonce₁ nonce₂ : Int64) (expiration₁ expiration₂ : UInt32), ∃ b₁ b₂,
      (authorizationPreimage passphrase₁ nonce₁ expiration₁ i₁).toBytes = .ok b₁
        ∧ (authorizationPreimage passphrase₂ nonce₂ expiration₂ i₂).toBytes = .ok b₂
        ∧ (b₁ = b₂ → networkId passphrase₁ = networkId passphrase₂ ∧ nonce₁ = nonce₂
          ∧ expiration₁ = expiration₂ ∧ i₁ = i₂))
      ∧ (∀ (deployer₁ deployer₂ : Address) (salt₁ salt₂ : Bytes32), ∃ b₁ b₂,
        (deploymentPreimage passphrase₁ deployer₁ salt₁).toBytes = .ok b₁
          ∧ (deploymentPreimage passphrase₂ deployer₂ salt₂).toBytes = .ok b₂
          ∧ (b₁ = b₂ → networkId passphrase₁ = networkId passphrase₂ ∧ deployer₁ = deployer₂
            ∧ salt₁ = salt₂))
      ∧ ∀ (nonce : Int64) (expiration : UInt32) (network : Bytes32) (p : ContractIdPreimage),
        ∃ b₁ b₂, (authorizationPreimage passphrase₁ nonce expiration i₁).toBytes = .ok b₁
          ∧ (contractId network p).toBytes = .ok b₂ ∧ b₁ ≠ b₂ := by
  refine ⟨?authorizations, ?deployments, ?purposes⟩
  case authorizations =>
    intro nonce₁ nonce₂ expiration₁ expiration₂
    obtain ⟨b₁, hb₁⟩ := exists_toBytes_authorization passphrase₁ nonce₁ expiration₁ h₁
    obtain ⟨b₂, hb₂⟩ := exists_toBytes_authorization passphrase₂ nonce₂ expiration₂ h₂
    refine ⟨b₁, b₂, hb₁, hb₂, ?_⟩
    rintro rfl
    have hsame := toBytes_inj hb₁ hb₂
    exact authorization.inj hsame
  case deployments =>
    intro deployer₁ deployer₂ salt₁ salt₂
    obtain ⟨b₁, hb₁⟩ :=
      exists_toBytes_contractId (networkId passphrase₁) (.address deployer₁ salt₁)
    obtain ⟨b₂, hb₂⟩ :=
      exists_toBytes_contractId (networkId passphrase₂) (.address deployer₂ salt₂)
    refine ⟨b₁, b₂, hb₁, hb₂, ?_⟩
    rintro rfl
    have hsame := contractId.inj (toBytes_inj hb₁ hb₂)
    exact ⟨hsame.1, ContractIdPreimage.address.inj hsame.2⟩
  case purposes =>
    intro nonce expiration network p
    obtain ⟨b₁, hb₁⟩ := exists_toBytes_authorization passphrase₁ nonce expiration h₁
    obtain ⟨b₂, hb₂⟩ := exists_toBytes_contractId network p
    refine ⟨b₁, b₂, hb₁, hb₂, ?_⟩
    rintro rfl
    exact nomatch toBytes_inj hb₁ hb₂

/-- The transfer of the sample and the one that invokes itself once
more commit to different bytes. -/
theorem preimages_commit_sample :
    (Xdr.write Sample.invocation).fits = true
      ∧ (Xdr.write (Invocation.mk (.call Sample.transfer) [Sample.invocation])).fits = true
      ∧ ∃ b₁ b₂, (authorizationPreimage "a" 7 1000 Sample.invocation).toBytes = .ok b₁
        ∧ (authorizationPreimage "a" 7 1000
          (.mk (.call Sample.transfer) [Sample.invocation])).toBytes = .ok b₂ ∧ b₁ ≠ b₂ := by
  have h₁ : (Xdr.write Sample.invocation).fits = true := by decide +kernel
  have h₂ :
      (Xdr.write (Invocation.mk (.call Sample.transfer) [Sample.invocation])).fits = true := by
    decide +kernel
  obtain ⟨b₁, b₂, hb₁, hb₂, hinj⟩ := (preimages_commit h₁ h₂ "a" "a").1 7 7 1000 1000
  refine ⟨h₁, h₂, b₁, b₂, hb₁, hb₂, fun hsame => ?_⟩
  exact absurd (hinj hsame).2.2.2 (by decide)

end SmartWallet
