import SmartWallet.Proofs.ScVal.Binary
import SmartWallet.Transaction.Account
import SmartWallet.Transaction.LedgerKey

set_option autoImplicit false

/-! # The binary form of accounts, assets and ledger keys

Accounts and their signers, assets, claimable balances and the keys of the ledger are read back from
what is written for them, and can be written once they were read. Most of them hold only parts of a
fixed length, so they can always be written. The conditions of a claim form a tree, and the
induction for them is on the depth of the reader, as for contract values. -/

namespace SmartWallet

open Xdr Reader

/-! ## Accounts -/

namespace MuxedAccount

theorem reads_write (a : MuxedAccount) : Reads read a.write a := by
  unfold read
  cases a with
  | account key =>
      rw [write]
      exact .tagged rfl (.map _ (Lawful.reads key))
  | user id key =>
      rw [write, Encoding.append_assoc]
      exact .tagged rfl (.bind (Lawful.reads id) (.last (Lawful.reads key)))

theorem fits_write (a : MuxedAccount) : a.write.fits = true := by
  cases a <;> rfl

instance : Lawful MuxedAccount := ⟨reads_write, fun _ a _ _ => fits_write a⟩

end MuxedAccount

namespace AccountSigner

theorem reads_write (x : AccountSigner) : Reads read x.write x := by
  unfold read
  cases x with
  | ed25519 key =>
      rw [write]
      exact .tagged rfl (.map _ (Lawful.reads key))
  | preAuthTransaction hash =>
      rw [write]
      exact .tagged rfl (.map _ (Lawful.reads hash))
  | hashX hash =>
      rw [write]
      exact .tagged rfl (.map _ (Lawful.reads hash))
  | signedPayload key payload =>
      rw [write, Encoding.append_assoc]
      exact .tagged rfl (.bind (Lawful.reads key) (.last (.opaqueBytes (by decide) payload)))

theorem fits_read : Yields read fun x => x.write.fits = true := by
  refine .tagged fun kind => ?_
  split
  · exact Lawful.fits.map fun key h => by simp [write, h]
  · exact Lawful.fits.map fun hash h => by simp [write, h]
  · exact Lawful.fits.map fun hash h => by simp [write, h]
  · exact Lawful.fits.bind fun key hk => (Yields.opaqueBytes _).bind fun payload h =>
      .pure (by simp [write, hk, h])
  · exact .invalid

instance : Lawful AccountSigner := ⟨reads_write, fits_read⟩

end AccountSigner

/-! ## Assets -/

namespace Asset

/-- An asset is read, also where further variants could stand in its place. -/
theorem reads_among {α : Type} {g : Asset → α} {f : Nat → Reader α} (a : Asset)
    (hf : ∀ v ≤ 2, f v = g <$> readVariant v) : Reads (Reader.tag >>= f) a.write (g a) := by
  cases a with
  | native =>
      rw [write]
      refine .bare rfl ?_
      rw [hf 0 (by decide)]
      exact .map g (.pure _)
  | alphanum4 code issuer =>
      rw [write, Encoding.append_assoc]
      refine .tagged rfl ?_
      rw [hf 1 (by decide)]
      exact .map g (.bind (Lawful.reads code) (.last (Address.reads_accountKey issuer)))
  | alphanum12 code issuer =>
      rw [write, Encoding.append_assoc]
      refine .tagged rfl ?_
      rw [hf 2 (by decide)]
      exact .map g (.bind (Lawful.reads code) (.last (Address.reads_accountKey issuer)))

theorem reads_write (a : Asset) : Reads read a.write a :=
  a.reads_among (g := id) fun v _ => (id_map (readVariant v)).symm

theorem fits_write (a : Asset) : a.write.fits = true := by
  cases a <;> rfl

instance : Lawful Asset := ⟨reads_write, fun _ a _ _ => fits_write a⟩

end Asset

namespace AssetCode

theorem reads_write (c : AssetCode) : Reads read c.write c := by
  unfold read
  cases c with
  | alphanum4 code =>
      rw [write]
      exact .tagged rfl (.map _ (Lawful.reads code))
  | alphanum12 code =>
      rw [write]
      exact .tagged rfl (.map _ (Lawful.reads code))

theorem fits_write (c : AssetCode) : c.write.fits = true := by
  cases c <;> rfl

instance : Lawful AssetCode := ⟨reads_write, fun _ c _ _ => fits_write c⟩

end AssetCode

namespace TrustLineAsset

theorem reads_write (t : TrustLineAsset) : Reads read t.write t := by
  unfold read
  cases t with
  | asset a =>
      rw [write]
      refine a.reads_among fun v hv => ?_
      split
      · omega
      · rfl
  | poolShare pool =>
      rw [write]
      exact .tagged rfl (.map _ (Lawful.reads pool))

theorem fits_write (t : TrustLineAsset) : t.write.fits = true := by
  cases t with
  | asset a => exact a.fits_write
  | poolShare pool => rfl

instance : Lawful TrustLineAsset := ⟨reads_write, fun _ t _ _ => fits_write t⟩

end TrustLineAsset

namespace ChangeTrustAsset

theorem reads_write (t : ChangeTrustAsset) : Reads read t.write t := by
  unfold read
  cases t with
  | asset a =>
      rw [write]
      refine a.reads_among fun v hv => ?_
      split
      · omega
      · rfl
  | poolShare a b fee =>
      simp only [write, Encoding.append_assoc]
      exact .tagged rfl (.tagged rfl (.bind (Lawful.reads a) (.bind (Lawful.reads b)
        (.last (Lawful.reads fee)))))

theorem fits_write (t : ChangeTrustAsset) : t.write.fits = true := by
  cases t with
  | asset a => exact a.fits_write
  | poolShare a b fee =>
      have ha : (Xdr.write a).fits = true := a.fits_write
      have hb : (Xdr.write b).fits = true := b.fits_write
      simp only [write, Encoding.fits_append, ha, hb]
      rfl

instance : Lawful ChangeTrustAsset := ⟨reads_write, fun _ t _ _ => fits_write t⟩

end ChangeTrustAsset

namespace Price

theorem reads_write (p : Price) : Reads read p.write p := by
  rw [write]
  exact .bind (Lawful.reads p.n) (.last (Lawful.reads p.d))

instance : Lawful Price := ⟨reads_write, fun _ _ _ _ => rfl⟩

end Price

/-! ## Claimable balances -/

namespace ClaimPredicate

theorem writeList_eq (l : List ClaimPredicate) : writeList l = .concat write l := by
  induction l with
  | nil => rw [writeList, Encoding.concat]
  | cons p rest ih => rw [writeList, Encoding.concat, ih]

theorem writeOption_eq (p : Option ClaimPredicate) : writeOption p = .option write p := by
  cases p with
  | none => rw [writeOption, Encoding.option]
  | some p => rw [writeOption, Encoding.option]

/-- Conditions that are joined, with their number in front. -/
theorem length_append_writeList (l : List ClaimPredicate) :
    Encoding.length maxJoined l.length ++ writeList l = .list maxJoined write l := by
  rw [writeList_eq, Encoding.list]

theorem reads_joined {r : Reader ClaimPredicate} {bound : Nat} {l : List ClaimPredicate}
    (h : ∀ p : ClaimPredicate, p.write.bytes.length ≤ bound → Reads r p.write p)
    (hbound : (Encoding.list maxJoined write l).bytes.length ≤ bound) :
    Reads (.list maxJoined r) (.list maxJoined write l) l := by
  refine .list (by decide) fun p hp => h p ?_
  exact Nat.le_of_lt (Nat.lt_of_lt_of_le (Encoding.length_lt_length_list hp) hbound)

theorem reads_write (depth : Nat) (p : ClaimPredicate) (hdepth : p.write.bytes.length ≤ depth) :
    Reads (readWithin depth) p.write p := by
  induction depth generalizing p with
  | zero =>
      -- every form has the four bytes of its kind
      cases p <;> simp [write] at hdepth
  | succ depth ih =>
      unfold readWithin
      cases p with
      | unconditional =>
          rw [write]
          exact .bare rfl (.pure _)
      | and all =>
          rw [write, Encoding.append_assoc, length_append_writeList] at hdepth ⊢
          exact .tagged rfl (.map _ (reads_joined ih (Encoding.length_le_of_tag_append hdepth)))
      | or any =>
          rw [write, Encoding.append_assoc, length_append_writeList] at hdepth ⊢
          exact .tagged rfl (.map _ (reads_joined ih (Encoding.length_le_of_tag_append hdepth)))
      | not condition =>
          rw [write, writeOption_eq] at hdepth ⊢
          refine .tagged rfl (.map _ (.option fun p hp => ih p ?_))
          subst hp
          exact Nat.le_of_lt (Nat.lt_of_lt_of_le Encoding.length_lt_length_option
            (Encoding.length_le_of_tag_append hdepth))
      | beforeAbsoluteTime time =>
          rw [write]
          exact .tagged rfl (.map _ (Lawful.reads time))
      | beforeRelativeTime span =>
          rw [write]
          exact .tagged rfl (.map _ (Lawful.reads span))

theorem fits_readWithin (depth : Nat) :
    Yields (readWithin depth) fun p => p.write.fits = true := by
  induction depth with
  | zero => exact .throw _
  | succ depth ih =>
      have hjoined := Yields.list maxJoined ih
      simp only [← length_append_writeList, Encoding.fits_append, Encoding.fits_length,
        Bool.and_eq_true, decide_eq_true_iff] at hjoined
      have hoption := Yields.option ih
      simp only [← writeOption_eq] at hoption
      -- one case for each kind, in the order of their numbers
      refine .tagged fun kind => ?_
      split
      · exact .pure (by simp [write])
      · exact hjoined.map fun all h => by simp [write, h]
      · exact hjoined.map fun any h => by simp [write, h]
      · exact hoption.map fun condition h => by simp [write, h]
      · exact Lawful.fits.map fun time h => by simp [write, h]
      · exact Lawful.fits.map fun span h => by simp [write, h]
      · exact .invalid

instance : Lawful ClaimPredicate where
  reads p := .sized fun depth hdepth => reads_write depth p hdepth
  fits := .sized fits_readWithin

end ClaimPredicate

namespace Claimant

theorem reads_write (c : Claimant) : Reads read c.write c := by
  rw [write, Encoding.append_assoc]
  exact .tagged rfl (.bind (Address.reads_accountKey c.account) (.last (Lawful.reads c.predicate)))

theorem fits_read : Yields read fun c => c.write.fits = true := by
  refine .tagged fun kind => ?_
  split
  · exact Address.fits_readAccountKey.bind fun account ha => Lawful.fits.bind fun predicate h =>
      .pure (by simp [write, ha, h])
  · exact .invalid

instance : Lawful Claimant := ⟨reads_write, fits_read⟩

end Claimant

namespace ClaimableBalanceId

theorem reads_write (b : ClaimableBalanceId) : Reads read b.write b := by
  rw [write]
  exact .tagged rfl (.map _ (Lawful.reads b.hash))

instance : Lawful ClaimableBalanceId := ⟨reads_write, fun _ _ _ _ => rfl⟩

end ClaimableBalanceId

/-! ## Keys of the ledger -/

namespace Durability

theorem reads_write (d : Durability) : Reads read d.write d := by
  unfold read
  cases d with
  | temporary =>
      rw [write]
      exact .bare rfl (.pure _)
  | persistent =>
      rw [write]
      exact .bare rfl (.pure _)

theorem fits_write (d : Durability) : d.write.fits = true := by
  cases d <;> rfl

instance : Lawful Durability := ⟨reads_write, fun _ d _ _ => fits_write d⟩

end Durability

namespace LedgerKey

theorem reads_write (k : LedgerKey) : Reads read k.write k := by
  unfold read
  cases k with
  | account key =>
      rw [write]
      exact .tagged rfl (.map _ (Address.reads_accountKey key))
  | trustLine owner asset =>
      rw [write, Encoding.append_assoc]
      exact .tagged rfl (.bind (Address.reads_accountKey owner) (.last (Lawful.reads asset)))
  | offer seller id =>
      rw [write, Encoding.append_assoc]
      exact .tagged rfl (.bind (Address.reads_accountKey seller) (.last (Lawful.reads id)))
  | data owner name =>
      rw [write, Encoding.append_assoc]
      exact .tagged rfl
        (.bind (Address.reads_accountKey owner) (.last (.opaqueBytes (by decide) name)))
  | claimableBalance id =>
      rw [write]
      exact .tagged rfl (.map _ (Lawful.reads id))
  | liquidityPool id =>
      rw [write]
      exact .tagged rfl (.map _ (Lawful.reads id))
  | contractData contract key durability =>
      simp only [write, Encoding.append_assoc]
      exact .tagged rfl (.bind (Lawful.reads contract) (.bind (Lawful.reads key)
        (.last (Lawful.reads durability))))
  | contractCode digest =>
      rw [write]
      exact .tagged rfl (.map _ (Lawful.reads digest))
  | configSetting id =>
      rw [write]
      exact .tagged rfl (.map _ (.index (by decide) id))
  | ttl keyHash =>
      rw [write]
      exact .tagged rfl (.map _ (Lawful.reads keyHash))

theorem fits_read : Yields read fun k => k.write.fits = true := by
  have hkey := Address.fits_readAccountKey
  refine .tagged fun kind => ?_
  split
  · exact hkey.map fun key h => by simp [write, h]
  · exact hkey.bind fun owner ho => Lawful.fits.bind fun asset h => .pure (by simp [write, ho, h])
  · exact hkey.bind fun seller hs => Lawful.fits.bind fun id h => .pure (by simp [write, hs, h])
  · exact hkey.bind fun owner ho => (Yields.opaqueBytes _).bind fun name h =>
      .pure (by simp [write, ho, h])
  · exact Lawful.fits.map fun id h => by simp [write, h]
  · exact Lawful.fits.map fun id h => by simp [write, h]
  · exact Lawful.fits.bind fun contract hc => Lawful.fits.bind fun key hk =>
      Lawful.fits.bind fun durability hd => .pure (by simp [write, hc, hk, hd])
  · exact Lawful.fits.map fun digest h => by simp [write, h]
  · exact (Yields.trivial _).map fun id _ => by simp [write]
  · exact Lawful.fits.map fun keyHash h => by simp [write, h]
  · exact .invalid

instance : Lawful LedgerKey := ⟨reads_write, fits_read⟩

end LedgerKey

end SmartWallet
