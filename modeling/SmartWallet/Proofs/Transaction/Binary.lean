import SmartWallet.Proofs.Authorization.Binary
import SmartWallet.Transaction.Envelope

set_option autoImplicit false

/-! # The binary form of transactions

Operations of every kind, transactions and their envelopes are read back from what is written for
them, and can be written once they were read. -/

namespace SmartWallet

open Xdr Reader

/-! ## Smart contract operations -/

namespace HostFunction

theorem reads_write (f : HostFunction) : Reads read f.write f := by
  unfold read
  cases f with
  | invoke call =>
      rw [write]
      exact .tagged rfl (.map _ (Lawful.reads call))
  | create preimage executable =>
      rw [write, Encoding.append_assoc]
      exact .tagged rfl (.bind (Lawful.reads preimage) (.last (Lawful.reads executable)))
  | upload program =>
      rw [write]
      exact .tagged rfl (.map _ (.opaqueBytes (by decide) program))
  | createWithArgs preimage executable args =>
      simp only [write, Encoding.append_assoc]
      exact .tagged rfl (.bind (Lawful.reads preimage) (.bind (Lawful.reads executable)
        (.last (reads_list (by decide) args))))

theorem fits_read : Yields read fun f => f.write.fits = true := by
  refine .tagged fun kind => ?_
  split
  · exact Lawful.fits.map fun call h => by simp [write, h]
  · exact Lawful.fits.bind fun preimage hp => Lawful.fits.bind fun executable hx =>
      .pure (by simp [write, hp, hx])
  · exact (Yields.opaqueBytes _).map fun program h => by simp [write, h]
  · exact Lawful.fits.bind fun preimage hp => Lawful.fits.bind fun executable hx =>
      (fits_readList _).bind fun args ha => .pure (by simp [write, hp, hx, ha])
  · exact .invalid

instance : Lawful HostFunction := ⟨reads_write, fits_read⟩

end HostFunction

theorem Xdr.Reader.Reads.noExtension : Reads Reader.noExtension .noExtension () :=
  .bare rfl (.pure ())

@[simp] theorem Xdr.Encoding.fits_noExtension : noExtension.fits = true := rfl

namespace Resources

theorem reads_write (r : Resources) : Reads read r.write r := by
  simp only [write, Encoding.append_assoc]
  exact .bind .noExtension (.bind (reads_list (by decide) r.readOnly)
    (.bind (reads_list (by decide) r.readWrite) (.bind (Lawful.reads r.instructions)
      (.bind (Lawful.reads r.readBytes) (.bind (Lawful.reads r.writeBytes)
        (.last (Lawful.reads r.fee)))))))

theorem fits_read : Yields read fun r => r.write.fits = true :=
  (Yields.trivial _).bind fun _ _ => (fits_readList _).bind fun readOnly ho =>
    (fits_readList _).bind fun readWrite hw => Lawful.fits.bind fun instructions hi =>
      Lawful.fits.bind fun readBytes hr => Lawful.fits.bind fun writeBytes hb =>
        Lawful.fits.bind fun fee hf => .pure (by simp [write, ho, hw, hi, hr, hb, hf])

instance : Lawful Resources := ⟨reads_write, fits_read⟩

end Resources

/-! ## Parts of other operations -/

namespace PathPayment

theorem reads_write (p : PathPayment) : Reads read p.write p := by
  simp only [write, Encoding.append_assoc]
  exact .bind (Lawful.reads p.sendAsset) (.bind (Lawful.reads p.sendAmount)
    (.bind (Lawful.reads p.destination) (.bind (Lawful.reads p.receiveAsset)
      (.bind (Lawful.reads p.receiveAmount) (.last (reads_list (by decide) p.path))))))

theorem fits_read : Yields read fun p => p.write.fits = true :=
  Lawful.fits.bind fun sendAsset h1 => Lawful.fits.bind fun sendAmount h2 =>
    Lawful.fits.bind fun destination h3 => Lawful.fits.bind fun receiveAsset h4 =>
      Lawful.fits.bind fun receiveAmount h5 => (fits_readList _).bind fun path h6 =>
        .pure (by simp [write, h1, h2, h3, h4, h5, h6])

instance : Lawful PathPayment := ⟨reads_write, fits_read⟩

end PathPayment

namespace Offer

theorem reads_write (o : Offer) : Reads read o.write o := by
  simp only [write, Encoding.append_assoc]
  exact .bind (Lawful.reads o.selling) (.bind (Lawful.reads o.buying)
    (.bind (Lawful.reads o.amount) (.last (Lawful.reads o.price))))

theorem fits_read : Yields read fun o => o.write.fits = true :=
  Lawful.fits.bind fun selling hs => Lawful.fits.bind fun buying hb =>
    Lawful.fits.bind fun amount ha => Lawful.fits.bind fun price hp =>
      .pure (by simp [write, hs, hb, ha, hp])

instance : Lawful Offer := ⟨reads_write, fits_read⟩

end Offer

namespace WeightedSigner

theorem reads_write (s : WeightedSigner) : Reads read s.write s := by
  rw [write]
  exact .bind (Lawful.reads s.key) (.last (Lawful.reads s.weight))

theorem fits_read : Yields read fun s => s.write.fits = true :=
  Lawful.fits.bind fun key hk => Lawful.fits.bind fun weight hw => .pure (by simp [write, hk, hw])

instance : Lawful WeightedSigner := ⟨reads_write, fits_read⟩

end WeightedSigner

namespace AccountOptions

theorem reads_write (o : AccountOptions) : Reads read o.write o := by
  simp only [write, Encoding.append_assoc]
  exact .bind (.option fun key _ => Address.reads_accountKey key)
    (.bind (Lawful.reads o.clearFlags) (.bind (Lawful.reads o.setFlags)
      (.bind (Lawful.reads o.masterWeight) (.bind (Lawful.reads o.lowThreshold)
        (.bind (Lawful.reads o.mediumThreshold) (.bind (Lawful.reads o.highThreshold)
          (.bind (.option fun domain _ => .opaqueBytes (by decide) domain)
            (.last (Lawful.reads o.signer)))))))))

theorem fits_read : Yields read fun o => o.write.fits = true :=
  (Yields.option Address.fits_readAccountKey).bind fun destination h1 =>
    Lawful.fits.bind fun clear h2 => Lawful.fits.bind fun set h3 =>
      Lawful.fits.bind fun master h4 => Lawful.fits.bind fun low h5 =>
        Lawful.fits.bind fun medium h6 => Lawful.fits.bind fun high h7 =>
          (Yields.option (.opaqueBytes _)).bind fun domain h8 => Lawful.fits.bind fun signer h9 =>
            .pure (by simp [write, h1, h2, h3, h4, h5, h6, h7, h8, h9])

instance : Lawful AccountOptions := ⟨reads_write, fits_read⟩

end AccountOptions

namespace Sponsorship

theorem reads_write (s : Sponsorship) : Reads read s.write s := by
  unfold read
  cases s with
  | ledgerEntry key =>
      rw [write]
      exact .tagged rfl (.map _ (Lawful.reads key))
  | signer account key =>
      rw [write, Encoding.append_assoc]
      exact .tagged rfl (.bind (Address.reads_accountKey account) (.last (Lawful.reads key)))

theorem fits_read : Yields read fun s => s.write.fits = true := by
  refine .tagged fun kind => ?_
  split
  · exact Lawful.fits.map fun key h => by simp [write, h]
  · exact Address.fits_readAccountKey.bind fun account ha => Lawful.fits.bind fun key h =>
      .pure (by simp [write, ha, h])
  · exact .invalid

instance : Lawful Sponsorship := ⟨reads_write, fits_read⟩

end Sponsorship

/-! ## Operations -/

namespace OperationBody

/-- An operation of the first kinds is read by its number. -/
theorem reads_classic {kind : Nat} {e : Encoding} {x : OperationBody}
    (hkind : decide (kind ≤ 14) = true) (h : Reads (readClassic kind) e x) :
    Reads read (.tag kind ++ e) x := by
  have hle := of_decide_eq_true hkind
  refine .tagged (decide_eq_true (by omega)) ?_
  rw [if_pos hle]
  exact h

/-- An operation of the later kinds is read by its number. -/
theorem reads_later {kind : Nat} {e : Encoding} {x : OperationBody}
    (hkind : decide (14 < kind ∧ kind < 0x100000000) = true) (h : Reads (readLater kind) e x) :
    Reads read (.tag kind ++ e) x := by
  have hbounds := of_decide_eq_true hkind
  refine .tagged (decide_eq_true hbounds.2) ?_
  rw [if_neg (by omega)]
  exact h

theorem reads_write (x : OperationBody) : Reads read x.write x := by
  cases x with
  | createAccount destination balance =>
      rw [write, Encoding.append_assoc]
      exact reads_classic rfl (.bind (Address.reads_accountKey destination)
        (.last (Lawful.reads balance)))
  | payment destination asset amount =>
      simp only [write, Encoding.append_assoc]
      exact reads_classic rfl (.bind (Lawful.reads destination) (.bind (Lawful.reads asset)
        (.last (Lawful.reads amount))))
  | pathPaymentStrictReceive p =>
      rw [write]
      exact reads_classic rfl (.map _ (Lawful.reads p))
  | manageSellOffer o id =>
      rw [write, Encoding.append_assoc]
      exact reads_classic rfl (.bind (Lawful.reads o) (.last (Lawful.reads id)))
  | createPassiveSellOffer o =>
      rw [write]
      exact reads_classic rfl (.map _ (Lawful.reads o))
  | setOptions o =>
      rw [write]
      exact reads_classic rfl (.map _ (Lawful.reads o))
  | changeTrust line limit =>
      rw [write, Encoding.append_assoc]
      exact reads_classic rfl (.bind (Lawful.reads line) (.last (Lawful.reads limit)))
  | allowTrust trustor code authorize =>
      simp only [write, Encoding.append_assoc]
      exact reads_classic rfl (.bind (Address.reads_accountKey trustor) (.bind (Lawful.reads code)
        (.last (Lawful.reads authorize))))
  | accountMerge destination =>
      rw [write]
      exact reads_classic rfl (.map _ (Lawful.reads destination))
  | inflation =>
      rw [write, ← Encoding.append_empty (.tag 9)]
      exact reads_classic rfl (.pure _)
  | manageData name value =>
      rw [write, Encoding.append_assoc]
      exact reads_classic rfl (.bind (.opaqueBytes (by decide) name)
        (.last (.option fun b _ => .opaqueBytes (by decide) b)))
  | bumpSequence target =>
      rw [write]
      exact reads_classic rfl (.map _ (Lawful.reads target))
  | manageBuyOffer o id =>
      rw [write, Encoding.append_assoc]
      exact reads_classic rfl (.bind (Lawful.reads o) (.last (Lawful.reads id)))
  | pathPaymentStrictSend p =>
      rw [write]
      exact reads_classic rfl (.map _ (Lawful.reads p))
  | createClaimableBalance asset amount claimants =>
      simp only [write, Encoding.append_assoc]
      exact reads_classic rfl (.bind (Lawful.reads asset) (.bind (Lawful.reads amount)
        (.last (reads_list (by decide) claimants))))
  | claimClaimableBalance id =>
      rw [write]
      exact reads_later rfl (.map _ (Lawful.reads id))
  | beginSponsoringFutureReserves sponsored =>
      rw [write]
      exact reads_later rfl (.map _ (Address.reads_accountKey sponsored))
  | endSponsoringFutureReserves =>
      rw [write, ← Encoding.append_empty (.tag 17)]
      exact reads_later rfl (.pure _)
  | revokeSponsorship s =>
      rw [write]
      exact reads_later rfl (.map _ (Lawful.reads s))
  | clawback asset source amount =>
      simp only [write, Encoding.append_assoc]
      exact reads_later rfl (.bind (Lawful.reads asset) (.bind (Lawful.reads source)
        (.last (Lawful.reads amount))))
  | clawbackClaimableBalance id =>
      rw [write]
      exact reads_later rfl (.map _ (Lawful.reads id))
  | setTrustLineFlags trustor asset clear set =>
      simp only [write, Encoding.append_assoc]
      exact reads_later rfl (.bind (Address.reads_accountKey trustor) (.bind (Lawful.reads asset)
        (.bind (Lawful.reads clear) (.last (Lawful.reads set)))))
  | liquidityPoolDeposit pool maxA maxB minPrice maxPrice =>
      simp only [write, Encoding.append_assoc]
      exact reads_later rfl (.bind (Lawful.reads pool) (.bind (Lawful.reads maxA)
        (.bind (Lawful.reads maxB) (.bind (Lawful.reads minPrice)
          (.last (Lawful.reads maxPrice))))))
  | liquidityPoolWithdraw pool amount minA minB =>
      simp only [write, Encoding.append_assoc]
      exact reads_later rfl (.bind (Lawful.reads pool) (.bind (Lawful.reads amount)
        (.bind (Lawful.reads minA) (.last (Lawful.reads minB)))))
  | invokeHostFunction function auth =>
      rw [write, Encoding.append_assoc]
      exact reads_later rfl (.bind (Lawful.reads function) (.last (reads_list (by decide) auth)))
  | extendFootprintTtl extendTo =>
      rw [write, Encoding.append_assoc]
      exact reads_later rfl (.bind .noExtension (.map _ (Lawful.reads extendTo)))
  | restoreFootprint =>
      rw [write, ← Encoding.append_empty .noExtension]
      exact reads_later rfl (.bind .noExtension (.pure _))

theorem fits_readClassic (kind : Nat) : Yields (readClassic kind) fun x => x.write.fits = true := by
  have hkey := Address.fits_readAccountKey
  unfold readClassic
  -- one case for each kind, in the order of their numbers
  split
  · exact hkey.bind fun destination h1 => Lawful.fits.bind fun balance h2 =>
      .pure (by simp [write, h1, h2])
  · exact Lawful.fits.bind fun destination h1 => Lawful.fits.bind fun asset h2 =>
      Lawful.fits.bind fun amount h3 => .pure (by simp [write, h1, h2, h3])
  · exact Lawful.fits.map fun p h => by simp [write, h]
  · exact Lawful.fits.bind fun o h1 => Lawful.fits.bind fun id h2 => .pure (by simp [write, h1, h2])
  · exact Lawful.fits.map fun o h => by simp [write, h]
  · exact Lawful.fits.map fun o h => by simp [write, h]
  · exact Lawful.fits.bind fun line h1 => Lawful.fits.bind fun limit h2 =>
      .pure (by simp [write, h1, h2])
  · exact hkey.bind fun trustor h1 => Lawful.fits.bind fun code h2 =>
      Lawful.fits.bind fun authorize h3 => .pure (by simp [write, h1, h2, h3])
  · exact Lawful.fits.map fun destination h => by simp [write, h]
  · exact .pure (by simp [write])
  · exact (Yields.opaqueBytes _).bind fun name h1 =>
      (Yields.option (.opaqueBytes _)).bind fun value h2 => .pure (by simp [write, h1, h2])
  · exact Lawful.fits.map fun target h => by simp [write, h]
  · exact Lawful.fits.bind fun o h1 => Lawful.fits.bind fun id h2 => .pure (by simp [write, h1, h2])
  · exact Lawful.fits.map fun p h => by simp [write, h]
  · exact Lawful.fits.bind fun asset h1 => Lawful.fits.bind fun amount h2 =>
      (fits_readList _).bind fun claimants h3 => .pure (by simp [write, h1, h2, h3])
  · exact .invalid

theorem fits_readLater (kind : Nat) : Yields (readLater kind) fun x => x.write.fits = true := by
  have hkey := Address.fits_readAccountKey
  unfold readLater
  split
  · exact Lawful.fits.map fun id h => by simp [write, h]
  · exact hkey.map fun sponsored h => by simp [write, h]
  · exact .pure (by simp [write])
  · exact Lawful.fits.map fun s h => by simp [write, h]
  · exact Lawful.fits.bind fun asset h1 => Lawful.fits.bind fun source h2 =>
      Lawful.fits.bind fun amount h3 => .pure (by simp [write, h1, h2, h3])
  · exact Lawful.fits.map fun id h => by simp [write, h]
  · exact hkey.bind fun trustor h1 => Lawful.fits.bind fun asset h2 =>
      Lawful.fits.bind fun clear h3 => Lawful.fits.bind fun set h4 =>
        .pure (by simp [write, h1, h2, h3, h4])
  · exact Lawful.fits.bind fun pool h1 => Lawful.fits.bind fun maxA h2 =>
      Lawful.fits.bind fun maxB h3 => Lawful.fits.bind fun minPrice h4 =>
        Lawful.fits.bind fun maxPrice h5 => .pure (by simp [write, h1, h2, h3, h4, h5])
  · exact Lawful.fits.bind fun pool h1 => Lawful.fits.bind fun amount h2 =>
      Lawful.fits.bind fun minA h3 => Lawful.fits.bind fun minB h4 =>
        .pure (by simp [write, h1, h2, h3, h4])
  · exact Lawful.fits.bind fun function h1 => (fits_readList _).bind fun auth h2 =>
      .pure (by simp [write, h1, h2])
  · exact (Yields.trivial _).bind fun _ _ => Lawful.fits.map fun extendTo h => by simp [write, h]
  · exact (Yields.trivial _).bind fun _ _ => .pure (by simp [write])
  · exact .invalid

theorem fits_read : Yields read fun x => x.write.fits = true := by
  refine .tagged fun kind => ?_
  split
  · exact fits_readClassic kind
  · exact fits_readLater kind

instance : Lawful OperationBody := ⟨reads_write, fits_read⟩

end OperationBody

namespace Operation

theorem reads_write (o : Operation) : Reads read o.write o := by
  rw [write]
  exact .bind (Lawful.reads o.source) (.last (Lawful.reads o.body))

theorem fits_read : Yields read fun o => o.write.fits = true :=
  Lawful.fits.bind fun source hs => Lawful.fits.bind fun body hb => .pure (by simp [write, hs, hb])

instance : Lawful Operation := ⟨reads_write, fits_read⟩

end Operation

/-! ## Transactions -/

namespace TimeBounds

theorem reads_write (t : TimeBounds) : Reads read t.write t := by
  rw [write]
  exact .bind (Lawful.reads t.min) (.last (Lawful.reads t.max))

instance : Lawful TimeBounds := ⟨reads_write, fun _ _ _ _ => rfl⟩

end TimeBounds

namespace LedgerBounds

theorem reads_write (t : LedgerBounds) : Reads read t.write t := by
  rw [write]
  exact .bind (Lawful.reads t.min) (.last (Lawful.reads t.max))

instance : Lawful LedgerBounds := ⟨reads_write, fun _ _ _ _ => rfl⟩

end LedgerBounds

namespace Conditions

theorem reads_write (c : Conditions) : Reads read c.write c := by
  simp only [write, Encoding.append_assoc]
  exact .bind (Lawful.reads c.timeBounds) (.bind (Lawful.reads c.ledgerBounds)
    (.bind (Lawful.reads c.minSequence) (.bind (Lawful.reads c.minSequenceAge)
      (.bind (Lawful.reads c.minSequenceLedgerGap)
        (.last (reads_list (by decide) c.extraSigners))))))

theorem fits_read : Yields read fun c => c.write.fits = true :=
  Lawful.fits.bind fun timeBounds h1 => Lawful.fits.bind fun ledgerBounds h2 =>
    Lawful.fits.bind fun minSequence h3 => Lawful.fits.bind fun minSequenceAge h4 =>
      Lawful.fits.bind fun minSequenceLedgerGap h5 => (fits_readList _).bind fun signers h6 =>
        .pure (by simp [write, h1, h2, h3, h4, h5, h6])

instance : Lawful Conditions := ⟨reads_write, fits_read⟩

end Conditions

namespace Preconditions

theorem reads_write (p : Preconditions) : Reads read p.write p := by
  unfold read
  cases p with
  | none =>
      rw [write]
      exact .bare rfl (.pure _)
  | time t =>
      rw [write]
      exact .tagged rfl (.map _ (Lawful.reads t))
  | conditions c =>
      rw [write]
      exact .tagged rfl (.map _ (Lawful.reads c))

theorem fits_read : Yields read fun p => p.write.fits = true := by
  refine .tagged fun kind => ?_
  split
  · exact .pure (by simp [write])
  · exact Lawful.fits.map fun t h => by simp [write, h]
  · exact Lawful.fits.map fun c h => by simp [write, h]
  · exact .invalid

instance : Lawful Preconditions := ⟨reads_write, fits_read⟩

end Preconditions

namespace Memo

theorem reads_write (m : Memo) : Reads read m.write m := by
  unfold read
  cases m with
  | none =>
      rw [write]
      exact .bare rfl (.pure _)
  | text b =>
      rw [write]
      exact .tagged rfl (.map _ (.opaqueBytes (by decide) b))
  | id v =>
      rw [write]
      exact .tagged rfl (.map _ (Lawful.reads v))
  | hash h =>
      rw [write]
      exact .tagged rfl (.map _ (Lawful.reads h))
  | returnHash h =>
      rw [write]
      exact .tagged rfl (.map _ (Lawful.reads h))

theorem fits_read : Yields read fun m => m.write.fits = true := by
  refine .tagged fun kind => ?_
  split
  · exact .pure (by simp [write])
  · exact (Yields.opaqueBytes _).map fun b h => by simp [write, h]
  · exact Lawful.fits.map fun v h => by simp [write, h]
  · exact Lawful.fits.map fun hash h => by simp [write, h]
  · exact Lawful.fits.map fun hash h => by simp [write, h]
  · exact .invalid

instance : Lawful Memo := ⟨reads_write, fits_read⟩

end Memo

namespace Transaction

theorem reads_write (t : Transaction) : Reads read t.write t := by
  simp only [write, Encoding.append_assoc]
  exact .bind (Lawful.reads t.source) (.bind (Lawful.reads t.fee) (.bind (Lawful.reads t.sequence)
    (.bind (Lawful.reads t.preconditions) (.bind (Lawful.reads t.memo)
      (.bind (reads_list (by decide) t.operations) (.last (Lawful.reads t.resources)))))))

theorem fits_read : Yields read fun t => t.write.fits = true :=
  Lawful.fits.bind fun source h1 => Lawful.fits.bind fun fee h2 =>
    Lawful.fits.bind fun sequence h3 => Lawful.fits.bind fun preconditions h4 =>
      Lawful.fits.bind fun memo h5 => (fits_readList _).bind fun operations h6 =>
        Lawful.fits.bind fun resources h7 =>
          .pure (by simp [write, h1, h2, h3, h4, h5, h6, h7])

instance : Lawful Transaction := ⟨reads_write, fits_read⟩

end Transaction

namespace LegacyTransaction

theorem reads_write (t : LegacyTransaction) : Reads read t.write t := by
  simp only [write, Encoding.append_assoc]
  exact .bind (Lawful.reads t.source) (.bind (Lawful.reads t.fee) (.bind (Lawful.reads t.sequence)
    (.bind (Lawful.reads t.timeBounds) (.bind (Lawful.reads t.memo)
      (.bind (reads_list (by decide) t.operations) (.last .noExtension))))))

theorem fits_read : Yields read fun t => t.write.fits = true :=
  Lawful.fits.bind fun source h1 => Lawful.fits.bind fun fee h2 =>
    Lawful.fits.bind fun sequence h3 => Lawful.fits.bind fun timeBounds h4 =>
      Lawful.fits.bind fun memo h5 => (fits_readList _).bind fun operations h6 =>
        (Yields.trivial _).bind fun _ _ => .pure (by simp [write, h1, h2, h3, h4, h5, h6])

instance : Lawful LegacyTransaction := ⟨reads_write, fits_read⟩

end LegacyTransaction

namespace DecoratedSignature

theorem reads_write (s : DecoratedSignature) : Reads read s.write s := by
  rw [write]
  exact .bind (Lawful.reads s.hint) (.last (.opaqueBytes (by decide) s.signature))

theorem fits_read : Yields read fun s => s.write.fits = true :=
  Lawful.fits.bind fun hint hh => (Yields.opaqueBytes _).bind fun signature hs =>
    .pure (by simp [write, hh, hs])

instance : Lawful DecoratedSignature := ⟨reads_write, fits_read⟩

end DecoratedSignature

namespace SignedTransaction

theorem reads_write (t : SignedTransaction) : Reads read t.write t := by
  rw [write]
  exact .bind (Lawful.reads t.transaction) (.last (reads_list (by decide) t.signatures))

theorem fits_read : Yields read fun t => t.write.fits = true :=
  Lawful.fits.bind fun transaction ht => (fits_readList _).bind fun signatures hs =>
    .pure (by simp [write, ht, hs])

instance : Lawful SignedTransaction := ⟨reads_write, fits_read⟩

end SignedTransaction

/-! ## Envelopes -/

namespace Envelope

theorem reads_write (e : Envelope) : Reads read e.write e := by
  unfold read
  cases e with
  | legacy t signatures =>
      rw [write, Encoding.append_assoc]
      exact .tagged rfl (.bind (Lawful.reads t) (.last (reads_list (by decide) signatures)))
  | current t =>
      rw [write]
      exact .tagged rfl (.map _ (Lawful.reads t))
  | feeBump source fee inner signatures =>
      have hinner : Reads readInner (.tag 2 ++ Xdr.write inner) inner :=
        .tagged rfl (Lawful.reads inner)
      simp only [write, Encoding.append_assoc]
      rw [← Encoding.append_assoc (.tag 2)]
      exact .tagged rfl (.bind (Lawful.reads source) (.bind (Lawful.reads fee) (.bind hinner
        (.bind .noExtension (.last (reads_list (by decide) signatures))))))

theorem fits_readInner : Yields readInner fun t => (Xdr.write t).fits = true := by
  refine .tagged fun kind => ?_
  split
  · exact Lawful.fits
  · exact .invalid

theorem fits_read : Yields read fun e => e.write.fits = true := by
  refine .tagged fun kind => ?_
  split
  · exact Lawful.fits.bind fun t ht => (fits_readList _).bind fun signatures hs =>
      .pure (by simp [write, ht, hs])
  · exact Lawful.fits.map fun t h => by simp [write, h]
  · exact Lawful.fits.bind fun source h1 => Lawful.fits.bind fun fee h2 =>
      fits_readInner.bind fun inner h3 => (Yields.trivial _).bind fun _ _ =>
        (fits_readList _).bind fun signatures h4 => .pure (by simp [write, h1, h2, h3, h4])
  · exact .invalid

instance : Lawful Envelope := ⟨reads_write, fits_read⟩

end Envelope

end SmartWallet
