import SmartWallet.Authorization.Entry
import SmartWallet.Proofs.Transaction.Account

set_option autoImplicit false

/-! # The binary form of authorizations

Functions, the trees of invocations and entries are read back from what is written for them, and can
be written once they were read. For trees the induction is on the depth to which the reader goes:
the number of invocations below a root takes four bytes, so a depth that is enough for a tree leaves
enough for what its root invokes. -/

namespace SmartWallet

open Xdr Reader

/-! ## Functions -/

namespace ContractCall

theorem reads_write (c : ContractCall) : Reads read c.write c := by
  rw [write, Encoding.append_assoc]
  exact .bind (Lawful.reads c.contract) (.bind (.opaqueBytes (by decide) c.function)
    (.last (reads_list (by decide) c.args)))

theorem fits_read : Yields read fun c => c.write.fits = true :=
  Lawful.fits.bind fun contract hc => (Yields.opaqueBytes _).bind fun function hf =>
    (fits_readList _).bind fun args ha => .pure (by simp [write, hc, hf, ha])

instance : Lawful ContractCall := ⟨reads_write, fits_read⟩

end ContractCall

namespace ContractIdPreimage

theorem reads_write (p : ContractIdPreimage) : Reads read p.write p := by
  unfold read
  cases p with
  | address deployer salt =>
      rw [write, Encoding.append_assoc]
      exact .tagged rfl (.bind (Lawful.reads deployer) (.last (Lawful.reads salt)))
  | asset a =>
      rw [write]
      exact .tagged rfl (.map _ (Lawful.reads a))

theorem fits_write (p : ContractIdPreimage) : p.write.fits = true := by
  cases p with
  | address deployer salt =>
      have hdeployer : (Xdr.write deployer).fits = true := deployer.fits_write
      rw [write, Encoding.fits_append, Encoding.fits_append, hdeployer]
      rfl
  | asset a =>
      have ha : (Xdr.write a).fits = true := a.fits_write
      rw [write, Encoding.fits_append, ha]
      rfl

instance : Lawful ContractIdPreimage := ⟨reads_write, fun _ p _ _ => fits_write p⟩

end ContractIdPreimage

namespace AuthorizedFunction

theorem reads_write (f : AuthorizedFunction) : Reads read f.write f := by
  unfold read
  cases f with
  | call c =>
      rw [write]
      exact .tagged rfl (.map _ (Lawful.reads c))
  | create preimage executable =>
      rw [write, Encoding.append_assoc]
      exact .tagged rfl (.bind (Lawful.reads preimage) (.last (Lawful.reads executable)))
  | createWithArgs preimage executable args =>
      simp only [write, Encoding.append_assoc]
      exact .tagged rfl (.bind (Lawful.reads preimage) (.bind (Lawful.reads executable)
        (.last (reads_list (by decide) args))))

theorem fits_read : Yields read fun f => f.write.fits = true := by
  refine .tagged fun kind => ?_
  split
  · exact Lawful.fits.map fun c h => by simp [write, h]
  · exact Lawful.fits.bind fun preimage hp => Lawful.fits.bind fun executable hx =>
      .pure (by simp [write, hp, hx])
  · exact Lawful.fits.bind fun preimage hp => Lawful.fits.bind fun executable hx =>
      (fits_readList _).bind fun args ha => .pure (by simp [write, hp, hx, ha])
  · exact .invalid

instance : Lawful AuthorizedFunction := ⟨reads_write, fits_read⟩

end AuthorizedFunction

/-! ## Trees -/

namespace Invocation

theorem writeList_eq (l : List Invocation) : writeList l = .concat write l := by
  induction l with
  | nil => rw [writeList, Encoding.concat]
  | cons x rest ih => rw [writeList, Encoding.concat, ih]

theorem write_mk (f : AuthorizedFunction) (subs : List Invocation) :
    write (.mk f subs) = Xdr.write f ++ .list maxLength write subs := by
  rw [write, Encoding.append_assoc, writeList_eq, Encoding.list]

theorem reads_write (depth : Nat) (x : Invocation) (hdepth : x.write.bytes.length ≤ depth) :
    Reads (readWithin depth) x.write x := by
  induction depth generalizing x with
  | zero =>
      obtain ⟨f, subs⟩ := x
      rw [write_mk] at hdepth
      simp [Encoding.list, Encoding.length] at hdepth
  | succ depth ih =>
      obtain ⟨f, subs⟩ := x
      rw [write_mk] at hdepth ⊢
      refine .bind (Lawful.reads f) (.last (.list (by decide) fun y hy => ih y ?_))
      -- the number of invocations stands in front of them
      have hlength : y.write.bytes.length < (Encoding.list maxLength write subs).bytes.length :=
        Encoding.length_lt_length_list hy
      rw [Encoding.length_bytes_append] at hdepth
      omega

theorem fits_readWithin (depth : Nat) :
    Yields (readWithin depth) fun x => x.write.fits = true := by
  induction depth with
  | zero => exact .throw _
  | succ depth ih =>
      exact Lawful.fits.bind fun f hf => (Yields.list maxLength ih).bind fun subs hs =>
        .pure (by rw [write_mk, Encoding.fits_append, hf, hs]; rfl)

instance : Lawful Invocation where
  reads x := .sized fun depth hdepth => reads_write depth x hdepth
  fits := .sized fits_readWithin

end Invocation

/-! ## Entries -/

namespace AddressCredentials

theorem reads_write (c : AddressCredentials) : Reads read c.write c := by
  simp only [write, Encoding.append_assoc]
  exact .bind (Lawful.reads c.address) (.bind (Lawful.reads c.nonce)
    (.bind (Lawful.reads c.expiration) (.last (Lawful.reads c.signature))))

theorem fits_read : Yields read fun c => c.write.fits = true :=
  Lawful.fits.bind fun address ha => Lawful.fits.bind fun nonce hn =>
    Lawful.fits.bind fun expiration he => Lawful.fits.bind fun signature hs =>
      .pure (by simp [write, ha, hn, he, hs])

instance : Lawful AddressCredentials := ⟨reads_write, fits_read⟩

end AddressCredentials

namespace Credentials

theorem reads_write (c : Credentials) : Reads read c.write c := by
  unfold read
  cases c with
  | sourceAccount =>
      rw [write]
      exact .bare rfl (.pure _)
  | address a =>
      rw [write]
      exact .tagged rfl (.map _ (Lawful.reads a))

theorem fits_read : Yields read fun c => c.write.fits = true := by
  refine .tagged fun kind => ?_
  split
  · exact .pure (by simp [write])
  · exact Lawful.fits.map fun a h => by simp [write, h]
  · exact .invalid

instance : Lawful Credentials := ⟨reads_write, fits_read⟩

end Credentials

namespace AuthEntry

theorem reads_write (e : AuthEntry) : Reads read e.write e := by
  rw [write]
  exact .bind (Lawful.reads e.credentials) (.last (Lawful.reads e.rootInvocation))

theorem fits_read : Yields read fun e => e.write.fits = true :=
  Lawful.fits.bind fun credentials hc => Lawful.fits.bind fun invocation hi =>
    .pure (by simp [write, hc, hi])

instance : Lawful AuthEntry := ⟨reads_write, fits_read⟩

end AuthEntry

end SmartWallet
