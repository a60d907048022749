import SmartWallet.Proofs.Authorization.Entry
import SmartWallet.Proofs.Transaction.Normalized
import SmartWallet.Proofs.Wallet.EntrySigning

set_option autoImplicit false

/-! # What signing leaves of a transaction

A transaction that is signed is taken apart, its authorizations are signed, and it is put
together and written again. `sign_frame` says what comes out: an envelope that is read as the one
that came in, but with no fee, with no signatures, and with other signature values and
expirations in the entries of the connected wallet. `AuthEntry.SignedBy` says it of one entry,
`OperationSigned` of the operation.

On the way, reading an envelope and writing one are the two halves of normalization, and between
them only the list of entries changes (`signNormalized_exec_ok`). -/

namespace SmartWallet

open Xdr

variable {σ : Type}

/-! ## Entries -/

/-- What signing for a wallet may change of an entry: if the entry is one of the wallet, its
signature value and its expiration, and nothing otherwise. -/
inductive AuthEntry.SignedBy (wallet : Option ContractAddress) (e : AuthEntry) : AuthEntry → Prop
  | same : SignedBy wallet e e
  | signed {w : ContractAddress} {a : AddressCredentials} (signature : ScVal)
      (expiration : UInt32) :
      wallet = some w → e.credentials = .address a → a.address = .contract w →
      SignedBy wallet e
        ⟨.address { a with signature := signature, expiration := expiration }, e.rootInvocation⟩

theorem AuthEntry.signedBy_addSignature {w : ContractAddress} {e e' : AuthEntry}
    {signer : SignerKey} {x : Option Signature} {expiration : UInt32}
    (hown : Client.isEntryOf w e = true) (h : e.addSignature signer x expiration = .ok e') :
    e.SignedBy (some w) e' := by
  obtain ⟨a, entries, ha, -, rfl⟩ := addSignature_eq_ok_iff.mp h
  have haddress : a.address = .contract w := by
    unfold Client.isEntryOf at hown
    rw [ha] at hown
    exact of_decide_eq_true hown
  exact .signed _ expiration rfl ha haddress

theorem AuthEntry.forall₂_signedBy_self (wallet : Option ContractAddress)
    (entries : List AuthEntry) : List.Forall₂ (AuthEntry.SignedBy wallet) entries entries :=
  List.forall₂_same.mpr fun _ _ => .same

/-! ## Operations and inputs -/

/-- What signing may change of an operation, and of the session in which it is done. -/
inductive OperationSigned (s t : SessionState σ) : OperationBody → OperationBody → Prop
  /-- The entries of the connected wallet are signed. -/
  | invocation {function : HostFunction} {auth auth' : List AuthEntry} :
      List.Forall₂ (AuthEntry.SignedBy s.wallet) auth auth' →
      OperationSigned s t (.invokeHostFunction function auth) (.invokeHostFunction function auth')
  /-- Nothing changes and nobody is asked. -/
  | extendFootprintTtl {extendTo : UInt32} :
      t = s → OperationSigned s t (.extendFootprintTtl extendTo) (.extendFootprintTtl extendTo)
  /-- Nothing changes and nobody is asked. -/
  | restoreFootprint : t = s → OperationSigned s t .restoreFootprint .restoreFootprint

/-- The envelope that is to be signed: the one that is given, or the one that the text writes. -/
def TransactionInput.Denotes (input : TransactionInput) (e : Envelope) : Prop :=
  match input with
  | .envelope given => given = e
  | .text t => decodeText t = .ok e

theorem NormalizedTransaction.ofInput_eq_ok_iff {input : TransactionInput}
    {n : NormalizedTransaction} :
    ofInput input = .ok n ↔ ∃ e, input.Denotes e ∧ ofEnvelope e = .ok n := by
  cases input with
  | envelope given =>
      constructor
      · intro h
        exact ⟨given, rfl, h⟩
      · rintro ⟨_, rfl, h⟩
        exact h
  | text t => exact ofText_eq_ok_iff

namespace Client

variable {c : Client σ} {wallet : ContractAddress} {keyId : Option Bytes} {rpId : Option String}
  {method : SignMethod} {o : SignOptions} {ledger : UInt32} {s t : SessionState σ}
  {n n' : NormalizedTransaction}

theorem SignsEach.signedBy {entries after : List AuthEntry} {exchanges : List Exchange}
    (h : c.SignsEach wallet keyId rpId ledger method entries exchanges after) :
    List.Forall₂ (AuthEntry.SignedBy (some wallet)) entries after := by
  induction h with
  | nil => exact .nil
  | other _ _ ih => exact .cons .same ih
  | own hown _ hadd _ ih => exact .cons (AuthEntry.signedBy_addSignature hown hadd) ih

theorem SigningRun.signedBy {entries after : List AuthEntry}
    (h : c.SigningRun wallet method o s entries (.ok ()) after t) :
    List.Forall₂ (AuthEntry.SignedBy (some wallet)) entries after := by
  cases h with
  | nothing _ => exact AuthEntry.forall₂_signedBy_self _ _
  | signed _ _ hsigns _ => exact hsigns.signedBy

theorem signEntries_notConnected (h : s.wallet = none) (e : AuthEntry) (rest : List AuthEntry) :
    (c.signEntries (e :: rest) method o).run s = ((.error .notConnected, e :: rest), s) := by
  have hget : (get : StateM (SessionState σ) (SessionState σ)).run s = (pure (s, s) : Id _) := rfl
  unfold signEntries
  rw [if_neg (by simp), StateT.run_bind, hget, pure_bind]
  simp only [h]
  rfl

theorem signEntries_signedBy {entries after : List AuthEntry}
    (h : (c.signEntries entries method o).run s = ((.ok (), after), t)) :
    List.Forall₂ (AuthEntry.SignedBy s.wallet) entries after := by
  cases hwallet : s.wallet with
  | none =>
      cases entries with
      | nil =>
          cases h
          exact .nil
      | cons e rest =>
          rw [signEntries_notConnected hwallet] at h
          cases h
  | some wallet =>
      obtain ⟨outcome, after', t', hrun, hsigned⟩ :=
        signFrom_none_exec c wallet method o entries s
      rw [signEntries_run hwallet, hrun] at h
      cases h
      exact hsigned.signedBy

/-! ## Normalized transactions -/

/-- Only the list of entries changes, and that only if the operation has room for entries. -/
theorem signNormalized_exec_ok (h : (c.signNormalized n method o).exec s = (.ok n', t)) :
    n' = n ∧ t = s ∧ n.action.isInvocation = false
      ∨ ∃ function auth, n.action = .invoke function ∧ n' = { n with auth := auth }
        ∧ List.Forall₂ (AuthEntry.SignedBy s.wallet) n.auth auth := by
  unfold signNormalized at h
  split at h
  · rename_i hinvocation
    obtain ⟨function, haction⟩ : ∃ function, n.action = .invoke function := by
      cases haction : n.action with
      | invoke function => exact ⟨function, rfl⟩
      | extendFootprintTtl _ => rw [haction] at hinvocation; cases hinvocation
      | restoreFootprint => rw [haction] at hinvocation; cases hinvocation
    obtain ⟨⟨outcome, auth⟩, u, hrun, h⟩ := Action.exec_bind_eq_ok_iff.mp h
    obtain ⟨_, v, houtcome, h⟩ := Action.exec_bind_eq_ok_iff.mp h
    cases h
    -- the outcome is looked at only after the entries are back, and that changes no state
    rw [Action.exec_ofExcept] at houtcome
    obtain ⟨hok, rfl⟩ := Prod.mk.inj houtcome
    rw [mapError_eq_ok_iff.mp hok, Action.exec_liftState] at hrun
    obtain ⟨hanswer, rfl⟩ := Prod.mk.inj hrun
    have hentries : (c.signEntries n.auth method o).run s = ((.ok (), auth), _) :=
      Prod.ext (Except.ok.inj hanswer) rfl
    exact .inr ⟨function, auth, haction, rfl, signEntries_signedBy hentries⟩
  · rename_i hother
    cases h
    exact .inl ⟨rfl, rfl, Bool.eq_false_iff.mpr hother⟩

theorem sign_exec_ok {input : TransactionInput} {x : String}
    (h : (c.sign input method o).exec s = (.ok x, t)) :
    ∃ n n', NormalizedTransaction.ofInput input = .ok n
      ∧ (c.signNormalized n method o).exec s = (.ok n', t) ∧ n'.text = .ok x := by
  obtain ⟨n, u, hinput, h⟩ := Action.exec_bind_eq_ok_iff.mp h
  obtain ⟨n', v, hsigned, h⟩ := Action.exec_bind_eq_ok_iff.mp h
  have hread : ((NormalizedTransaction.ofInput input).mapError WalletError.auth, s) = (.ok n, u) :=
    hinput
  have hwritten : (n'.text.mapError WalletError.auth, v) = (.ok x, t) := h
  obtain ⟨hn, hsame⟩ := Prod.mk.inj hread
  obtain ⟨hx, hlast⟩ := Prod.mk.inj hwritten
  rw [← hsame, hlast] at hsigned
  exact ⟨n, n', mapError_eq_ok_iff.mp hn, hsigned, mapError_eq_ok_iff.mp hx⟩

/-! ## Transactions -/

theorem signNormalized_body {body : OperationBody}
    (h : (c.signNormalized n method o).exec s = (.ok n', t))
    (hbody : n.action.body n.auth = some body) :
    ∃ body', n'.action.body n'.auth = some body' ∧ OperationSigned s t body body'
      ∧ n'.transactionWith body' = n.transactionWith body' := by
  rcases signNormalized_exec_ok h with ⟨rfl, rfl, hother⟩ | ⟨function, auth, haction, rfl, hsigned⟩
  · refine ⟨body, hbody, ?_, rfl⟩
    have htaken := ContractAction.ofBody_eq_ok_iff.mpr hbody
    unfold ContractAction.ofBody at htaken
    split at htaken
    · rw [← (Prod.mk.inj (Except.ok.inj htaken)).1] at hother
      cases hother
    · exact .extendFootprintTtl rfl
    · exact .restoreFootprint rfl
    · cases htaken
  · rw [haction] at hbody
    cases hbody
    refine ⟨.invokeHostFunction function auth, ?_, .invocation hsigned, rfl⟩
    show n.action.body auth = _
    rw [haction]
    rfl

/-- What is answered is read as the envelope that came in, without its fee and signatures, with one
operation whose body is signed. -/
theorem sign_frame {input : TransactionInput} {x : String}
    (h : (c.sign input method o).exec s = (.ok x, t)) :
    ∃ signed operation body, input.Denotes (.current signed)
      ∧ signed.transaction.operations = [operation]
      ∧ OperationSigned s t operation.body body
      ∧ decodeText x = .ok (Envelope.current ⟨{ signed.transaction with
        fee := 0, operations := [{ operation with body := body }] }, []⟩) := by
  obtain ⟨n, n', hinput, hsigned, hx⟩ := sign_exec_ok h
  obtain ⟨e, hdenotes, he⟩ := NormalizedTransaction.ofInput_eq_ok_iff.mp hinput
  obtain ⟨body, fee, signatures, hbody, rfl⟩ := NormalizedTransaction.ofEnvelope_eq_ok_iff.mp he
  obtain ⟨body', hbody', hoperation, hframe⟩ := signNormalized_body hsigned hbody
  obtain ⟨e', he', htext⟩ := NormalizedTransaction.text_eq_ok_iff.mp hx
  obtain ⟨_, hbody'', rfl⟩ := NormalizedTransaction.envelope_eq_ok_iff.mp he'
  -- the operation that is written is the one that was signed
  cases hbody'.symm.trans hbody''
  rw [hframe] at htext
  exact ⟨_, ⟨n.operationSource, body⟩, body', hdenotes, rfl, hoperation,
    decodeText_encodeText htext⟩

/-- A policy of the wallet is put on its entry; the entry of the token stays. -/
theorem sign_frame_sample :
    ∃ (x : String) (t : SessionState Environment) (signed : SignedTransaction)
        (operation : Operation) (body : OperationBody), (Sample.client.sign
          (.envelope (Sample.transferEnvelope
            [Sample.entry Sample.token 1, Sample.entry Sample.wallet 2]))
          (.policy Sample.recipient) ⟨some 1000, none⟩).exec Sample.connected = (.ok x, t)
      ∧ Sample.transferEnvelope [Sample.entry Sample.token 1, Sample.entry Sample.wallet 2]
        = .current signed
      ∧ signed.transaction.operations = [operation]
      ∧ OperationSigned Sample.connected t operation.body body
      ∧ decodeText x = .ok (Envelope.current ⟨{ signed.transaction with
        fee := 0, operations := [{ operation with body := body }] }, []⟩) := by
  obtain ⟨x, t, hrun⟩ := exists_of_fst_isOk (x := (Sample.client.sign
      (.envelope (Sample.transferEnvelope
        [Sample.entry Sample.token 1, Sample.entry Sample.wallet 2]))
      (.policy Sample.recipient) ⟨some 1000, none⟩).exec Sample.connected) (by decide +kernel)
  obtain ⟨signed, operation, body, hinput, hoperation, hbody, hx⟩ := sign_frame hrun
  exact ⟨x, t, signed, operation, body, hrun, hinput, hoperation, hbody, hx⟩

end Client

end SmartWallet
