import SmartWallet.Proofs.Wallet.Action
import SmartWallet.Wallet.Command

set_option autoImplicit false

/-! # What a part of a session asks for

Two relations between a state and a later one say what a session can do. After `Follows P` the
default passkey and the wallet are what they were, and the requests made in between are of the kind
`P`, which may speak of the default passkey; signing, looking things up and attaching policies are
of this sort. After `Grows P` there can be a default passkey or a wallet that was not there before,
but none is gone, and a default passkey is the same one for good; every command is of this sort.

Both hold over no step and over one step after the other, so both pass from the steps of a
computation to the whole of it: `Leads R x` says that `R` holds from the start to the end of every
run of `x`, and has one lemma for each way to put computations together. -/

namespace SmartWallet

open WebAuthn

variable {σ α β ε : Type}

/-! ## Relations along runs -/

/-- A relation that holds over no step, and over one step after the other. -/
class Chains (R : SessionState σ → SessionState σ → Prop) : Prop where
  refl : ∀ s, R s s
  trans : ∀ {s t u}, R s t → R t u → R s u

/-- The relation holds from the start to the end of every run. -/
def Leads (R : SessionState σ → SessionState σ → Prop) (x : StateM (SessionState σ) α) : Prop :=
  ∀ s, R s (x.run s).2

namespace Leads

variable {R : SessionState σ → SessionState σ → Prop}

theorem map (f : α → β) {x : StateM (SessionState σ) α} (hx : Leads R x) : Leads R (f <$> x) :=
  fun s => hx s

theorem liftState {x : StateM (SessionState σ) α} (hx : Leads R x) :
    Leads R (liftM x : Action σ α).run := fun s => hx s

variable [Chains R]

theorem pure (a : α) : Leads R (Pure.pure a : StateM (SessionState σ) α) := Chains.refl

theorem bind {x : StateM (SessionState σ) α} {f : α → StateM (SessionState σ) β} (hx : Leads R x)
    (hf : ∀ a, Leads R (f a)) : Leads R (x >>= f) := by
  intro s
  rw [StateT.run_bind]
  exact Chains.trans (hx s) (hf _ _)

theorem get : Leads R (MonadState.get : StateM (SessionState σ) (SessionState σ)) := Chains.refl

/-! Actions, which may fail. -/

theorem action_pure (a : α) : Leads R (Pure.pure a : Action σ α).run := Chains.refl

theorem action_get : Leads R (MonadState.get : Action σ (SessionState σ)).run := Chains.refl

theorem throw (e : WalletError) : Leads R (MonadExcept.throw e : Action σ α).run := Chains.refl

theorem ofExcept (fail : ε → WalletError) (x : Except ε α) :
    Leads R (Action.ofExcept fail x : Action σ α).run := Chains.refl

theorem liftExcept (x : Except AuthError α) : Leads R (liftM x : Action σ α).run := Chains.refl

/-- A sequence goes on in the state that its first part leaves, and not at all when that fails. -/
theorem exec_bind_rest {x : Action σ α} {f : α → Action σ β} {s : SessionState σ}
    (hf : ∀ a, R (x.exec s).2 ((f a).exec (x.exec s).2).2) :
    R (x.exec s).2 ((x >>= f).exec s).2 := by
  rw [Action.exec_bind]
  rcases hrun : x.exec s with ⟨r, t⟩
  rw [hrun] at hf
  cases r with
  | error e => exact Chains.refl t
  | ok a => exact hf a

theorem exec_bind {x : Action σ α} {f : α → Action σ β} {s : SessionState σ}
    (hx : R s (x.exec s).2) (hf : ∀ a, R (x.exec s).2 ((f a).exec (x.exec s).2).2) :
    R s ((x >>= f).exec s).2 :=
  Chains.trans hx (exec_bind_rest hf)

theorem action_bind {x : Action σ α} {f : α → Action σ β} (hx : Leads R x.run)
    (hf : ∀ a, Leads R (f a).run) : Leads R (x >>= f).run :=
  fun s => exec_bind (hx s) fun a => hf a _

end Leads

/-! ## Requests -/

/-- The requests made in between are of a kind. -/
def Asks (P : Request → Prop) (s t : SessionState σ) : Prop :=
  ∃ requests, t.journal = s.journal ++ requests ∧ ∀ q ∈ requests, P q

namespace Asks

variable {P Q : Request → Prop} {s t : SessionState σ}

/-- Steps that make no request. -/
theorem nothing (h : t.journal = s.journal) : Asks P s t := by
  refine ⟨[], by rw [h, List.append_nil], ?_⟩
  intro q hq
  exact absurd hq List.not_mem_nil

instance : Chains (σ := σ) (Asks P) where
  refl _ := nothing rfl
  trans := by
    rintro s t u ⟨first, hfirst, hP⟩ ⟨second, hsecond, hQ⟩
    refine ⟨first ++ second, ?_, ?_⟩
    · rw [hsecond, hfirst, List.append_assoc]
    · intro q hq
      rcases List.mem_append.mp hq with hq | hq
      · exact hP q hq
      · exact hQ q hq

theorem mono (h : Asks P s t) (hPQ : ∀ q, P q → Q q) : Asks Q s t := by
  obtain ⟨requests, hjournal, hP⟩ := h
  exact ⟨requests, hjournal, fun q hq => hPQ q (hP q hq)⟩

theorem ask {request : Request} {fail : ε → WalletError} {answer : σ → Except ε α × σ}
    (h : P request) : Asks P s ((Action.ask request fail answer).exec s).2 := by
  refine ⟨[request], rfl, ?_⟩
  intro q hq
  rw [List.mem_singleton.mp hq]
  exact h

end Asks

/-! ## Keeping the session -/

/-- The default passkey and the wallet are the same, and the requests in between are of a kind. -/
structure Follows (P : Option Bytes → Request → Prop) (s t : SessionState σ) : Prop where
  keyId : t.keyId = s.keyId
  wallet : t.wallet = s.wallet
  asks : Asks (P s.keyId) s t

namespace Follows

variable {P Q : Option Bytes → Request → Prop} {s t : SessionState σ}

instance : Chains (σ := σ) (Follows P) where
  refl s := ⟨rfl, rfl, Chains.refl s⟩
  trans {s t u} hst htu := by
    have hasks := htu.asks
    rw [hst.keyId] at hasks
    exact ⟨htu.keyId.trans hst.keyId, htu.wallet.trans hst.wallet, Chains.trans hst.asks hasks⟩

theorem mono (h : Follows P s t) (hPQ : ∀ q, P s.keyId q → Q s.keyId q) : Follows Q s t :=
  ⟨h.keyId, h.wallet, h.asks.mono hPQ⟩

theorem ask {request : Request} {fail : ε → WalletError} {answer : σ → Except ε α × σ}
    (h : P s.keyId request) : Follows P s ((Action.ask request fail answer).exec s).2 :=
  ⟨rfl, rfl, .ask h⟩

end Follows

theorem Leads.mono {P Q : Option Bytes → Request → Prop} {x : StateM (SessionState σ) α}
    (h : Leads (Follows P) x) (hPQ : ∀ keyId q, P keyId q → Q keyId q) : Leads (Follows Q) x :=
  fun s => (h s).mono (hPQ s.keyId)

/-! ## Letting the session grow -/

/-- A default passkey stays for good, a wallet stays connected, and the requests in between are of a
kind. -/
structure Grows (P : Request → Prop) (s t : SessionState σ) : Prop where
  keyId : ∀ id, s.keyId = some id → t.keyId = some id
  wallet : s.wallet ≠ none → t.wallet ≠ none
  asks : Asks P s t

namespace Grows

variable {P Q : Request → Prop} {s t : SessionState σ}

instance : Chains (σ := σ) (Grows P) where
  refl s := ⟨fun _ h => h, fun h => h, Chains.refl s⟩
  trans hst htu := ⟨fun id h => htu.keyId id (hst.keyId id h), fun h => htu.wallet (hst.wallet h),
    Chains.trans hst.asks htu.asks⟩

theorem mono (h : Grows P s t) (hPQ : ∀ q, P q → Q q) : Grows Q s t :=
  ⟨h.keyId, h.wallet, h.asks.mono hPQ⟩

theorem ask {request : Request} {fail : ε → WalletError} {answer : σ → Except ε α × σ}
    (h : P request) : Grows P s ((Action.ask request fail answer).exec s).2 :=
  ⟨fun _ h => h, fun h => h, .ask h⟩

end Grows

/-- What keeps the session lets it grow. -/
theorem Follows.grows {P : Option Bytes → Request → Prop} {s t : SessionState σ}
    (h : Follows P s t) : Grows (P s.keyId) s t :=
  ⟨fun _ hid => h.keyId.trans hid, fun hwallet => h.wallet ▸ hwallet, h.asks⟩

/-! ## The parts of a session -/

/-- The requests for the number of the latest ledger. -/
def LedgerRequest (q : Request) : Prop := q = .latestLedger

/-- The requests whether a value is live. -/
def LookupRequest (q : Request) : Prop := ∃ d, q = .contractDatum d

/-- The passkeys that may answer when a pin is given, as a request lists them: no list stands for
any. The default passkey is that of the session, if it has one. -/
inductive Pins : KeyIdPin → Option Bytes → List CredentialDescriptor → Prop
  | any (keyId : Option Bytes) : Pins .any keyId []
  | default (id : Bytes) : Pins .default (some id) [⟨id, .publicKey⟩]
  | noDefault : Pins .default none []
  | pinned (id : Bytes) (keyId : Option Bytes) : Pins (.pinned id) keyId [⟨id, .publicKey⟩]

/-- The requests that signing makes: for the latest ledger, and for a passkey if one is to sign. -/
inductive SigningRequest (method : SignMethod) (keyId : Option Bytes) : Request → Prop
  | ledger : SigningRequest method keyId .latestLedger
  | authentication {pin : KeyIdPin} {o : AuthenticationOptions} (method_eq : method = .passkey pin)
      (pins : Pins pin keyId o.allowCredentials) : SigningRequest method keyId (.authentication o)

theorem Client.pins_admitted (pin : KeyIdPin) (keyId : Option Bytes) :
    Pins pin keyId ((admitted pin keyId).map fun id => ⟨id, .publicKey⟩) := by
  cases pin with
  | any => exact .any keyId
  | default =>
      cases keyId with
      | none => exact .noDefault
      | some id => exact .default id
  | pinned id => exact .pinned id keyId

namespace Client

variable (c : Client σ)

theorem follows_expiration (o : SignOptions) :
    Leads (Follows fun _ => LedgerRequest) (c.expiration o).run := by
  unfold expiration
  cases o.expiration with
  | some ledger => exact .action_pure ledger
  | none => exact .action_bind (fun _ => .ask rfl) fun _ => .action_pure _

theorem follows_passkeySignature (payload : Bytes32) (pin : KeyIdPin) (rpId : Option String) :
    Leads (Follows (SigningRequest (.passkey pin))) (c.passkeySignature payload pin rpId).run := by
  intro s
  -- the options speak of the default passkey, so the state is read first
  have hget := Action.exec_get s
  show Follows _ s ((c.passkeySignature payload pin rpId).exec s).2
  unfold passkeySignature
  rw [Action.exec_bind_of_ok hget]
  refine Leads.exec_bind (.ask (.authentication rfl (pins_admitted pin s.keyId))) fun _ => ?_
  exact Leads.action_bind (.ofExcept _ _) (fun _ => .action_pure _) _

theorem follows_signature (e : AuthEntry) (method : SignMethod) (rpId : Option String)
    (ledger : UInt32) :
    Leads (Follows (SigningRequest method)) (c.signature e method rpId ledger).run := by
  cases method with
  | keypair k => exact .action_bind (.liftExcept _) fun _ => .action_pure _
  | passkey pin =>
      refine .action_bind (.liftExcept _) fun p => ?_
      exact .action_bind (c.follows_passkeySignature p pin rpId) fun _ => .action_pure _
  | policy p => exact .action_pure _

theorem follows_signEntryAt (e : AuthEntry) (method : SignMethod) (rpId : Option String)
    (ledger : UInt32) :
    Leads (Follows (SigningRequest method)) (c.signEntryAt e method rpId ledger).run :=
  .action_bind (c.follows_signature e method rpId ledger) fun _ => .liftExcept _

theorem follows_signingExpiration (method : SignMethod) (o : SignOptions) :
    Leads (Follows (SigningRequest method)) (c.expiration o).run := by
  refine (c.follows_expiration o).mono ?_
  rintro keyId q rfl
  exact .ledger

theorem follows_signEntry (e : AuthEntry) (method : SignMethod) (o : SignOptions) :
    Leads (Follows (SigningRequest method)) (c.signEntry e method o).run := by
  refine .action_bind (.liftExcept _) fun _ => ?_
  refine .action_bind (c.follows_signingExpiration method o) fun ledger => ?_
  exact c.follows_signEntryAt e method o.rpId ledger

theorem follows_signNext (e : AuthEntry) (method : SignMethod) (o : SignOptions)
    (shared : Option UInt32) :
    Leads (Follows (SigningRequest method)) (c.signNext e method o shared).run := by
  have hshared : Leads (Follows (SigningRequest method)) (c.sharedExpiration o shared).run := by
    cases shared with
    | some ledger => exact .action_pure ledger
    | none => exact c.follows_signingExpiration method o
  refine .action_bind hshared fun ledger => ?_
  exact .action_bind (c.follows_signEntryAt e method o.rpId ledger) fun _ => .action_pure _

theorem follows_signFrom (wallet : ContractAddress) (method : SignMethod) (o : SignOptions)
    (shared : Option UInt32) (entries : List AuthEntry) :
    Leads (Follows (SigningRequest method)) (c.signFrom wallet method o shared entries) := by
  induction entries generalizing shared with
  | nil =>
      rw [signFrom]
      exact .pure _
  | cons e rest ih =>
      rw [signFrom]
      split
      · refine .bind (c.follows_signNext e method o shared) fun r => ?_
        cases r with
        | error error => exact .pure _
        | ok r => exact .bind (ih (some r.2)) fun _ => .pure _
      · exact .bind (ih shared) fun _ => .pure _

theorem follows_signEntries (entries : List AuthEntry) (method : SignMethod) (o : SignOptions) :
    Leads (Follows (SigningRequest method)) (c.signEntries entries method o) := by
  unfold signEntries
  split
  · exact .pure _
  · refine .bind .get fun s => ?_
    cases s.wallet with
    | none => exact .pure _
    | some wallet => exact c.follows_signFrom wallet method o none entries

theorem follows_sign (input : TransactionInput) (method : SignMethod) (o : SignOptions) :
    Leads (Follows (SigningRequest method)) (c.sign input method o).run := by
  refine .action_bind (.liftExcept _) fun t => ?_
  have hnormalized :
      Leads (Follows (SigningRequest method)) (c.signNormalized t method o).run := by
    unfold signNormalized
    split
    · refine .action_bind (.liftState (c.follows_signEntries t.auth method o)) fun r => ?_
      exact .action_bind (.ofExcept _ _) fun _ => .action_pure _
    · exact .action_pure t
  exact .action_bind hnormalized fun _ => .liftExcept _

/-- Attaching a policy asks for nothing. -/
theorem follows_attachPolicy (t : NormalizedTransaction) (index : Nat) (policy : ContractAddress) :
    Leads (Follows fun _ _ => False)
      (attachPolicy t index policy : Action σ NormalizedTransaction).run := by
  refine .action_bind .action_get fun s => ?_
  cases s.wallet with
  | none => exact .throw _
  | some wallet => exact .liftExcept _

theorem follows_contains (d : ContractDatum) :
    Leads (Follows fun _ => LookupRequest) (c.contains d).run :=
  fun _ => .ask ⟨d, rfl⟩

theorem follows_isSignerExpired (contract : ContractAddress) (signer : SignerKey) :
    Leads (Follows fun _ => LookupRequest) (c.isSignerExpired contract signer) := by
  refine .bind (c.follows_contains _) fun r => ?_
  cases r with
  | ok live => exact .pure _
  | error e => exact .pure _

theorem follows_findWallet (keyId : Bytes) (fallback : Option ContractAddress) :
    Leads (Follows fun _ => LookupRequest) (c.findWallet keyId fallback).run := by
  refine .action_bind (.liftExcept _) fun derived => ?_
  refine .action_bind (c.follows_contains _) fun deployed => ?_
  split
  · exact .action_pure _
  · cases fallback with
    | none => exact .throw _
    | some contract =>
        refine .action_bind (.liftState ?_) fun _ => .action_pure _
        exact c.follows_isSignerExpired contract (.secp256r1 keyId)

end Client

end SmartWallet
