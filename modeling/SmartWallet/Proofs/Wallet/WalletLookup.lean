import SmartWallet.Proofs.Authorization.Commitment
import SmartWallet.Proofs.Signer.Order
import SmartWallet.Proofs.Wallet.Failure

set_option autoImplicit false

/-! # Looking things up on the ledger

A session learns two things from the ledger: whether a wallet still knows a signer, and which wallet
belongs to a passkey. `Client.lookup_faithful` says that it learns them as they are. On a ledger to
which instances and signers were added one after the other, a signer is taken for a live one exactly
if it was added itself, for the same wallet and as temporary, and a wallet is taken for deployed
exactly if its instance was added. No other addition can stand in, since different additions keep
different values (`LedgerAddition.datum_injective`): an instance is none of the encoded signers, and
these are told apart whatever is in them.

An outcome depends on the ledger only through what `LedgerView.signerExpired` and
`LedgerView.findWallet` say, whatever else the services do. -/

namespace SmartWallet

/-! ## Ledgers and how they came about -/

/-- What can be added to a ledger. -/
inductive LedgerAddition where
  /-- The instance of a contract. -/
  | deployed (contract : ContractAddress)
  /-- A signer of a wallet. -/
  | signer (wallet : ContractAddress) (key : SignerKey) (durability : Durability)
deriving DecidableEq

/-- The value that is kept from then on. -/
def LedgerAddition.datum : LedgerAddition → ContractDatum
  | deployed contract => .instanceOf contract
  | signer wallet key durability => .signer wallet key durability

theorem SignerKey.toScVal_ne_instance (k : SignerKey) : k.toScVal ≠ .ledgerKeyContractInstance := by
  rw [SignerKey.toScVal_eq]
  nofun

/-- Different additions keep different values. -/
theorem LedgerAddition.datum_injective : Function.Injective datum := by
  intro x y h
  cases x with
  | deployed contract =>
      cases y with
      | deployed contract' => exact congrArg deployed (congrArg ContractDatum.contract h)
      | signer wallet key durability =>
          exact absurd (congrArg ContractDatum.key h).symm key.toScVal_ne_instance
  | signer wallet key durability =>
      cases y with
      | deployed contract => exact absurd (congrArg ContractDatum.key h) key.toScVal_ne_instance
      | signer wallet' key' durability' =>
          obtain ⟨rfl, hkey, rfl⟩ := ContractDatum.mk.inj h
          rw [SignerKey.toScVal_injective hkey]

namespace LedgerView

/-- The ledger after an addition. -/
def add (l : LedgerView) (x : LedgerAddition) : LedgerView := { l with data := l.data ++ [x.datum] }

/-- An available ledger after some additions, and nothing else. -/
def ofAdditions (latest : UInt32) (additions : List LedgerAddition) : LedgerView :=
  additions.foldl add ⟨latest, false, []⟩

variable {l : LedgerView} {latest : UInt32} {additions : List LedgerAddition} {x : LedgerAddition}
  {d : ContractDatum}

/-- One addition adds its own value to what can be found. -/
theorem mem_data_add : d ∈ (l.add x).data ↔ d ∈ l.data ∨ d = x.datum := by
  rw [add, List.mem_append, List.mem_singleton]

theorem mem_data_foldl_add :
    d ∈ (additions.foldl add l).data ↔ d ∈ l.data ∨ ∃ x ∈ additions, d = x.datum := by
  induction additions generalizing l with
  | nil => simp
  | cons x rest ih =>
      rw [List.foldl_cons, ih, mem_data_add]
      simp only [List.mem_cons, exists_eq_or_imp, or_assoc]

theorem unavailable_foldl_add : (additions.foldl add l).unavailable = l.unavailable := by
  induction additions generalizing l with
  | nil => rfl
  | cons x rest ih =>
      rw [List.foldl_cons, ih]
      rfl

/-- What an available ledger says of a value is whether that value was added. -/
theorem contains_ofAdditions (x : LedgerAddition) :
    (ofAdditions latest additions).contains x.datum = .ok (decide (x ∈ additions)) := by
  have hmem : x.datum ∈ (ofAdditions latest additions).data ↔ x ∈ additions := by
    rw [ofAdditions, mem_data_foldl_add]
    constructor
    · rintro (h | ⟨y, hy, h⟩)
      · cases h
      · rwa [LedgerAddition.datum_injective h]
    · exact fun h => .inr ⟨x, h, rfl⟩
  have havailable : (ofAdditions latest additions).unavailable = false := unavailable_foldl_add
  unfold contains answer
  rw [havailable, decide_eq_decide.mpr hmem]
  rfl

theorem contains_of_unavailable (h : l.unavailable = true) (d : ContractDatum) :
    l.contains d = .error unavailableReason := by
  unfold contains answer
  rw [h]
  rfl

/-! ## What a ledger says -/

/-- A signer counts as expired unless the ledger says that its wallet keeps it. -/
def signerExpired (l : LedgerView) (wallet : ContractAddress) (key : SignerKey) : Bool :=
  match l.contains (.signer wallet key .temporary) with
  | .ok live => !live
  | .error _ => true

/-- The wallet of a passkey is the derived one if the ledger says that it is deployed, else the
fallback. -/
def findWallet (l : LedgerView) (derived : ContractAddress) (keyId : Bytes)
    (fallback : Option ContractAddress) : Except WalletError (ContractAddress × Bool) :=
  match l.contains (.instanceOf derived), fallback with
  | .error reason, _ => .error (.ledger reason)
  | .ok true, _ => .ok (derived, false)
  | .ok false, some contract => .ok (contract, l.signerExpired contract (.secp256r1 keyId))
  | .ok false, none => .error (.contractNotFound derived)

theorem signerExpired_ofAdditions {wallet : ContractAddress} {key : SignerKey} :
    (ofAdditions latest additions).signerExpired wallet key = false
      ↔ .signer wallet key .temporary ∈ additions := by
  have hcontains : (ofAdditions latest additions).contains (.signer wallet key .temporary) = _ :=
    contains_ofAdditions (.signer wallet key .temporary)
  unfold signerExpired
  rw [hcontains, Bool.not_eq_false', decide_eq_true_eq]

/-- The derived wallet is found exactly if it was deployed, and else the fallback. -/
theorem findWallet_ofAdditions (derived : ContractAddress) (keyId : Bytes)
    (fallback : Option ContractAddress) :
    (ofAdditions latest additions).findWallet derived keyId fallback
      = if .deployed derived ∈ additions then .ok (derived, false)
        else match fallback with
          | some contract => .ok (contract,
            (ofAdditions latest additions).signerExpired contract (.secp256r1 keyId))
          | none => .error (.contractNotFound derived) := by
  have hcontains : (ofAdditions latest additions).contains (.instanceOf derived) = _ :=
    contains_ofAdditions (.deployed derived)
  unfold findWallet
  rw [hcontains]
  by_cases hdeployed : LedgerAddition.deployed derived ∈ additions
  · rw [if_pos hdeployed, decide_eq_true hdeployed]
  · rw [if_neg hdeployed, decide_eq_false hdeployed]
    cases fallback with
    | none => rfl
    | some contract => rfl

theorem signerExpired_of_unavailable (h : l.unavailable = true) (wallet : ContractAddress)
    (key : SignerKey) : l.signerExpired wallet key = true := by
  unfold signerExpired
  rw [contains_of_unavailable h]

theorem findWallet_of_unavailable (h : l.unavailable = true) (derived : ContractAddress)
    (keyId : Bytes) (fallback : Option ContractAddress) :
    l.findWallet derived keyId fallback = .error (.ledger unavailableReason) := by
  unfold findWallet
  rw [contains_of_unavailable h]

end LedgerView

/-! ## Sessions that read a ledger -/

/-- As long as the services are in a state in `I` they answer from the ledger, and every question of
this kind leaves them in such a state. -/
structure Services.Reads {σ : Type} (services : Services σ) (l : LedgerView) (I : σ → Prop) :
    Prop where
  contains_eq {x : σ} (d : ContractDatum) : I x → (services.contains d x).1 = l.contains d
  contains {x : σ} (d : ContractDatum) : I x → I (services.contains d x).2

theorem Environment.services_reads (l : LedgerView) :
    Environment.services.Reads l fun x => x.ledger = l where
  contains_eq d h := congrArg (·.contains d) h
  contains _ h := h

namespace Client

variable {σ : Type} {c : Client σ} {l : LedgerView} {I : σ → Prop} {s : SessionState σ}

/-- Every passkey has an address. -/
theorem exists_derivedWallet (c : Client σ) (keyId : Bytes) :
    ∃ derived, c.derivedWallet keyId = .ok derived := by
  obtain ⟨b, hb⟩ := Preimage.exists_toBytes_contractId (networkId c.config.networkPassphrase)
    (.address (.contract c.factory) (Digest.sha256 keyId))
  refine ⟨⟨Digest.sha256 b⟩, ?_⟩
  show ContractAddress.mk <$> (Digest.sha256 <$> Preimage.toBytes _) = _
  rw [deploymentPreimage, hb]
  rfl

/-- A question is answered from the ledger, and so are those that come after it. -/
theorem contains_exec (hreads : c.services.Reads l I) (hs : I s.services) (d : ContractDatum) :
    ∃ t, (c.contains d).exec s = ((l.contains d).mapError .ledger, t) ∧ I t.services := by
  rw [← hreads.contains_eq d hs]
  exact ⟨_, rfl, hreads.contains d hs⟩

/-- A session takes a signer for expired exactly if the ledger lets it. -/
theorem isSignerExpired_of_reads (hreads : c.services.Reads l I) (hs : I s.services)
    (wallet : ContractAddress) (key : SignerKey) :
    ((c.isSignerExpired wallet key).run s).1 = l.signerExpired wallet key := by
  obtain ⟨t, hcontains, -⟩ := contains_exec hreads hs (.signer wallet key .temporary)
  have hrun : (c.contains (.signer wallet key .temporary)).run.run s = _ := hcontains
  unfold isSignerExpired LedgerView.signerExpired
  rw [StateT.run_bind, hrun]
  cases l.contains (.signer wallet key .temporary) with
  | ok live => rfl
  | error reason => rfl

theorem findWallet_of_reads (hreads : c.services.Reads l I) (hs : I s.services) {keyId : Bytes}
    {derived : ContractAddress} (hderived : c.derivedWallet keyId = .ok derived)
    (fallback : Option ContractAddress) :
    ((c.findWallet keyId fallback).exec s).1 = l.findWallet derived keyId fallback := by
  obtain ⟨t, hcontains, ht⟩ := contains_exec hreads hs (.instanceOf derived)
  unfold findWallet LedgerView.findWallet
  rw [Action.exec_lift_bind_of_ok hderived, Action.exec_bind, hcontains]
  rcases l.contains (.instanceOf derived) with reason | deployed
  · rfl
  cases deployed with
  | true => rfl
  | false =>
      cases fallback with
      | none => rfl
      | some contract =>
          have hexpired := isSignerExpired_of_reads hreads ht contract (.secp256r1 keyId)
          show (Except.ok (contract, ((c.isSignerExpired contract (.secp256r1 keyId)).run t).1) :
            Except WalletError _) = .ok (contract, l.signerExpired contract (.secp256r1 keyId))
          rw [hexpired]

/-- What connecting comes to for the services that read a ledger. -/
theorem connectWallet_of_reads (hreads : c.services.Reads l I) (hs : I s.services) {keyId : Bytes}
    {derived : ContractAddress} (hderived : c.derivedWallet keyId = .ok derived)
    (fallback : Option ContractAddress) :
    ((c.connectWallet (some keyId) fallback).exec s).1
      = (l.findWallet derived keyId fallback).map fun p => ⟨keyId, p.1, p.2⟩ := by
  have hfind := findWallet_of_reads (s := { s with keyId := s.keyId.or (some keyId) }) hreads hs
    hderived fallback
  rw [connectWallet_some, connectKnown, rememberKey,
    Action.exec_bind_of_ok (Action.exec_modify _ s), Action.exec_bind, ← hfind]
  rcases (c.findWallet keyId fallback).exec { s with keyId := s.keyId.or (some keyId) } with
    ⟨_ | ⟨contract, expired⟩, t⟩
  · rfl
  · rfl

/-- A session learns from an available ledger what was added to it: a signer is taken for a live
one exactly if it was added for its wallet and as temporary; the wallet of a passkey is the
derived one if its instance was added, else the fallback, with the expiry of the passkey there,
and without a fallback it is not found. On an unavailable ledger every signer counts as expired
and no wallet is connected. -/
theorem lookup_faithful (hreads : c.services.Reads l I) (hs : I s.services) :
    (∀ latest additions, l = .ofAdditions latest additions →
      (∀ wallet key, ((c.isSignerExpired wallet key).run s).1 = false
        ↔ .signer wallet key .temporary ∈ additions)
      ∧ ∀ keyId, ∃ derived, c.derivedWallet keyId = .ok derived
        ∧ (.deployed derived ∈ additions → ∀ fallback,
          ((c.connectWallet (some keyId) fallback).exec s).1 = .ok ⟨keyId, derived, false⟩)
        ∧ (.deployed derived ∉ additions →
          (∀ contract, ((c.connectWallet (some keyId) (some contract)).exec s).1
            = .ok ⟨keyId, contract, ((c.isSignerExpired contract (.secp256r1 keyId)).run s).1⟩)
          ∧ ((c.connectWallet (some keyId) none).exec s).1 = .error (.contractNotFound derived)))
    ∧ (l.unavailable = true →
      (∀ wallet key, ((c.isSignerExpired wallet key).run s).1 = true)
      ∧ ∀ keyId fallback, ((c.connectWallet (some keyId) fallback).exec s).1
        = .error (.ledger LedgerView.unavailableReason)) := by
  constructor
  · rintro latest additions rfl
    refine ⟨fun wallet key => ?_, fun keyId => ?_⟩
    · rw [isSignerExpired_of_reads hreads hs]
      exact LedgerView.signerExpired_ofAdditions
    obtain ⟨derived, hderived⟩ := c.exists_derivedWallet keyId
    have hconnect := connectWallet_of_reads hreads hs hderived
    refine ⟨derived, hderived, fun hdeployed fallback => ?_, fun hno => ⟨fun contract => ?_, ?_⟩⟩
    · rw [hconnect, LedgerView.findWallet_ofAdditions, if_pos hdeployed]
      rfl
    · rw [hconnect, LedgerView.findWallet_ofAdditions, if_neg hno,
        isSignerExpired_of_reads hreads hs]
      rfl
    · rw [hconnect, LedgerView.findWallet_ofAdditions, if_neg hno]
      rfl
  · intro hunavailable
    refine ⟨fun wallet key => ?_, fun keyId fallback => ?_⟩
    · rw [isSignerExpired_of_reads hreads hs, LedgerView.signerExpired_of_unavailable hunavailable]
    · obtain ⟨derived, hderived⟩ := c.exists_derivedWallet keyId
      rw [connectWallet_of_reads hreads hs hderived,
        LedgerView.findWallet_of_unavailable hunavailable]
      rfl

/-- A session at its start, on the given ledger. -/
def sampleOn (l : LedgerView) : SessionState Environment :=
  .start ⟨l, .software Sample.authenticator⟩

/-- Connecting for the passkey of the sample: on a ledger to which its wallet was added, on one that
knows it as a signer of the fallback, and on an unavailable one. -/
theorem lookup_faithful_sample :
    ∃ derived, Sample.client.derivedWallet Sample.credentialId = .ok derived
      ∧ ((Sample.client.connectWallet (some Sample.credentialId) (some Sample.wallet)).exec
          (sampleOn (.ofAdditions 7 [.deployed derived]))).1
        = .ok ⟨Sample.credentialId, derived, false⟩
      ∧ ((Sample.client.connectWallet (some Sample.credentialId) (some Sample.wallet)).exec
          (sampleOn (.ofAdditions 7
            [.signer Sample.wallet (.secp256r1 Sample.credentialId) .temporary]))).1
        = .ok ⟨Sample.credentialId, Sample.wallet, false⟩
      ∧ ((Sample.client.connectWallet (some Sample.credentialId) (some Sample.wallet)).exec
          (sampleOn ⟨7, true, []⟩)).1
        = .error (.ledger LedgerView.unavailableReason) := by
  obtain ⟨derived, hderived⟩ := Sample.client.exists_derivedWallet Sample.credentialId
  have hfaithful (l : LedgerView) := lookup_faithful (c := Sample.client) (s := sampleOn l)
    (Environment.services_reads l) rfl
  refine ⟨derived, hderived, ?_, ?_, (hfaithful _).2 rfl |>.2 _ _⟩
  · obtain ⟨-, hconnect⟩ := (hfaithful _).1 7 [.deployed derived] rfl
    obtain ⟨derived', hderived', hfound, -⟩ := hconnect Sample.credentialId
    obtain rfl : derived' = derived := Except.ok.inj (hderived'.symm.trans hderived)
    exact hfound List.mem_cons_self _
  · obtain ⟨hexpired, hconnect⟩ := (hfaithful _).1 7
      [.signer Sample.wallet (.secp256r1 Sample.credentialId) .temporary] rfl
    obtain ⟨derived', -, -, hno⟩ := hconnect Sample.credentialId
    rw [(hno (by simp)).1, (hexpired _ _).mpr List.mem_cons_self]

end Client

end SmartWallet
