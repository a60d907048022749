import SmartWallet.Proofs.Wallet.Failure

set_option autoImplicit false

/-! # Two runs of one session

A session is told apart from another by what its services answer, and not even by all of that: of
the answer to a signing request it reads the id of the passkey and the assertion, and nothing else
of the response. Services that cannot be told apart in this way make for the same session.

`Alike` compares two parts of sessions over different services, step by step: they have related
results and leave sessions that differ in the services at most. It passes from parts to the whole
like a relational program logic, with one rule for each way to put parts together, so there is one
short lemma for each operation. `Client.alike_run` is the result for whole sessions. -/

namespace SmartWallet

open WebAuthn

variable {σ τ α β γ δ ε : Type} {R : σ → τ → Prop}

/-! ## Parts that are alike -/

/-- Outcomes that are the same failure, or results in a relation. -/
inductive SameOutcome (Q : α → β → Prop) : Except ε α → Except ε β → Prop
  | ok {a : α} {b : β} : Q a b → SameOutcome Q (.ok a) (.ok b)
  | error (e : ε) : SameOutcome Q (.error e) (.error e)

theorem SameOutcome.refl (x : Except ε α) : SameOutcome Eq x x := by
  cases x with
  | error e => exact .error e
  | ok a => exact .ok rfl

theorem SameOutcome.eq {x y : Except ε α} (h : SameOutcome Eq x y) : x = y := by
  cases h with
  | ok h => rw [h]
  | error e => rfl

theorem SameOutcome.mapError {ε' : Type} {P : α → β → Prop} {x : Except ε α} {y : Except ε β}
    (h : SameOutcome P x y) (fail : ε → ε') :
    SameOutcome P (x.mapError fail) (y.mapError fail) := by
  cases h with
  | ok h => exact .ok h
  | error e => exact .error (fail e)

/-- Sessions that differ in the services at most. -/
structure SessionState.Alike (R : σ → τ → Prop) (s : SessionState σ) (t : SessionState τ) :
    Prop where
  keyId : s.keyId = t.keyId
  wallet : s.wallet = t.wallet
  journal : s.journal = t.journal
  services : R s.services t.services

/-- From sessions that are alike, two parts come to related results and
to sessions that are alike. -/
def Alike (R : σ → τ → Prop) (Q : α → β → Prop) (x : StateM (SessionState σ) α)
    (y : StateM (SessionState τ) β) : Prop :=
  ∀ s t, SessionState.Alike R s t →
    Q (x.run s).1 (y.run t).1 ∧ SessionState.Alike R (x.run s).2 (y.run t).2

/-- The same for parts that may fail. -/
def AlikeActions (R : σ → τ → Prop) (Q : α → β → Prop) (x : Action σ α) (y : Action τ β) : Prop :=
  Alike R (SameOutcome Q) x.run y.run

/-- The same for answers of services. -/
def AlikeAnswers (R : σ → τ → Prop) (Q : α → β → Prop) (f : σ → Except ε α × σ)
    (g : τ → Except ε β × τ) : Prop :=
  ∀ s t, R s t → SameOutcome Q (f s).1 (g t).1 ∧ R (f s).2 (g t).2

namespace Alike

variable {P : α → β → Prop} {Q : γ → δ → Prop}

theorem pure {a : α} {b : β} (h : P a b) :
    Alike R P (Pure.pure a : StateM (SessionState σ) α) (Pure.pure b) := fun _ _ hs => ⟨h, hs⟩

theorem bind {x : StateM (SessionState σ) α} {y : StateM (SessionState τ) β}
    {f : α → StateM (SessionState σ) γ} {g : β → StateM (SessionState τ) δ} (hx : Alike R P x y)
    (hf : ∀ a b, P a b → Alike R Q (f a) (g b)) : Alike R Q (x >>= f) (y >>= g) := by
  intro s t hs
  obtain ⟨hresult, hnext⟩ := hx s t hs
  exact hf _ _ hresult _ _ hnext

theorem map {x : StateM (SessionState σ) α} {y : StateM (SessionState τ) β} {f : α → γ} {g : β → δ}
    (hx : Alike R P x y) (hf : ∀ a b, P a b → Q (f a) (g b)) : Alike R Q (f <$> x) (g <$> y) := by
  intro s t hs
  obtain ⟨hresult, hnext⟩ := hx s t hs
  exact ⟨hf _ _ hresult, hnext⟩

theorem get : Alike R (SessionState.Alike R) (MonadState.get : StateM (SessionState σ) _)
    (MonadState.get : StateM (SessionState τ) _) := fun _ _ hs => ⟨hs, hs⟩

/-- After equal results the rest goes on from one and the same. -/
theorem bind_eq {x : StateM (SessionState σ) α} {y : StateM (SessionState τ) α}
    {f : α → StateM (SessionState σ) γ} {g : α → StateM (SessionState τ) δ} (hx : Alike R Eq x y)
    (hf : ∀ a, Alike R Q (f a) (g a)) : Alike R Q (x >>= f) (y >>= g) := by
  refine .bind hx ?_
  rintro a _ rfl
  exact hf a

end Alike

namespace AlikeActions

variable {P : α → β → Prop} {Q : γ → δ → Prop}

theorem pure {a : α} {b : β} (h : P a b) :
    AlikeActions R P (Pure.pure a : Action σ α) (Pure.pure b) := fun _ _ hs => ⟨.ok h, hs⟩

theorem throw (e : WalletError) :
    AlikeActions R P (MonadExcept.throw e : Action σ α) (MonadExcept.throw e) :=
  fun _ _ hs => ⟨.error e, hs⟩

theorem get : AlikeActions R (SessionState.Alike R) (MonadState.get : Action σ _)
    (MonadState.get : Action τ _) := fun _ _ hs => ⟨.ok hs, hs⟩

theorem update {f : SessionState σ → SessionState σ} {g : SessionState τ → SessionState τ}
    (h : ∀ s t, SessionState.Alike R s t → SessionState.Alike R (f s) (g t)) :
    AlikeActions R Eq (modify f : Action σ PUnit) (modify g) :=
  fun s t hs => ⟨.ok rfl, h s t hs⟩

theorem ofExcept (fail : ε → WalletError) (x : Except ε α) :
    AlikeActions R Eq (Action.ofExcept fail x : Action σ α) (Action.ofExcept fail x) :=
  fun _ _ hs => ⟨.refl _, hs⟩

theorem liftExcept (x : Except AuthError α) :
    AlikeActions R Eq (liftM x : Action σ α) (liftM x : Action τ α) := ofExcept _ x

theorem liftState {x : StateM (SessionState σ) α} {y : StateM (SessionState τ) β}
    (h : Alike R P x y) : AlikeActions R P (liftM x : Action σ α) (liftM y : Action τ β) := by
  intro s t hs
  obtain ⟨hresult, hnext⟩ := h s t hs
  exact ⟨.ok hresult, hnext⟩

theorem ask {f : σ → Except ε α × σ} {g : τ → Except ε β × τ} (request : Request)
    (fail : ε → WalletError) (h : AlikeAnswers R P f g) :
    AlikeActions R P (Action.ask request fail f) (Action.ask request fail g) := by
  intro s t hs
  obtain ⟨hanswer, hservices⟩ := h _ _ hs.services
  exact ⟨hanswer.mapError fail, hs.keyId, hs.wallet, congrArg (· ++ [request]) hs.journal,
    hservices⟩

theorem bind {x : Action σ α} {y : Action τ β} {f : α → Action σ γ} {g : β → Action τ δ}
    (hx : AlikeActions R P x y) (hf : ∀ a b, P a b → AlikeActions R Q (f a) (g b)) :
    AlikeActions R Q (x >>= f) (y >>= g) := by
  intro s t hs
  obtain ⟨hresult, hnext⟩ := hx s t hs
  show SameOutcome Q ((x >>= f).exec s).1 ((y >>= g).exec t).1
    ∧ SessionState.Alike R ((x >>= f).exec s).2 ((y >>= g).exec t).2
  rw [Action.exec_bind, Action.exec_bind]
  rcases hr : x.exec s with ⟨r, u⟩
  rcases hr' : y.exec t with ⟨r', u'⟩
  have hu : x.run.run s = (r, u) := hr
  have hu' : y.run.run t = (r', u') := hr'
  rw [hu, hu'] at hresult hnext
  cases hresult with
  | ok h => exact hf _ _ h _ _ hnext
  | error e => exact ⟨.error e, hnext⟩

/-- After equal results the rest goes on from one and the same. -/
theorem bind_eq {x : Action σ α} {y : Action τ α} {f : α → Action σ γ} {g : α → Action τ δ}
    (hx : AlikeActions R Eq x y) (hf : ∀ a, AlikeActions R Q (f a) (g a)) :
    AlikeActions R Q (x >>= f) (y >>= g) := by
  refine .bind hx ?_
  rintro a _ rfl
  exact hf a

end AlikeActions

/-! ## Services that are alike -/

/-- Responses with the same passkey and the same assertion. -/
def SameReading (r r' : AuthenticationResponse) : Prop :=
  r.rawId = r'.rawId ∧ Assertion.ofResponse r.response = Assertion.ofResponse r'.response

/-- Services that a session cannot tell apart, as long as their states are in a relation. -/
structure Services.Alike (x : Services σ) (y : Services τ) (R : σ → τ → Prop) : Prop where
  latestLedger : AlikeAnswers R Eq x.latestLedger y.latestLedger
  contains (d : ContractDatum) : AlikeAnswers R Eq (x.contains d) (y.contains d)
  register (o : RegistrationOptions) : AlikeAnswers R Eq (x.register o) (y.register o)
  authenticate (o : AuthenticationOptions) :
    AlikeAnswers R SameReading (x.authenticate o) (y.authenticate o)

/-- The client for the same configuration with other services. -/
def Client.withServices (c : Client σ) (y : Services τ) : Client τ :=
  ⟨c.config, c.factory, c.validate_config, y⟩

namespace Client

variable {c : Client σ} {y : Services τ} (h : c.services.Alike y R)

include h

/-! ## Requests -/

theorem alike_latestLedger : AlikeActions R Eq c.latestLedger (c.withServices y).latestLedger :=
  .ask _ _ h.latestLedger

theorem alike_contains (d : ContractDatum) :
    AlikeActions R Eq (c.contains d) ((c.withServices y).contains d) := .ask _ _ (h.contains d)

theorem alike_register (o : RegistrationOptions) :
    AlikeActions R Eq (c.register o) ((c.withServices y).register o) := .ask _ _ (h.register o)

theorem alike_authenticate (o : AuthenticationOptions) :
    AlikeActions R SameReading (c.authenticate o) ((c.withServices y).authenticate o) :=
  .ask _ _ (h.authenticate o)

/-! ## Passkeys and wallets -/

omit h in
theorem alike_rememberKey (keyId : Bytes) :
    AlikeActions R Eq (rememberKey keyId : Action σ Unit) (rememberKey keyId) := by
  apply AlikeActions.update
  intro s t hs
  exact ⟨congrArg (·.or (some keyId)) hs.keyId, hs.wallet, hs.journal, hs.services⟩

theorem alike_createKey (app user : String) (now : Nat) :
    AlikeActions R Eq (c.createKey app user now) ((c.withServices y).createKey app user now) := by
  refine .bind_eq (alike_register h _) fun response => .bind_eq (.ofExcept _ _) fun key => ?_
  exact .bind_eq (alike_rememberKey _) fun _ => .pure rfl

theorem alike_isSignerExpired (contract : ContractAddress) (signer : SignerKey) :
    Alike R Eq (c.isSignerExpired contract signer)
      ((c.withServices y).isSignerExpired contract signer) := by
  refine .bind (alike_contains h _) fun r r' hr => ?_
  cases hr with
  | ok hlive => exact .pure (congrArg (!·) hlive)
  | error e => exact .pure rfl

theorem alike_findWallet (keyId : Bytes) (fallback : Option ContractAddress) :
    AlikeActions R Eq (c.findWallet keyId fallback)
      ((c.withServices y).findWallet keyId fallback) := by
  refine .bind_eq (.liftExcept _) fun derived => .bind_eq (alike_contains h _) fun deployed => ?_
  split
  · exact .pure rfl
  · cases fallback with
    | none => exact .throw _
    | some contract =>
        exact .bind_eq (.liftState (alike_isSignerExpired h contract _)) fun _ => .pure rfl

theorem alike_connectKnown (keyId : Bytes) (fallback : Option ContractAddress) :
    AlikeActions R Eq (c.connectKnown keyId fallback)
      ((c.withServices y).connectKnown keyId fallback) := by
  refine .bind_eq (alike_rememberKey keyId) fun _ => ?_
  refine .bind_eq (alike_findWallet h keyId fallback) fun found => ?_
  refine .bind_eq (.update ?_) fun _ => .pure rfl
  intro s t hs
  exact ⟨hs.keyId, rfl, hs.journal, hs.services⟩

theorem alike_connectWallet (keyId : Option Bytes) (fallback : Option ContractAddress) :
    AlikeActions R Eq (c.connectWallet keyId fallback)
      ((c.withServices y).connectWallet keyId fallback) := by
  cases keyId with
  | some id =>
      rw [connectWallet_some, connectWallet_some]
      exact alike_connectKnown h id fallback
  | none =>
      rw [connectWallet_none, connectWallet_none]
      -- of the response only the id is looked at
      refine .bind (alike_authenticate h _) fun r r' hr => ?_
      rw [hr.1]
      exact alike_connectKnown h r'.rawId fallback

/-! ## Signing -/

theorem alike_expiration (o : SignOptions) :
    AlikeActions R Eq (c.expiration o) ((c.withServices y).expiration o) := by
  unfold expiration
  cases o.expiration with
  | some ledger => exact .pure rfl
  | none => exact .bind_eq (alike_latestLedger h) fun _ => .pure rfl

theorem alike_passkeySignature (payload : Bytes32) (pin : KeyIdPin) (rpId : Option String) :
    AlikeActions R Eq (c.passkeySignature payload pin rpId)
      ((c.withServices y).passkeySignature payload pin rpId) := by
  refine .bind .get fun s t hs => ?_
  rw [hs.keyId]
  refine .bind (alike_authenticate h _) fun r r' hr => ?_
  -- nothing else of the responses is looked at
  rw [hr.1, hr.2]
  exact .bind_eq (.ofExcept _ _) fun _ => .pure rfl

theorem alike_signature (e : AuthEntry) (method : SignMethod) (rpId : Option String)
    (ledger : UInt32) :
    AlikeActions R Eq (c.signature e method rpId ledger)
      ((c.withServices y).signature e method rpId ledger) := by
  cases method with
  | keypair k => exact .bind_eq (.liftExcept _) fun _ => .pure rfl
  | passkey pin =>
      refine .bind_eq (.liftExcept _) fun payload => ?_
      exact .bind_eq (alike_passkeySignature h payload pin rpId) fun _ => .pure rfl
  | policy p => exact .pure rfl

theorem alike_signEntryAt (e : AuthEntry) (method : SignMethod) (rpId : Option String)
    (ledger : UInt32) :
    AlikeActions R Eq (c.signEntryAt e method rpId ledger)
      ((c.withServices y).signEntryAt e method rpId ledger) :=
  .bind_eq (alike_signature h e method rpId ledger) fun _ => .liftExcept _

theorem alike_signEntry (e : AuthEntry) (method : SignMethod) (o : SignOptions) :
    AlikeActions R Eq (c.signEntry e method o) ((c.withServices y).signEntry e method o) := by
  refine .bind_eq (.liftExcept _) fun _ => .bind_eq (alike_expiration h o) fun ledger => ?_
  exact alike_signEntryAt h e method o.rpId ledger

theorem alike_signNext (e : AuthEntry) (method : SignMethod) (o : SignOptions)
    (shared : Option UInt32) :
    AlikeActions R Eq (c.signNext e method o shared)
      ((c.withServices y).signNext e method o shared) := by
  have hshared : AlikeActions R Eq (c.sharedExpiration o shared)
      ((c.withServices y).sharedExpiration o shared) := by
    cases shared with
    | some ledger => exact .pure rfl
    | none => exact alike_expiration h o
  refine .bind_eq hshared fun ledger => ?_
  exact .bind_eq (alike_signEntryAt h e method o.rpId ledger) fun _ => .pure rfl

theorem alike_signFrom (wallet : ContractAddress) (method : SignMethod) (o : SignOptions)
    (shared : Option UInt32) (entries : List AuthEntry) :
    Alike R Eq (c.signFrom wallet method o shared entries)
      ((c.withServices y).signFrom wallet method o shared entries) := by
  induction entries generalizing shared with
  | nil =>
      rw [signFrom, signFrom]
      exact .pure rfl
  | cons e rest ih =>
      rw [signFrom, signFrom]
      split
      · refine .bind (alike_signNext h e method o shared) fun r r' hr => ?_
        rw [hr.eq]
        cases r' with
        | error error => exact .pure rfl
        | ok r' => exact .bind_eq (ih (some r'.2)) fun _ => .pure rfl
      · exact .bind_eq (ih shared) fun _ => .pure rfl

theorem alike_signEntries (entries : List AuthEntry) (method : SignMethod) (o : SignOptions) :
    Alike R Eq (c.signEntries entries method o)
      ((c.withServices y).signEntries entries method o) := by
  unfold signEntries
  split
  · exact .pure rfl
  · refine .bind .get fun s t hs => ?_
    rw [hs.wallet]
    cases t.wallet with
    | none => exact .pure rfl
    | some wallet => exact alike_signFrom h wallet method o none entries

theorem alike_sign (input : TransactionInput) (method : SignMethod) (o : SignOptions) :
    AlikeActions R Eq (c.sign input method o) ((c.withServices y).sign input method o) := by
  refine .bind_eq (.liftExcept _) fun t => ?_
  have hnormalized : AlikeActions R Eq (c.signNormalized t method o)
      ((c.withServices y).signNormalized t method o) := by
    unfold signNormalized
    split
    · refine .bind_eq (.liftState (alike_signEntries h t.auth method o)) fun r => ?_
      exact .bind_eq (.ofExcept _ _) fun _ => .pure rfl
    · exact .pure rfl
  exact .bind_eq hnormalized fun _ => .liftExcept _

omit h in
theorem alike_attachPolicy (t : NormalizedTransaction) (index : Nat) (policy : ContractAddress) :
    AlikeActions R Eq (attachPolicy t index policy : Action σ NormalizedTransaction)
      (attachPolicy t index policy) := by
  refine .bind .get fun s s' hs => ?_
  rw [hs.wallet]
  cases s'.wallet with
  | none => exact .throw _
  | some wallet => exact .liftExcept _

/-! ## Commands -/

/-- One step: a command gets the same reply. -/
theorem alike_perform (command : Command) :
    Alike R Eq (c.perform command) ((c.withServices y).perform command) := by
  have hreply {α : Type} (reply : Except WalletError α → Reply) :
      ∀ r r' : Except WalletError α, SameOutcome Eq r r' → reply r = reply r' :=
    fun _ _ hr => congrArg reply hr.eq
  cases command with
  | createKey app user now => exact .map (alike_createKey h app user now) (hreply _)
  | connectWallet keyId fallback => exact .map (alike_connectWallet h keyId fallback) (hreply _)
  | expiration o => exact .map (alike_expiration h o) (hreply _)
  | isSignerExpired contract signer =>
      exact .map (alike_isSignerExpired h contract signer) fun _ _ => congrArg Reply.expired
  | signEntry e method o => exact .map (alike_signEntry h e method o) (hreply _)
  | signEntries entries method o =>
      exact .map (alike_signEntries h entries method o) fun _ _ hr => by rw [hr]
  | sign input method o => exact .map (alike_sign h input method o) (hreply _)
  | attachPolicy t index policy => exact .map (alike_attachPolicy t index policy) (hreply _)

/-- A whole run: every command gets the same reply, and the sessions stay alike. -/
theorem alike_run (commands : List Command) :
    Alike R Eq (c.run commands) ((c.withServices y).run commands) := by
  unfold run
  induction commands with
  | nil => exact .pure rfl
  | cons command rest ih =>
      rw [List.mapM_cons, List.mapM_cons]
      exact .bind_eq (alike_perform h command) fun _ => .bind_eq ih fun _ => .pure rfl

end Client

end SmartWallet
