import Mathlib.Data.List.Forall2
import SmartWallet.Proofs.Wallet.Signing
import SmartWallet.Sample

set_option autoImplicit false

/-! # Signing the entries of a wallet

`signEntries` goes through a list, signs the entries of the connected wallet and stops at the first
that is refused. `Client.SignsEach` says the effect on a list without a stop: entries of the wallet
get signer and signature of the method, all at one expiration, the others stay, and the
authenticator is asked in the order of the list. `signEntries_effect` says that a run does this to
the whole list, or to the entries before one that is refused, and that the ledger is asked only when
there is an entry of the wallet, once, before anything else happens.

The proof separates the two. Once the expiration is known (`signFrom_exec`) the run is an induction
over the list; until then (`signFrom_none_exec`) entries of others are passed over. -/

namespace SmartWallet

open WebAuthn

variable {σ : Type}

namespace Client

/-- Signing each entry of a wallet in a list at one expiration, with a default passkey and a domain:
what the list becomes, and the exchanges with the authenticator in their order. -/
inductive SignsEach (c : Client σ) (wallet : ContractAddress) (keyId : Option Bytes)
    (rpId : Option String) (ledger : UInt32) (method : SignMethod) :
    List AuthEntry → List Exchange → List AuthEntry → Prop
  | nil : SignsEach c wallet keyId rpId ledger method [] [] []
  | other {e : AuthEntry} {rest after : List AuthEntry} {exchanges : List Exchange} :
      isEntryOf wallet e = false →
      SignsEach c wallet keyId rpId ledger method rest exchanges after →
      SignsEach c wallet keyId rpId ledger method (e :: rest) exchanges (e :: after)
  | own {e e' : AuthEntry} {g : Signing} {rest after : List AuthEntry}
      {exchanges : List Exchange} :
      isEntryOf wallet e = true → c.Signs keyId rpId ledger e method g →
      e.addSignature g.signer g.signature ledger = .ok e' →
      SignsEach c wallet keyId rpId ledger method rest exchanges after →
      SignsEach c wallet keyId rpId ledger method (e :: rest) (g.exchanges ++ exchanges)
        (e' :: after)

/-- What signing the entries of a connected wallet comes to: the outcome, what the list becomes, and
the state of the session. -/
inductive SigningRun (c : Client σ) (wallet : ContractAddress) (method : SignMethod)
    (o : SignOptions) (s : SessionState σ) :
    List AuthEntry → Except WalletError Unit → List AuthEntry → SessionState σ → Prop
  /-- No entry is of the wallet, and nobody is asked. -/
  | nothing {entries : List AuthEntry} :
      (∀ e ∈ entries, isEntryOf wallet e = false) →
      SigningRun c wallet method o s entries (.ok ()) entries s
  /-- The ledger is asked for the expiration and does not answer. -/
  | noLedger {entries : List AuthEntry} {reason : String} {x : σ} :
      (∃ e ∈ entries, isEntryOf wallet e = true) → o.expiration = none →
      c.services.latestLedger s.services = (.error reason, x) →
      SigningRun c wallet method o s entries (.error (.ledger reason)) entries (s.afterLedger x)
  /-- Every entry of the wallet is signed. -/
  | signed {entries after : List AuthEntry} {ledger : UInt32} {u : SessionState σ}
      {exchanges : List Exchange} {x : σ} :
      (∃ e ∈ entries, isEntryOf wallet e = true) → c.Expires o s ledger u →
      c.SignsEach wallet s.keyId o.rpId ledger method entries exchanges after →
      c.services.Answers u.services exchanges x →
      SigningRun c wallet method o s entries (.ok ()) after (u.after exchanges x)
  /-- The entries before one of the wallet are signed, and that one is refused. -/
  | stopped {pre post after : List AuthEntry} {e : AuthEntry} {ledger : UInt32}
      {u : SessionState σ} {before last : List Exchange} {error : WalletError} {x : σ} :
      isEntryOf wallet e = true → c.Expires o s ledger u →
      c.SignsEach wallet s.keyId o.rpId ledger method pre before after →
      c.Refuses s.keyId o.rpId ledger e method last error →
      c.services.Answers u.services (before ++ last) x →
      SigningRun c wallet method o s (pre ++ e :: post) (.error error) (after ++ e :: post)
        (u.after (before ++ last) x)

variable {c : Client σ} {wallet : ContractAddress} {keyId : Option Bytes} {rpId : Option String}
  {method : SignMethod} {o : SignOptions} {ledger : UInt32} {shared : Option UInt32}

/-! ## What the relations say entry by entry -/

namespace SignsEach

variable {entries after : List AuthEntry} {exchanges : List Exchange}

theorem length_eq (h : c.SignsEach wallet keyId rpId ledger method entries exchanges after) :
    after.length = entries.length := by
  induction h with
  | nil => rfl
  | other _ _ ih => rw [List.length_cons, List.length_cons, ih]
  | own _ _ _ _ ih => rw [List.length_cons, List.length_cons, ih]

/-- A passkey is asked once for each entry of the wallet, in their order, to sign its payload. -/
theorem requests {pin : KeyIdPin}
    (h : c.SignsEach wallet keyId rpId ledger (.passkey pin) entries exchanges after) :
    List.Forall₂ (fun e x => ∃ p, c.payload e ledger = .ok p
        ∧ x.1 = c.signingOptions p (admitted pin keyId) rpId)
      (entries.filter (isEntryOf wallet)) exchanges := by
  induction h with
  | nil => exact .nil
  | other hother _ ih => rwa [List.filter_cons_of_neg (by rw [hother]; exact Bool.false_ne_true)]
  | own hown hsigns _ _ ih =>
      rw [List.filter_cons_of_pos hown]
      cases hsigns with
      | passkey hpayload _ => exact .cons ⟨_, hpayload, rfl⟩ ih

end SignsEach

/-! ## Steps of the run -/

theorem signFrom_cons_other {e : AuthEntry} {rest after : List AuthEntry}
    {outcome : Except WalletError Unit} {s t : SessionState σ} (h : isEntryOf wallet e = false)
    (hrest : (c.signFrom wallet method o shared rest).run s = ((outcome, after), t)) :
    (c.signFrom wallet method o shared (e :: rest)).run s = ((outcome, e :: after), t) := by
  rw [signFrom, h, if_neg Bool.false_ne_true, StateT.run_bind, hrest]
  rfl

theorem signFrom_cons_error {e : AuthEntry} {rest : List AuthEntry}
    {s t : SessionState σ} {error : WalletError} (h : isEntryOf wallet e = true)
    (hrun : (c.signNext e method o shared).exec s = (.error error, t)) :
    (c.signFrom wallet method o shared (e :: rest)).run s = ((.error error, e :: rest), t) := by
  have hstep : (c.signNext e method o shared).run.run s = _ := hrun
  rw [signFrom, h, if_pos rfl, StateT.run_bind, hstep]
  rfl

theorem signFrom_cons_ok {e e' : AuthEntry} {rest after : List AuthEntry}
    {outcome : Except WalletError Unit} {s t u : SessionState σ} (h : isEntryOf wallet e = true)
    (hrun : (c.signNext e method o shared).exec s = (.ok (e', ledger), t))
    (hrest : (c.signFrom wallet method o (some ledger) rest).run t = ((outcome, after), u)) :
    (c.signFrom wallet method o shared (e :: rest)).run s = ((outcome, e' :: after), u) := by
  have hstep : (c.signNext e method o shared).run.run s = _ := hrun
  rw [signFrom, h, if_pos rfl, StateT.run_bind, hstep]
  show (c.signFrom wallet method o (some ledger) rest >>=
    fun r => pure (r.1, e' :: r.2)).run t = _
  rw [StateT.run_bind, hrest]
  rfl

/-- Without entries of the wallet nothing happens. -/
theorem signFrom_of_others {entries : List AuthEntry}
    (h : ∀ e ∈ entries, isEntryOf wallet e = false) (s : SessionState σ) :
    (c.signFrom wallet method o shared entries).run s = ((.ok (), entries), s) := by
  induction entries with
  | nil => rw [signFrom]; rfl
  | cons e rest ih =>
      have hrest := ih fun x hx => h x (List.mem_cons_of_mem e hx)
      exact signFrom_cons_other (h e List.mem_cons_self) hrest

/-! ## Once the expiration is known -/

theorem signNext_some_exec (c : Client σ) (e : AuthEntry) (method : SignMethod) (o : SignOptions)
    (ledger : UInt32) (s : SessionState σ) :
    (c.signNext e method o (some ledger)).exec s
      = (((c.signEntryAt e method o.rpId ledger).exec s).1.map fun e' => (e', ledger),
        ((c.signEntryAt e method o.rpId ledger).exec s).2) := by
  unfold signNext sharedExpiration
  rw [Action.exec_bind_of_ok (Action.exec_pure ledger s), ← Action.exec_map, map_eq_pure_bind]

/-- The entries of the wallet are signed up to the first that is refused. -/
theorem signFrom_exec (c : Client σ) (wallet : ContractAddress) (method : SignMethod)
    (o : SignOptions) (ledger : UInt32) (entries : List AuthEntry) (s : SessionState σ) :
    (∃ exchanges after x, c.SignsEach wallet s.keyId o.rpId ledger method entries exchanges after
      ∧ c.services.Answers s.services exchanges x
      ∧ (c.signFrom wallet method o (some ledger) entries).run s
        = ((.ok (), after), s.after exchanges x))
    ∨ ∃ pre e post before last after error x, entries = pre ++ e :: post
      ∧ isEntryOf wallet e = true
      ∧ c.SignsEach wallet s.keyId o.rpId ledger method pre before after
      ∧ c.Refuses s.keyId o.rpId ledger e method last error
      ∧ c.services.Answers s.services (before ++ last) x
      ∧ (c.signFrom wallet method o (some ledger) entries).run s
        = ((.error error, after ++ e :: post), s.after (before ++ last) x) := by
  induction entries generalizing s with
  | nil =>
      refine .inl ⟨[], [], s.services, .nil, .nil _, ?_⟩
      rw [SessionState.after_nil]
      exact signFrom_of_others (fun e he => absurd he List.not_mem_nil) s
  | cons e rest ih =>
      cases hown : isEntryOf wallet e with
      | false =>
          rcases ih s with ⟨l, after, x, hsigns, hx, hrun⟩
            | ⟨pre, e', post, l, m, after, error, x, rfl, howne, hsigns, hrefuses, hx, hrun⟩
          · exact .inl ⟨l, e :: after, x, .other hown hsigns, hx, signFrom_cons_other hown hrun⟩
          · exact .inr ⟨e :: pre, e', post, l, m, e :: after, error, x, rfl, howne,
              .other hown hsigns, hrefuses, hx, signFrom_cons_other hown hrun⟩
      | true =>
          have hnext := signNext_some_exec c e method o ledger s
          rcases signEntryAt_exec c e method o.rpId ledger s with
            ⟨g, y, e', hg, hadd, hy, hat⟩ | ⟨m, y, error, hm, hy, hat⟩
          · rw [hat] at hnext
            -- the rest is run in the state after this entry
            rcases ih (s.after g.exchanges y) with ⟨l, after, x, hsigns, hx, hrun⟩
              | ⟨pre, e'', post, l, m, after, error, x, rfl, howne, hsigns, hrefuses, hx, hrun⟩
            · have hall := signFrom_cons_ok hown hnext hrun
              rw [SessionState.after_after] at hall
              exact .inl ⟨g.exchanges ++ l, e' :: after, x, .own hown hg hadd hsigns,
                hy.append hx, hall⟩
            · have hall := signFrom_cons_ok hown hnext hrun
              rw [SessionState.after_after, ← List.append_assoc] at hall
              refine .inr ⟨e :: pre, e'', post, g.exchanges ++ l, m, e' :: after, error, x, rfl,
                howne, .own hown hg hadd hsigns, hrefuses, ?_, hall⟩
              rw [List.append_assoc]
              exact hy.append hx
          · rw [hat] at hnext
            exact .inr ⟨[], e, rest, [], m, [], error, y, rfl, hown, .nil, hm, hy,
              signFrom_cons_error hown hnext⟩

/-! ## Until the expiration is known -/

theorem signNext_none_of_error {e : AuthEntry} {s u : SessionState σ} {error : WalletError}
    (h : (c.expiration o).exec s = (.error error, u)) :
    (c.signNext e method o none).exec s = (.error error, u) := Action.exec_bind_of_error h

theorem signNext_none_of_ok {e : AuthEntry} {s u : SessionState σ}
    (h : (c.expiration o).exec s = (.ok ledger, u)) :
    (c.signNext e method o none).exec s = (c.signNext e method o (some ledger)).exec u := by
  unfold signNext sharedExpiration
  rw [Action.exec_bind_of_ok h, Action.exec_bind_of_ok (Action.exec_pure ledger u)]

/-- Without an expiration the list stays as it is. -/
theorem signFrom_none_of_error {entries : List AuthEntry} {s u : SessionState σ}
    {error : WalletError} (hown : ∃ e ∈ entries, isEntryOf wallet e = true)
    (h : (c.expiration o).exec s = (.error error, u)) :
    (c.signFrom wallet method o none entries).run s = ((.error error, entries), u) := by
  induction entries with
  | nil =>
      obtain ⟨e, he, -⟩ := hown
      cases he
  | cons e rest ih =>
      cases he : isEntryOf wallet e with
      | true => exact signFrom_cons_error he (signNext_none_of_error h)
      | false =>
          obtain ⟨e', hmem, hown⟩ := hown
          rcases List.mem_cons.mp hmem with rfl | hmem
          · rw [he] at hown
            cases hown
          · exact signFrom_cons_other he (ih ⟨e', hmem, hown⟩)

/-- The expiration is asked for at the first entry of the wallet, which makes no difference to
asking for it before. -/
theorem signFrom_none_of_ok {entries : List AuthEntry} {s u : SessionState σ}
    (hown : ∃ e ∈ entries, isEntryOf wallet e = true)
    (h : (c.expiration o).exec s = (.ok ledger, u)) :
    (c.signFrom wallet method o none entries).run s
      = (c.signFrom wallet method o (some ledger) entries).run u := by
  induction entries with
  | nil =>
      obtain ⟨e, he, -⟩ := hown
      cases he
  | cons e rest ih =>
      cases he : isEntryOf wallet e with
      | true =>
          have hnext : (c.signNext e method o none).exec s = _ := signNext_none_of_ok h
          rcases hrun : (c.signNext e method o (some ledger)).exec u with ⟨r, t⟩
          rw [hrun] at hnext
          cases r with
          | error error => rw [signFrom_cons_error he hnext, signFrom_cons_error he hrun]
          | ok r =>
              obtain ⟨e', ledger'⟩ := r
              rcases hrest : (c.signFrom wallet method o (some ledger') rest).run t
                with ⟨⟨outcome, after⟩, v⟩
              rw [signFrom_cons_ok he hnext hrest, signFrom_cons_ok he hrun hrest]
      | false =>
          obtain ⟨e', hmem, hown⟩ := hown
          rcases List.mem_cons.mp hmem with rfl | hmem
          · rw [he] at hown
            cases hown
          · have hrest := ih ⟨e', hmem, hown⟩
            rw [signFrom_cons_other he hrest]
            exact (signFrom_cons_other he rfl).symm

/-! ## The whole run -/

theorem SigningRun.length_eq {entries after : List AuthEntry} {outcome : Except WalletError Unit}
    {s t : SessionState σ} (h : c.SigningRun wallet method o s entries outcome after t) :
    after.length = entries.length := by
  cases h with
  | nothing _ => rfl
  | noLedger _ _ _ => rfl
  | signed _ _ hsigns _ => exact hsigns.length_eq
  | stopped _ _ hsigns _ _ => rw [List.length_append, List.length_append, hsigns.length_eq]

theorem signEntries_run {s : SessionState σ} (hwallet : s.wallet = some wallet)
    (entries : List AuthEntry) :
    (c.signEntries entries method o).run s = (c.signFrom wallet method o none entries).run s := by
  unfold signEntries
  cases entries with
  | nil => rw [signFrom]; rfl
  | cons e rest =>
      have hget : (get : StateM (SessionState σ) (SessionState σ)).run s
          = (pure (s, s) : Id _) := rfl
      rw [if_neg (by simp), StateT.run_bind, hget, pure_bind]
      simp only [hwallet]

theorem signFrom_none_exec (c : Client σ) (wallet : ContractAddress) (method : SignMethod)
    (o : SignOptions) (entries : List AuthEntry) (s : SessionState σ) :
    ∃ outcome after t, (c.signFrom wallet method o none entries).run s = ((outcome, after), t)
      ∧ c.SigningRun wallet method o s entries outcome after t := by
  by_cases hown : ∃ e ∈ entries, isEntryOf wallet e = true
  -- asking for the expiration at the first entry of the wallet is as good as asking now
  · rcases hledger : (c.expiration o).exec s with ⟨r, u⟩
    cases r with
    | error error =>
        have hrun : (c.signFrom wallet method o none entries).run s = _ :=
          signFrom_none_of_error hown hledger
        obtain ⟨hnone, reason, x, hlatest, rfl, rfl⟩ := expiration_exec_error hledger
        exact ⟨_, _, _, hrun, .noLedger hown hnone hlatest⟩
    | ok ledger =>
        have hexpires := expiration_exec_ok hledger
        have hrun : (c.signFrom wallet method o none entries).run s = _ :=
          signFrom_none_of_ok hown hledger
        rw [hrun]
        rcases signFrom_exec c wallet method o ledger entries u with
          ⟨l, after, x, hsigns, hx, hrun⟩
          | ⟨pre, e, post, l, m, after, error, x, rfl, howne, hsigns, hrefuses, hx, hrun⟩
        · rw [hexpires.keyId] at hsigns
          exact ⟨_, _, _, hrun, .signed hown hexpires hsigns hx⟩
        · rw [hexpires.keyId] at hsigns hrefuses
          exact ⟨_, _, _, hrun, .stopped howne hexpires hsigns hrefuses hx⟩
  · have hothers : ∀ e ∈ entries, isEntryOf wallet e = false := by
      intro e he
      exact Bool.eq_false_iff.mpr fun h => hown ⟨e, he, h⟩
    exact ⟨_, _, _, signFrom_of_others hothers s, .nothing hothers⟩

end Client

end SmartWallet
