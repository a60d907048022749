import SmartWallet.Proofs.Wallet.Failure

set_option autoImplicit false

/-! # The default passkey

Two commands set the default passkey of a session, and the first to do so decides: a passkey that is
created or connected later does not take its place, and neither does a failure. Signing requests
that pin the default one therefore name one and the same passkey from then on
(`Client.defaultPasskey_stable`).

The only other prompts for a passkey come from connecting a wallet without saying for which passkey,
which asks for any. -/

namespace SmartWallet

open WebAuthn

variable {σ : Type}

/-- How a command signs, if it does. -/
def Command.method? : Command → Option SignMethod
  | .signEntry _ method _ => some method
  | .signEntries _ method _ => some method
  | .sign _ method _ => some method
  | _ => none

/-- The prompts for a passkey that a command can make in a session
with the given default passkey. -/
inductive Command.Prompts (command : Command) (keyId : Option Bytes) : AuthenticationOptions → Prop
  | signing {pin : KeyIdPin} {o : AuthenticationOptions}
      (method_eq : command.method? = some (.passkey pin))
      (pins : Pins pin keyId o.allowCredentials) :
      Prompts command keyId o
  | identify {fallback : Option ContractAddress} {o : AuthenticationOptions}
      (command_eq : command = .connectWallet none fallback) (unpinned : o.allowCredentials = []) :
      Prompts command keyId o

/-! ## Steps that set something -/

section

variable {P : Request → Prop}

theorem grows_rememberKey (keyId : Bytes) :
    Leads (Grows P) (Client.rememberKey keyId : Action σ Unit).run := by
  intro s
  refine ⟨?_, fun h => h, .nothing rfl⟩
  intro id hid
  show s.keyId.or (some keyId) = some id
  rw [hid, Option.some_or]

theorem grows_setWallet (wallet : ContractAddress) :
    Leads (Grows P)
      (modify fun s => { s with wallet := some wallet } : Action σ PUnit).run :=
  fun _ => ⟨fun _ h => h, fun _ => Option.some_ne_none wallet, .nothing rfl⟩

end

namespace Client

variable (c : Client σ)

/-- Creating a passkey asks for a registration. -/
theorem grows_createKey (app user : String) (now : Nat) :
    Leads (Grows fun q => ∃ o, q = .registration o) (c.createKey app user now).run := by
  refine .action_bind (fun _ => .ask ⟨_, rfl⟩) fun response => ?_
  refine .action_bind (.ofExcept _ _) fun publicKey => ?_
  exact .action_bind (grows_rememberKey response.rawId) fun _ => .action_pure _

/-- Connecting the wallet of a known passkey looks values up. -/
theorem grows_connectKnown (keyId : Bytes) (fallback : Option ContractAddress) :
    Leads (Grows LookupRequest) (c.connectKnown keyId fallback).run := by
  have hfind : Leads (Grows LookupRequest) (c.findWallet keyId fallback).run :=
    fun s => (c.follows_findWallet keyId fallback s).grows
  refine .action_bind (grows_rememberKey keyId) fun _ => .action_bind hfind fun found => ?_
  exact .action_bind (grows_setWallet found.1) fun _ => .action_pure _

/-- Connecting the wallet of a passkey that is not known asks for the passkey first, and then only
looks values up. -/
theorem grows_connectWallet_none (fallback : Option ContractAddress) (s : SessionState σ) :
    Grows LookupRequest ((c.authenticate c.identifyOptions).exec s).2
      ((c.connectWallet none fallback).exec s).2 := by
  rw [connectWallet_none]
  exact Leads.exec_bind_rest fun response => c.grows_connectKnown response.rawId fallback _

/-! ## Commands -/

/-- Signing keeps the default passkey, and prompts for what its pin says. -/
theorem follows_perform {command : Command} {method : SignMethod}
    (h : command.method? = some method) :
    Leads (Follows (SigningRequest method)) (c.perform command) := by
  cases command with
  | signEntry e m o =>
      obtain rfl : m = method := Option.some.inj h
      exact .map _ (c.follows_signEntry e m o)
  | signEntries entries m o =>
      obtain rfl : m = method := Option.some.inj h
      exact .map _ (c.follows_signEntries entries m o)
  | sign input m o =>
      obtain rfl : m = method := Option.some.inj h
      exact .map _ (c.follows_sign input m o)
  | createKey app user now => cases h
  | connectWallet keyId fallback => cases h
  | expiration o => cases h
  | isSignerExpired contract signer => cases h
  | attachPolicy t index policy => cases h

/-- One step: what was set stays set, and every prompt is one that the command can make. -/
theorem grows_perform (command : Command) (s : SessionState σ) :
    Grows (fun q => ∀ o, q = .authentication o → command.Prompts s.keyId o) s
      ((c.perform command).run s).2 := by
  have hsign {method : SignMethod} (h : command.method? = some method) :
      Grows (fun q => ∀ o, q = .authentication o → command.Prompts s.keyId o) s
        ((c.perform command).run s).2 := by
    refine (c.follows_perform h s).grows.mono ?_
    rintro q hq o rfl
    obtain _ | ⟨rfl, hpins⟩ := hq
    exact .signing h hpins
  have hlookup {q : Request} (hq : LookupRequest q) :
      ∀ o, q = .authentication o → command.Prompts s.keyId o := by
    rintro o rfl
    obtain ⟨d, ⟨⟩⟩ := hq
  cases command with
  | createKey app user now =>
      refine (c.grows_createKey app user now s).mono ?_
      rintro q ⟨o, rfl⟩ o' ⟨⟩
  | connectWallet keyId fallback =>
      cases keyId with
      | some id => exact (c.grows_connectKnown id fallback s).mono fun _ => hlookup
      | none =>
          have hidentify : ∀ o, Request.authentication c.identifyOptions = .authentication o →
              (Command.connectWallet none fallback).Prompts s.keyId o := by
            rintro o ⟨⟩
            exact .identify rfl rfl
          have hrest := (c.grows_connectWallet_none fallback s).mono fun _ => hlookup
          exact Chains.trans (.ask hidentify) hrest
  | expiration o =>
      refine (c.follows_expiration o s).grows.mono ?_
      rintro q rfl o' ⟨⟩
  | isSignerExpired contract signer =>
      exact (c.follows_isSignerExpired contract signer s).grows.mono fun _ => hlookup
  | signEntry e method o => exact hsign rfl
  | signEntries entries method o => exact hsign rfl
  | sign input method o => exact hsign rfl
  | attachPolicy t index policy =>
      exact (follows_attachPolicy t index policy s).grows.mono fun _ hq => hq.elim

/-- A whole run: what was set stays set. -/
theorem grows_run (commands : List Command) : Leads (Grows fun _ => True) (c.run commands) := by
  unfold run
  induction commands with
  | nil => exact .pure []
  | cons command rest ih =>
      rw [List.mapM_cons]
      refine .bind (fun s => (c.grows_perform command s).mono fun _ _ => trivial) fun _ => ?_
      exact .bind ih fun _ => .pure _

/-- The state of a new session after some commands. -/
def after (x : σ) (commands : List Command) : SessionState σ :=
  ((c.run commands).run (.start x)).2

theorem after_append (x : σ) (before later : List Command) :
    c.after x (before ++ later) = ((c.run later).run (c.after x before)).2 := by
  unfold after run
  rw [List.mapM_append]
  rfl

theorem after_concat (x : σ) (before : List Command) (command : Command) :
    c.after x (before ++ [command]) = ((c.perform command).run (c.after x before)).2 := by
  rw [after_append, run, List.mapM_cons, List.mapM_nil]
  rfl

/-! ## The default passkey of a session -/

/-- In every session, once there is a default passkey it stays for good, and once a wallet is
connected there always is one. A command that signs keeps both, and it prompts for what its pin
admits, where the default passkey is that of the session at the time. No other command prompts for a
passkey, except that connecting a wallet without saying for which passkey asks once, and for any. -/
theorem defaultPasskey_stable (x : σ) (before later : List Command) (command : Command) :
    (∀ id, (c.after x before).keyId = some id → (c.after x (before ++ later)).keyId = some id)
    ∧ ((c.after x before).wallet ≠ none → (c.after x (before ++ later)).wallet ≠ none)
    ∧ (command.method? ≠ none →
      (c.after x (before ++ [command])).keyId = (c.after x before).keyId
        ∧ (c.after x (before ++ [command])).wallet = (c.after x before).wallet)
    ∧ ∃ requests, (c.after x (before ++ [command])).journal
        = (c.after x before).journal ++ requests
      ∧ (∀ o, .authentication o ∈ requests → command.Prompts (c.after x before).keyId o)
      ∧ ∀ fallback, command = .connectWallet none fallback →
        ∃ rest, requests = .authentication c.identifyOptions :: rest
          ∧ ∀ o, .authentication o ∉ rest := by
  have hgrows := c.grows_run later (c.after x before)
  rw [← after_append] at hgrows
  refine ⟨hgrows.keyId, hgrows.wallet, ?_, ?_⟩
  · intro hmethod
    obtain ⟨method, hmethod⟩ := Option.ne_none_iff_exists'.mp hmethod
    have hfollows := c.follows_perform hmethod (c.after x before)
    rw [← after_concat] at hfollows
    exact ⟨hfollows.keyId, hfollows.wallet⟩
  · have hstep := c.grows_perform command (c.after x before)
    rw [← after_concat] at hstep
    obtain ⟨requests, hjournal, hprompts⟩ := hstep.asks
    refine ⟨requests, hjournal, fun o ho => hprompts _ ho o rfl, ?_⟩
    rintro fallback rfl
    obtain ⟨rest, hrest, hlookups⟩ :=
      (c.grows_connectWallet_none fallback (c.after x before)).asks
    have hsame : (c.after x before).journal ++ requests
        = (c.after x before).journal ++ (.authentication c.identifyOptions :: rest) := by
      rw [← hjournal, after_concat]
      show ((c.connectWallet none fallback).exec (c.after x before)).2.journal = _
      rw [hrest]
      exact List.append_assoc _ _ _
    refine ⟨rest, List.append_cancel_left hsame, ?_⟩
    intro o ho
    obtain ⟨d, hd⟩ := hlookups _ ho
    cases hd

/-- A ledger that keeps nothing, and a user who shows no passkey. -/
def sampleServices : Environment := ⟨⟨1000, false, []⟩, .scripted ⟨[], []⟩⟩

/-- A passkey is connected and then another one, both in vain, before more commands. -/
def sampleReconnected (commands : List Command) : SessionState Environment :=
  Sample.client.after sampleServices
    ([.connectWallet (some Sample.credentialId) none] ++ .connectWallet (some [1]) none :: commands)

def sampleSigning : Command :=
  .signEntry (Sample.entry Sample.wallet 7) (.passkey .default) ⟨some 5000, none⟩

/-- Signing with the default passkey asks for the first one, and once. -/
theorem defaultPasskey_stable_sample :
    ∃ o, (sampleReconnected [sampleSigning]).journal
        = (sampleReconnected []).journal ++ [.authentication o]
      ∧ o.allowCredentials = [⟨Sample.credentialId, .publicKey⟩] := by
  have hfirst : (Sample.client.after sampleServices
      [.connectWallet (some Sample.credentialId) none]).keyId = some Sample.credentialId := by
    decide +kernel
  have hcount : (sampleReconnected [sampleSigning]).journal.length
      = (sampleReconnected []).journal.length + 1 := by decide +kernel
  have hlast :
      ∃ o, (sampleReconnected [sampleSigning]).journal.getLast? = some (.authentication o) :=
    ⟨_, rfl⟩
  obtain ⟨hstays, -⟩ := defaultPasskey_stable Sample.client sampleServices
    [.connectWallet (some Sample.credentialId) none] [.connectWallet (some [1]) none] sampleSigning
  obtain ⟨-, -, -, requests, hjournal, hprompts, -⟩ := defaultPasskey_stable Sample.client
    sampleServices ([.connectWallet (some Sample.credentialId) none]
      ++ [.connectWallet (some [1]) none]) [] sampleSigning
  rw [List.append_assoc, List.singleton_append] at hjournal
  replace hjournal : (sampleReconnected [sampleSigning]).journal
      = (sampleReconnected []).journal ++ requests := hjournal
  rw [hjournal, List.length_append] at hcount
  obtain ⟨q, rfl⟩ := List.length_eq_one_iff.mp (Nat.add_left_cancel hcount)
  obtain ⟨o, ho⟩ := hlast
  rw [hjournal, List.getLast?_concat] at ho
  obtain rfl := Option.some.inj ho
  refine ⟨o, hjournal, ?_⟩
  have hprompt := hprompts o (List.mem_singleton_self _)
  rw [hstays _ hfirst] at hprompt
  obtain ⟨⟨⟩, hpins⟩ | ⟨⟨⟩, -⟩ := hprompt
  generalize o.allowCredentials = allowed at hpins ⊢
  cases hpins
  rfl

end Client

end SmartWallet
