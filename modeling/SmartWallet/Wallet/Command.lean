import SmartWallet.Wallet.Session

set_option autoImplicit false

/-! # Commands

The operations of a session as data, so that a whole session is a list of commands. `Client.perform`
performs one and `Client.run` all of a list, each with its reply; a command that fails does not end
the session. -/

namespace SmartWallet

/-- An operation of a session with its arguments. -/
inductive Command where
  /-- Creates a passkey at a point in time. -/
  | createKey (app user : String) (now : Nat)
  /-- Connects the wallet of a passkey. -/
  | connectWallet (keyId : Option Bytes) (fallback : Option ContractAddress)
  | expiration (o : SignOptions)
  /-- Asks whether a contract does not keep a signer. -/
  | isSignerExpired (contract : ContractAddress) (signer : SignerKey)
  | signEntry (e : AuthEntry) (method : SignMethod) (o : SignOptions)
  /-- Signs the entries of the connected wallet. -/
  | signEntries (entries : List AuthEntry) (method : SignMethod) (o : SignOptions)
  | sign (input : TransactionInput) (method : SignMethod) (o : SignOptions)
  /-- Appends a policy entry. -/
  | attachPolicy (t : NormalizedTransaction) (index : Nat) (policy : ContractAddress)

/-- What a command answers. -/
inductive Reply where
  | createdKey (k : CreatedKey)
  | connectedWallet (w : ConnectedWallet)
  | expiration (ledger : UInt32)
  /-- Whether a signer is not kept. -/
  | expired (b : Bool)
  /-- The outcome of signing entries, and the entries as they are afterwards. -/
  | entries (outcome : Except WalletError Unit) (entries : List AuthEntry)
  | text (t : String)
  /-- A transaction. -/
  | transaction (t : NormalizedTransaction)
  | failed (e : WalletError)

/-- The reply to an action. -/
def Reply.ofExcept {α : Type} (reply : α → Reply) : Except WalletError α → Reply
  | .ok x => reply x
  | .error e => failed e

/-- The reply to the signing of a single entry, which stays as it was when that fails. -/
def Reply.ofSigned (e : AuthEntry) : Except WalletError AuthEntry → Reply
  | .ok signed => entries (.ok ()) [signed]
  | .error error => entries (.error error) [e]

namespace Client

variable {σ : Type}

def perform (c : Client σ) : Command → StateM (SessionState σ) Reply
  | .createKey app user now => .ofExcept .createdKey <$> (c.createKey app user now).run
  | .connectWallet keyId fallback =>
    .ofExcept .connectedWallet <$> (c.connectWallet keyId fallback).run
  | .expiration o => .ofExcept .expiration <$> (c.expiration o).run
  | .isSignerExpired contract signer => .expired <$> c.isSignerExpired contract signer
  | .signEntry e method o => .ofSigned e <$> (c.signEntry e method o).run
  | .signEntries entries method o =>
    (fun (outcome, entries) => .entries outcome entries) <$> c.signEntries entries method o
  | .sign input method o => .ofExcept .text <$> (c.sign input method o).run
  | .attachPolicy t index policy =>
    .ofExcept .transaction <$> (attachPolicy t index policy : Action σ NormalizedTransaction).run

/-- Performs the commands of a list. -/
def run (c : Client σ) (commands : List Command) : StateM (SessionState σ) (List Reply) :=
  commands.mapM c.perform

end Client

end SmartWallet
