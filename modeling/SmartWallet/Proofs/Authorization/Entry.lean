import SmartWallet.Authorization.Preimage
import SmartWallet.Proofs.ScVal.Sort

set_option autoImplicit false

/-! # Adding a signature to an entry

`addSignature_eq_ok_iff` says what adding a signature does to an entry: the signature value becomes
a sorted map with one pair more, the expiration is the given one, and everything else stays. What is
signed for an entry, its payload, depends only on what stays, so earlier signatures of an entry do
not change what later signers sign. -/

namespace SmartWallet

namespace AuthEntry

variable {e e' : AuthEntry} {a : AddressCredentials}

theorem addressCredentials_eq_ok_iff :
    e.addressCredentials = .ok a ↔ e.credentials = .address a := by
  unfold addressCredentials
  cases e.credentials with
  | sourceAccount => simp
  | address b => simp

/-- The credentials with one pair more in the map and a new expiration. -/
def signedCredentials (a : AddressCredentials) (entries : List ScMapEntry) (pair : ScMapEntry)
    (expiration : UInt32) : AddressCredentials :=
  { a with
    signature := .map (some (ScVal.sortEntries (entries ++ [pair])))
    expiration := expiration }

/-- A signature can be added when the entry has credentials of its own and its signature value is a
map or nothing; then the map has one pair more. -/
theorem addSignature_eq_ok_iff {signer : SignerKey} {x : Option Signature} {expiration : UInt32} :
    e.addSignature signer x expiration = .ok e' ↔
      ∃ a entries, e.credentials = .address a ∧ containerEntries a.signature = .ok entries
        ∧ e' = ⟨.address (signedCredentials a entries (signatureEntry signer x) expiration),
          e.rootInvocation⟩ := by
  unfold addSignature
  cases hc : e.credentials with
  | sourceAccount =>
      simp [addressCredentials, hc, bind, Except.bind]
  | address a =>
      cases hm : containerEntries a.signature with
      | error cause => simp [addressCredentials, hc, hm, bind, Except.bind]
      | ok entries =>
          simp only [addressCredentials, hc, hm, bind, Except.bind]
          constructor
          · intro h
            cases h
            exact ⟨a, entries, rfl, hm, rfl⟩
          · rintro ⟨a, m, ⟨⟩, h, rfl⟩
            rw [hm] at h
            cases h
            rfl

/-! ## More pairs -/

/-- The entry with one pair more in its map and a new expiration. -/
def withPair (e : AuthEntry) (credentials : AddressCredentials) (entries : List ScMapEntry)
    (expiration : UInt32) (pair : ScMapEntry) : AuthEntry :=
  ⟨.address (signedCredentials credentials entries pair expiration), e.rootInvocation⟩

/-- The entry with some pairs more, which is the entry itself if there are none. -/
def withPairs (e : AuthEntry) (credentials : AddressCredentials) (entries : List ScMapEntry)
    (expiration : UInt32) : List ScMapEntry → AuthEntry
  | [] => e
  | pair :: rest => ⟨.address { credentials with
      signature := .map (some (ScVal.sortEntries (entries ++ pair :: rest)))
      expiration := expiration }, e.rootInvocation⟩

variable {entries : List ScMapEntry} {expiration expiration' : UInt32}

theorem withPairs_cons (pair : ScMapEntry) (rest : List ScMapEntry) :
    e.withPairs a entries expiration (pair :: rest)
      = ⟨.address { a with
          signature := .map (some (ScVal.sortEntries (entries ++ pair :: rest)))
          expiration := expiration }, e.rootInvocation⟩ := rfl

/-- Pairs may be added one by one or together; the last expiration counts. -/
theorem withPairs_withPair (pair : ScMapEntry) (pairs : List ScMapEntry)
    (h : pairs = [] → expiration = expiration') :
    (e.withPair a entries expiration pair).withPairs (signedCredentials a entries pair expiration)
        (ScVal.sortEntries (entries ++ [pair])) expiration' pairs
      = e.withPairs a entries expiration' (pair :: pairs) := by
  cases pairs with
  | nil =>
      rw [← h rfl]
      rfl
  | cons next rest =>
      rw [withPairs_cons, withPairs_cons, ScVal.sortEntries_append_sortEntries, List.append_assoc]
      rfl

/-- Pairs with different keys may be added in any order. -/
theorem withPairs_perm {pairs pairs' : List ScMapEntry} (h : pairs.Perm pairs')
    (hkeys : (pairs.map Prod.fst).Nodup) :
    e.withPairs a entries expiration pairs = e.withPairs a entries expiration pairs' := by
  match pairs, pairs', h with
  | [], [], _ => rfl
  | [], _ :: _, h => exact absurd h.nil_eq nofun
  | _ :: _, [], h => exact absurd h.symm.nil_eq nofun
  | pair :: rest, pair' :: rest', h =>
      rw [withPairs_cons, withPairs_cons, ScVal.sortEntries_append_of_perm hkeys h]

/-! ## Payloads -/

theorem payload_eq (h : e.credentials = .address a) (passphrase : String) (ledger : UInt32) :
    e.payload passphrase ledger
      = authorizationPayload passphrase a.nonce ledger e.rootInvocation := by
  unfold payload
  rw [addressCredentials_eq_ok_iff.mpr h]
  rfl

/-- What is signed for an entry does not depend on the pairs of its map. -/
theorem payload_withPair (h : e.credentials = .address a) (pair : ScMapEntry) (passphrase : String)
    (ledger : UInt32) :
    (e.withPair a entries expiration pair).payload passphrase ledger
      = e.payload passphrase ledger := by
  have hpair : (e.withPair a entries expiration pair).credentials
      = .address (signedCredentials a entries pair expiration) := rfl
  rw [payload_eq hpair, payload_eq h]
  rfl

/-- Entries with the same nonce and the same invocation are signed alike. -/
theorem payload_addSignature {signer : SignerKey} {x : Option Signature} {expiration : UInt32}
    (h : e.addSignature signer x expiration = .ok e') (passphrase : String) (ledger : UInt32) :
    e'.payload passphrase ledger = e.payload passphrase ledger := by
  obtain ⟨a, entries, ha, -, rfl⟩ := addSignature_eq_ok_iff.mp h
  rw [payload_eq ha, payload_eq rfl]
  rfl

/-- What signers of an entry sign when it is to expire at the ledger that it names. -/
def finalPayload (e : AuthEntry) (passphrase : String) : Except AuthError Bytes32 := do
  let c ← e.addressCredentials
  e.payload passphrase c.expiration

theorem finalPayload_eq (h : e.credentials = .address a) (passphrase : String) :
    e.finalPayload passphrase = e.payload passphrase a.expiration := by
  unfold finalPayload
  rw [addressCredentials_eq_ok_iff.mpr h]
  rfl

/-- An entry that was signed is compared with what was signed for it. -/
theorem finalPayload_addSignature {signer : SignerKey} {x : Option Signature} {expiration : UInt32}
    (h : e.addSignature signer x expiration = .ok e') (passphrase : String) :
    e'.finalPayload passphrase = e.payload passphrase expiration := by
  rw [← payload_addSignature h]
  obtain ⟨a, entries, -, -, rfl⟩ := addSignature_eq_ok_iff.mp h
  rw [finalPayload_eq (a := signedCredentials a entries (signatureEntry signer x) expiration) rfl]
  rfl

end AuthEntry

end SmartWallet
