import SmartWallet.Proofs.Authorization.Entry
import SmartWallet.Proofs.Except.Traversal
import SmartWallet.Proofs.Signer.RoundTrip
import SmartWallet.Proofs.Signer.Order
import SmartWallet.Sample

set_option autoImplicit false

/-! # The signature map after any number of calls

Signatures are added to an entry in place, one call after the other; a call that is refused leaves
the entry as it was. `addAll` performs the calls of a list, and `addAll_stableSort` says what comes
of it. An entry with credentials of its own whose signature value is a map or nothing takes every
signature, and afterwards its map is what it held at first and then the pairs of the calls, stably
sorted; the entry expires as the last call said. If it held nothing, the signers and signatures can
be read back, in the order of signer keys. Any other entry refuses every call.

Each call sorts the whole map again. That comes to sorting once at the end, since a list may be
sorted before more pairs are added (`ScVal.sortEntries_append_sortEntries`). Without calls nothing
is sorted: the entry stays, even if its map is out of order or missing. -/

namespace SmartWallet

/-! ## Calls -/

/-- A call that adds a signature. -/
structure Addition where
  signer : SignerKey
  signature : Option Signature
  expiration : UInt32

/-- The pair that a call puts into the map. -/
def Addition.pair (x : Addition) : ScMapEntry := AuthEntry.signatureEntry x.signer x.signature

/-- The signer of a call with its signature. -/
def Addition.signed (x : Addition) : SignerKey × Option Signature := (x.signer, x.signature)

namespace AuthEntry

/-- Adds a signature in place. -/
def add (x : Addition) : StateM AuthEntry (Except AuthError Unit) :=
  inPlace fun e => e.addSignature x.signer x.signature x.expiration

/-- Performs the calls of a list, each with its outcome; one that is
refused does not end the run. -/
def addAll (calls : List Addition) : StateM AuthEntry (List (Except AuthError Unit)) :=
  calls.mapM add

/-- The pairs that a signature value holds, if it is a map or nothing. -/
inductive Holds : ScVal → List ScMapEntry → Prop
  | void : Holds .void []
  /-- A map that is missing. -/
  | noMap : Holds (.map none) []
  | map (m : List ScMapEntry) : Holds (.map (some m)) m

theorem containerEntries_eq_ok_iff {v : ScVal} {m : List ScMapEntry} :
    containerEntries v = .ok m ↔ Holds v m := by
  constructor
  · intro h
    unfold containerEntries at h
    split at h
    · cases h
      exact .void
    · cases h
      exact .noMap
    · cases h
      exact .map m
    · cases h
  · rintro (_ | _ | _) <;> rfl

variable {e : AuthEntry} {a : AddressCredentials} {m : List ScMapEntry}

/-! ## Entries that take signatures -/

/-- The entry after some calls: without calls it stays. -/
def withAdditions (e : AuthEntry) (a : AddressCredentials) (m : List ScMapEntry)
    (calls : List Addition) : AuthEntry :=
  match calls.getLast? with
  | none => e
  | some last => e.withPairs a m last.expiration (calls.map Addition.pair)

theorem addAll_cons_run {x : Addition} {rest : List Addition} {outcome : Except AuthError Unit}
    {e₁ : AuthEntry} (h : (add x).run e = (outcome, e₁)) :
    (addAll (x :: rest)).run e
      = (outcome :: ((addAll rest).run e₁).1, ((addAll rest).run e₁).2) := mapM_run_cons h rest

theorem withAdditions_of_getLast? {calls : List Addition} {last : Addition}
    (h : calls.getLast? = some last) : e.withAdditions a m calls
      = ⟨.address { a with
          signature := .map (some (ScVal.sortEntries (m ++ calls.map Addition.pair)))
          expiration := last.expiration }, e.rootInvocation⟩ := by
  unfold withAdditions
  rw [h]
  cases calls with
  | nil => cases h
  | cons x rest => rfl

theorem withAdditions_cons (x : Addition) (rest : List Addition) :
    (e.withPair a m x.expiration x.pair).withAdditions
        (signedCredentials a m x.pair x.expiration) (ScVal.sortEntries (m ++ [x.pair])) rest
      = e.withAdditions a m (x :: rest) := by
  unfold withAdditions
  rw [List.getLast?_cons]
  cases hlast : rest.getLast? with
  | none =>
      obtain rfl := List.getLast?_eq_none_iff.mp hlast
      rfl
  | some last =>
      apply withPairs_withPair
      intro hnil
      rw [List.map_eq_nil_iff.mp hnil] at hlast
      cases hlast

theorem addSignature_of_holds (he : e.credentials = .address a) (hm : Holds a.signature m)
    (x : Addition) : e.addSignature x.signer x.signature x.expiration
      = .ok (e.withPair a m x.expiration x.pair) :=
  addSignature_eq_ok_iff.mpr ⟨a, m, he, containerEntries_eq_ok_iff.mpr hm, rfl⟩

/-- Every call succeeds. -/
theorem addAll_run_of_holds (he : e.credentials = .address a) (hm : Holds a.signature m)
    (calls : List Addition) :
    (addAll calls).run e = (calls.map fun _ => .ok (), e.withAdditions a m calls) := by
  induction calls generalizing e a m with
  | nil => rfl
  | cons x rest ih =>
      rw [addAll_cons_run (inPlace_run_of_ok (addSignature_of_holds he hm x)), ih rfl (.map _),
        withAdditions_cons]
      rfl

/-! ## Reading the signatures back -/

theorem signatureOfEntry_pair (x : Addition) : signatureOfEntry x.pair = .ok x.signed := by
  show (SignerKey.ofScVal x.signer.toScVal >>= fun signer => do
    return (signer, ← Signature.optionOfScVal (Signature.optionToScVal x.signature))) = _
  rw [SignerKey.ofScVal_toScVal, Signature.optionOfScVal_optionToScVal]
  rfl

/-- Pairs are in the order of the signers of their calls. -/
theorem sortEntries_map_pair (calls : List Addition) :
    ScVal.sortEntries (calls.map Addition.pair)
      = (calls.mergeSort fun x y => (compare x.signer y.signer).isLE).map Addition.pair := by
  symm
  apply List.map_mergeSort
  intro x _ y _
  rw [← SignerKey.compare_toScVal]
  rfl

theorem mapM_signatureOfEntry_pair (calls : List Addition) :
    (calls.map Addition.pair).mapM signatureOfEntry = .ok (calls.map Addition.signed) := by
  induction calls with
  | nil => rfl
  | cons x rest ih =>
      rw [List.map_cons, List.mapM_cons, signatureOfEntry_pair, ih]
      rfl

/-- The signatures of an entry that held none are those of the calls, sorted by signer. -/
theorem signatures_withAdditions (he : e.credentials = .address a) (ha : a.signature = .void)
    (calls : List Addition) : (e.withAdditions a [] calls).signatures
      = .ok ((calls.map Addition.signed).mergeSort fun x y => (compare x.1 y.1).isLE) := by
  have hsigned : (calls.map Addition.signed).mergeSort (fun x y => (compare x.1 y.1).isLE)
      = (calls.mergeSort fun x y => (compare x.signer y.signer).isLE).map Addition.signed := by
    symm
    apply List.map_mergeSort
    intro x _ y _
    rfl
  cases hlast : calls.getLast? with
  | none =>
      obtain rfl := List.getLast?_eq_none_iff.mp hlast
      show e.signatures = _
      simp only [signatures, addressCredentials_eq_ok_iff.mpr he]
      show (containerEntries a.signature >>= fun m => m.mapM signatureOfEntry) = _
      rw [ha, hsigned, List.mergeSort_nil]
      rfl
  | some last =>
      rw [withAdditions_of_getLast? hlast]
      show (ScVal.sortEntries (calls.map Addition.pair)).mapM signatureOfEntry = _
      rw [sortEntries_map_pair, mapM_signatureOfEntry_pair, hsigned]

/-! ## Entries that refuse signatures -/

/-- An entry that takes no signature. -/
def Refuses (e : AuthEntry) : Prop :=
  e.credentials = .sourceAccount ∨ ∃ a, e.credentials = .address a ∧ ∀ m, ¬ Holds a.signature m

theorem addSignature_of_sourceAccount (h : e.credentials = .sourceAccount) (signer : SignerKey)
    (x : Option Signature) (expiration : UInt32) :
    e.addSignature signer x expiration = .error .unsupportedCredentials := by
  unfold AuthEntry.addSignature addressCredentials
  rw [h]
  rfl

theorem addSignature_of_containerEntries {cause : AuthError} (ha : e.credentials = .address a)
    (h : containerEntries a.signature = .error cause) (signer : SignerKey) (x : Option Signature)
    (expiration : UInt32) : e.addSignature signer x expiration = .error cause := by
  unfold AuthEntry.addSignature
  rw [addressCredentials_eq_ok_iff.mpr ha]
  show (containerEntries a.signature >>= fun entries => _) = _
  rw [h]
  rfl

theorem exists_containerEntries_eq_error {v : ScVal} (h : ∀ m, ¬ Holds v m) :
    ∃ cause, containerEntries v = .error cause := by
  cases hv : containerEntries v with
  | ok m => exact absurd (containerEntries_eq_ok_iff.mp hv) (h m)
  | error cause => exact ⟨cause, rfl⟩

theorem Refuses.addSignature (h : e.Refuses) :
    ∃ cause, ∀ signer x expiration, e.addSignature signer x expiration = .error cause := by
  rcases h with hsource | ⟨a, ha, hnone⟩
  · exact ⟨_, addSignature_of_sourceAccount hsource⟩
  · obtain ⟨cause, hcause⟩ := exists_containerEntries_eq_error hnone
    exact ⟨cause, addSignature_of_containerEntries ha hcause⟩

/-- Every call fails, and the entry stays. -/
theorem Refuses.addAll_run (h : e.Refuses) :
    ∃ cause, ∀ calls, (addAll calls).run e = (calls.map fun _ => .error cause, e) := by
  obtain ⟨cause, hcause⟩ := h.addSignature
  refine ⟨cause, fun calls => ?_⟩
  induction calls with
  | nil => rfl
  | cons x rest ih =>
      rw [addAll_cons_run (inPlace_run_of_error (hcause x.signer x.signature x.expiration)), ih]
      rfl

/-! ## Any number of calls -/

/-- An entry with credentials of its own whose signature value is a map or nothing takes every
signature: after some calls its map is the pairs that it held and then those of the calls, stably
sorted, and its expiration that of the last call; if it held nothing, the signers and signatures are
read back in the order of signers. Without calls an entry stays, and an entry of any other kind
refuses every call and stays. -/
theorem addAll_stableSort (e : AuthEntry) :
    (∀ a m, e.credentials = .address a → Holds a.signature m →
      ∀ calls last, List.getLast? calls = some last →
        ∃ s final, (addAll calls).run e = (calls.map fun _ => .ok (), final)
          ∧ final = ⟨.address { a with signature := .map (some s), expiration := last.expiration },
            e.rootInvocation⟩
          ∧ StableSort Prod.fst (m ++ calls.map Addition.pair) s
          ∧ (a.signature = .void → ∃ r, final.signatures = .ok r
            ∧ StableSort Prod.fst (calls.map Addition.signed) r))
    ∧ (addAll []).run e = ([], e)
    ∧ (e.Refuses →
      ∃ cause, ∀ calls, (addAll calls).run e = (calls.map fun _ => .error cause, e)) := by
  refine ⟨?_, rfl, Refuses.addAll_run⟩
  intro a m he hm calls last hlast
  have hrun := addAll_run_of_holds he hm calls
  have hfinal := withAdditions_of_getLast? (e := e) (a := a) (m := m) hlast
  refine ⟨_, _, hrun, hfinal, ScVal.stableSort_sortEntries _, fun hvoid => ?_⟩
  obtain rfl : m = [] := by
    rw [hvoid] at hm
    cases hm
    rfl
  exact ⟨_, signatures_withAdditions he hvoid calls, stableSort_mergeSort Prod.fst _⟩

/-- A map out of order with a key that it holds twice. -/
def sampleHeld : List ScMapEntry :=
  [signatureEntry (.policy Sample.recipient) none, signatureEntry (.policy Sample.token) none,
    signatureEntry (.policy Sample.recipient) none]

def sampleHolder : AuthEntry :=
  ⟨.address ⟨.contract Sample.wallet, 7, 0, .map (some sampleHeld)⟩, Sample.invocation⟩

/-- Two calls for one policy. -/
def sampleCalls : List Addition :=
  [⟨.policy Sample.token, none, 5000⟩, ⟨.policy Sample.token, none, 6000⟩]

theorem addAll_stableSort_sample :
    ∃ s, (addAll sampleCalls).run sampleHolder
        = ([.ok (), .ok ()],
          ⟨.address ⟨.contract Sample.wallet, 7, 6000, .map (some s)⟩, Sample.invocation⟩)
      ∧ StableSort Prod.fst (sampleHeld ++ sampleCalls.map Addition.pair) s := by
  obtain ⟨s, final, hrun, hfinal, hsort, -⟩ :=
    (addAll_stableSort sampleHolder).1 _ _ rfl (.map sampleHeld) sampleCalls _ rfl
  exact ⟨s, by rw [hrun, hfinal]; rfl, hsort⟩

/-- Without calls the signature value need not become a map. -/
theorem not_addAll_map :
    ¬ ∀ (e : AuthEntry) (a : AddressCredentials) (m : List ScMapEntry) (calls : List Addition),
      e.credentials = .address a → Holds a.signature m →
      ∃ b s, ((addAll calls).run e).2.credentials = .address b ∧ b.signature = .map (some s)
        ∧ StableSort Prod.fst (m ++ calls.map Addition.pair) s := by
  intro hall
  obtain ⟨b, s, hb, hs, -⟩ := hall (Sample.entry Sample.wallet 7) _ [] [] rfl .void
  have hvoid : b.signature = .void := by
    cases hb
    rfl
  rw [hvoid] at hs
  cases hs

end AuthEntry

end SmartWallet
