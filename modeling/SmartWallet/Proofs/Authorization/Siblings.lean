import SmartWallet.Proofs.Authorization.Context
import SmartWallet.Proofs.Authorization.SignatureMap
import SmartWallet.Transaction.Normalized

set_option autoImplicit false

/-! # Policies attached by any number of calls

A call that attaches a policy appends one entry to a transaction, the sibling of the entry at an
index, or it is refused and the transaction stays as it was. `Attached` is the specification of one
call: it succeeds exactly if there is an entry at the index and a policy can be asked about it
(`Approvable`), and what it appends is described by `IsSibling`.

`Siblings` is that of a run. Calls may point at entries that earlier calls have appended, but no
such call succeeds, since a sibling is unsigned (`IsSibling.unapprovable`). So whatever calls
came before, a call is decided by the entries that the transaction had at first, and these stay
in front (`attachAll_run`). -/

namespace SmartWallet

/-- A call that attaches a policy. -/
structure PolicyCall where
  index : Nat
  policy : ContractAddress
  wallet : ContractAddress

namespace AuthEntry

variable {e s : AuthEntry} {a : AddressCredentials}

/-! ## Signed entries -/

/-- A signature value with a signer: a map that is not empty and whose pairs can all be read. -/
inductive IsSigned : ScVal → Prop
  | intro (m : List ScMapEntry) (nonempty : m ≠ [])
      (readable : ∀ pair ∈ m, ∃ signed, signatureOfEntry pair = .ok signed) :
      IsSigned (.map (some m))

theorem signatures_eq_ok_iff {l : List (SignerKey × Option Signature)} :
    e.signatures = .ok l ↔ ∃ a m, e.credentials = .address a ∧ Holds a.signature m
      ∧ m.mapM signatureOfEntry = .ok l := by
  unfold signatures
  constructor
  · intro h
    obtain ⟨a, ha, h⟩ := except_bind_eq_ok_iff.mp h
    obtain ⟨m, hm, hread⟩ := except_bind_eq_ok_iff.mp h
    exact ⟨a, m, addressCredentials_eq_ok_iff.mp ha, containerEntries_eq_ok_iff.mp hm, hread⟩
  · rintro ⟨a, m, ha, hm, hread⟩
    rw [addressCredentials_eq_ok_iff.mpr ha]
    refine except_bind_eq_ok_iff.mpr ⟨a, rfl, ?_⟩
    rw [containerEntries_eq_ok_iff.mpr hm]
    exact hread

/-- The signers of an entry can be read, and there are some, exactly
if its value is a signed one. -/
theorem isSigned_iff (ha : e.credentials = .address a) :
    IsSigned a.signature ↔ ∃ l, e.signatures = .ok l ∧ l ≠ [] := by
  have hread : ∀ {m : List ScMapEntry} {l : List (SignerKey × Option Signature)},
      m.mapM signatureOfEntry = .ok l → (l = [] ↔ m = []) := by
    intro m l h
    rw [← List.length_eq_zero_iff, ← List.length_eq_zero_iff, length_of_mapM_eq_ok h]
  constructor
  · intro h
    generalize hv : a.signature = v at h
    obtain ⟨m, hne, hreadable⟩ := h
    obtain ⟨l, hl⟩ := exists_mapM_eq_ok_iff.mpr hreadable
    have hholds : Holds a.signature m := hv ▸ .map m
    exact ⟨l, signatures_eq_ok_iff.mpr ⟨a, m, ha, hholds, hl⟩, mt (hread hl).mp hne⟩
  · rintro ⟨l, hl, hne⟩
    obtain ⟨b, m, hb, hholds, hm⟩ := signatures_eq_ok_iff.mp hl
    rw [ha] at hb
    cases hb
    have hne' : m ≠ [] := mt (hread hm).mpr hne
    generalize a.signature = v at hholds
    cases hholds with
    | void => exact absurd rfl hne'
    | noMap => exact absurd rfl hne'
    | map => exact .intro m hne' (exists_mapM_eq_ok_iff.mp ⟨l, hm⟩)

/-! ## Policy entries -/

/-- A policy can be asked about the entry: it has credentials of its own, they are signed, and its
root has a context. -/
structure Approvable (e : AuthEntry) (a : AddressCredentials) : Prop where
  credentials : e.credentials = .address a
  signed : IsSigned a.signature
  described : ∃ k fields, e.rootInvocation.function.HasContext k fields

/-- The entry by which the wallet of a call may ask the policy of the call about an entry. -/
structure IsSibling (e : AuthEntry) (a : AddressCredentials) (x : PolicyCall) (s : AuthEntry) :
    Prop where
  credentials : s.credentials = .address ⟨.contract x.policy, a.nonce, a.expiration, .void⟩
  noSubInvocations : s.rootInvocation.subInvocations = []
  asked : s.checkAuthTarget? = some (.contract x.wallet)
  /-- What is asked is the context of the entry, and nothing else. -/
  argument : ∃ c context, s.rootInvocation.function = .call c ∧ c.args = [context]
    ∧ e.rootInvocation.function.context = .ok context

/-- The sibling with a given context. -/
def sibling (a : AddressCredentials) (x : PolicyCall) (context : ScVal) : AuthEntry where
  credentials := .address ⟨.contract x.policy, a.nonce, a.expiration, .void⟩
  rootInvocation := .mk (.call ⟨.contract x.wallet, Bytes.ofString checkAuth, [context]⟩) []

theorem checkAuthTarget?_sibling (a : AddressCredentials) (x : PolicyCall) (context : ScVal) :
    (sibling a x context).checkAuthTarget? = some (.contract x.wallet) := by
  show (if Bytes.ofString checkAuth = Bytes.ofString checkAuth then
    some (Address.contract x.wallet) else none) = some (.contract x.wallet)
  exact if_pos rfl

theorem policyEntry_eq_ok_iff {x : PolicyCall} :
    e.policyEntry x.policy x.wallet = .ok s ↔ ∃ a context, e.credentials = .address a
      ∧ IsSigned a.signature ∧ e.rootInvocation.function.context = .ok context
      ∧ s = sibling a x context := by
  unfold policyEntry
  constructor
  · intro h
    obtain ⟨a, ha, h⟩ := except_bind_eq_ok_iff.mp h
    obtain ⟨l, hl, h⟩ := except_bind_eq_ok_iff.mp h
    have hcredentials := addressCredentials_eq_ok_iff.mp ha
    by_cases hempty : l.isEmpty = true
    · rw [if_pos hempty] at h
      cases h
    · rw [if_neg hempty] at h
      obtain ⟨context, hcontext, h⟩ := except_bind_eq_ok_iff.mp h
      cases h
      have hne : l ≠ [] := mt List.isEmpty_iff.mpr hempty
      exact ⟨a, context, hcredentials, (isSigned_iff hcredentials).mpr ⟨l, hl, hne⟩, hcontext, rfl⟩
  · rintro ⟨a, context, ha, hsigned, hcontext, rfl⟩
    obtain ⟨l, hl, hne⟩ := (isSigned_iff ha).mp hsigned
    refine except_bind_eq_ok_iff.mpr ⟨a, addressCredentials_eq_ok_iff.mpr ha, ?_⟩
    refine except_bind_eq_ok_iff.mpr ⟨l, hl, ?_⟩
    rw [if_neg (mt List.isEmpty_iff.mp hne), hcontext]
    rfl

/-- A policy entry is made exactly if a policy can be asked, and it is a sibling. -/
theorem isSibling_of_policyEntry {x : PolicyCall} (h : e.policyEntry x.policy x.wallet = .ok s) :
    ∃ a, Approvable e a ∧ IsSibling e a x s := by
  obtain ⟨a, context, ha, hsigned, hcontext, rfl⟩ := policyEntry_eq_ok_iff.mp h
  obtain ⟨k, fields, hdescribed, -⟩ := AuthorizedFunction.context_eq_ok_iff.mp hcontext
  have hasked := checkAuthTarget?_sibling a x context
  exact ⟨a, ⟨ha, hsigned, k, fields, hdescribed⟩,
    ⟨rfl, rfl, hasked, _, context, rfl, rfl, hcontext⟩⟩

theorem exists_policyEntry (h : Approvable e a) (x : PolicyCall) :
    ∃ s, e.policyEntry x.policy x.wallet = .ok s := by
  obtain ⟨k, fields, hdescribed⟩ := h.described
  exact ⟨_, policyEntry_eq_ok_iff.mpr
    ⟨a, _, h.credentials, h.signed, hdescribed.context, rfl⟩⟩

/-- No policy can be asked about the entry, whatever its credentials. -/
def Unapprovable (e : AuthEntry) : Prop := ∀ a, ¬ Approvable e a

/-- A sibling is not signed, so no policy can be asked about it. -/
theorem IsSibling.unapprovable {x : PolicyCall} (h : IsSibling e a x s) : s.Unapprovable := by
  intro b happrovable
  have hcredentials := happrovable.credentials
  have hsigned := happrovable.signed
  rw [h.credentials] at hcredentials
  cases hcredentials
  cases hsigned

end AuthEntry

namespace NormalizedTransaction

open AuthEntry (Approvable IsSibling)

/-! ## One call -/

/-- Attaches a policy in place. -/
def attach (x : PolicyCall) : StateM NormalizedTransaction (Except AuthError Unit) :=
  inPlace fun t => t.attachPolicy x.index x.policy x.wallet

/-- What a call does: one entry more at the end, or nothing. -/
inductive Attached (t : NormalizedTransaction) (x : PolicyCall) :
    Except AuthError Unit → NormalizedTransaction → Prop
  | appended (e s : AuthEntry) (a : AddressCredentials) (target : t.auth[x.index]? = some e)
      (approvable : Approvable e a) (isSibling : IsSibling e a x s) :
      Attached t x (.ok ()) { t with auth := t.auth ++ [s] }
  | refused (cause : AuthError)
      (not_approvable : ¬ ∃ e a, t.auth[x.index]? = some e ∧ Approvable e a) :
      Attached t x (.error cause) t

variable {t t' : NormalizedTransaction} {x : PolicyCall}

theorem attachPolicy_eq_ok_iff {policy wallet : ContractAddress} {index : Nat} :
    t.attachPolicy index policy wallet = .ok t' ↔ ∃ e s, t.auth[index]? = some e
      ∧ e.policyEntry policy wallet = .ok s ∧ t' = { t with auth := t.auth ++ [s] } := by
  unfold attachPolicy AuthEntry.attachPolicy
  constructor
  · intro h
    obtain ⟨auth, hauth, h⟩ := except_bind_eq_ok_iff.mp h
    cases h
    cases htarget : t.auth[index]? with
    | none =>
        rw [htarget] at hauth
        cases hauth
    | some e =>
        rw [htarget] at hauth
        obtain ⟨s, hs, hauth⟩ := except_bind_eq_ok_iff.mp hauth
        cases hauth
        exact ⟨e, s, rfl, hs, rfl⟩
  · rintro ⟨e, s, htarget, hs, rfl⟩
    rw [htarget]
    refine except_bind_eq_ok_iff.mpr ⟨t.auth ++ [s], ?_, rfl⟩
    exact except_bind_eq_ok_iff.mpr ⟨s, hs, rfl⟩

theorem attached_attach (t : NormalizedTransaction) (x : PolicyCall) :
    Attached t x ((attach x).run t).1 ((attach x).run t).2 := by
  cases hattach : t.attachPolicy x.index x.policy x.wallet with
  | ok t' =>
      rw [attach, inPlace_run_of_ok hattach]
      obtain ⟨e, s, htarget, hs, rfl⟩ := attachPolicy_eq_ok_iff.mp hattach
      obtain ⟨a, happrovable, hsibling⟩ := AuthEntry.isSibling_of_policyEntry hs
      exact .appended e s a htarget happrovable hsibling
  | error cause =>
      rw [attach, inPlace_run_of_error hattach]
      refine .refused cause ?_
      rintro ⟨e, a, htarget, happrovable⟩
      obtain ⟨s, hs⟩ := AuthEntry.exists_policyEntry happrovable x
      rw [attachPolicy_eq_ok_iff.mpr ⟨e, s, htarget, hs, rfl⟩] at hattach
      cases hattach

/-! ## Any number of calls -/

/-- Makes the calls of a list, each with its outcome; one that is refused does not end the run. -/
def attachAll (calls : List PolicyCall) :
    StateM NormalizedTransaction (List (Except AuthError Unit)) := calls.mapM attach

/-- The outcomes of some calls and the siblings that they append, one for each call that succeeds. A
call is decided by the entries of the transaction at first. -/
inductive Siblings (auth : List AuthEntry) :
    List PolicyCall → List (Except AuthError Unit) → List AuthEntry → Prop
  | nil : Siblings auth [] [] []
  | appended {calls : List PolicyCall} {outcomes : List (Except AuthError Unit)}
      {siblings : List AuthEntry} (x : PolicyCall) (e s : AuthEntry) (a : AddressCredentials)
      (target : auth[x.index]? = some e) (approvable : Approvable e a)
      (isSibling : IsSibling e a x s) (rest : Siblings auth calls outcomes siblings) :
      Siblings auth (x :: calls) (.ok () :: outcomes) (s :: siblings)
  | refused {calls : List PolicyCall} {outcomes : List (Except AuthError Unit)}
      {siblings : List AuthEntry} (x : PolicyCall) (cause : AuthError)
      (not_approvable : ¬ ∃ e a, auth[x.index]? = some e ∧ Approvable e a)
      (rest : Siblings auth calls outcomes siblings) :
      Siblings auth (x :: calls) (.error cause :: outcomes) siblings

/-- Entries about which no policy can be asked do not count as targets. -/
theorem approvable_append_iff {auth more : List AuthEntry} {e : AuthEntry} {a : AddressCredentials}
    (hmore : ∀ s ∈ more, s.Unapprovable) (index : Nat) :
    ((auth ++ more)[index]? = some e ∧ Approvable e a)
      ↔ (auth[index]? = some e ∧ Approvable e a) := by
  by_cases hindex : index < auth.length
  · rw [List.getElem?_append_left hindex]
  · constructor
    · rintro ⟨htarget, happrovable⟩
      rw [List.getElem?_append_right (Nat.le_of_not_lt hindex)] at htarget
      exact absurd happrovable (hmore e (List.mem_of_getElem? htarget) a)
    · rintro ⟨htarget, -⟩
      obtain ⟨hlt, -⟩ := List.getElem?_eq_some_iff.mp htarget
      exact absurd hlt hindex

theorem attachAll_cons_run {outcome : Except AuthError Unit} (h : (attach x).run t = (outcome, t'))
    (calls : List PolicyCall) : (attachAll (x :: calls)).run t
      = (outcome :: ((attachAll calls).run t').1, ((attachAll calls).run t').2) :=
  mapM_run_cons h calls

/-- The run of some calls on a transaction to which siblings were appended already. -/
theorem siblings_attachAll {auth before : List AuthEntry} (ht : t.auth = auth ++ before)
    (hbefore : ∀ s ∈ before, s.Unapprovable) (calls : List PolicyCall) :
    ∃ outcomes siblings,
      (attachAll calls).run t = (outcomes, { t with auth := t.auth ++ siblings })
        ∧ Siblings auth calls outcomes siblings := by
  induction calls generalizing t before with
  | nil =>
      refine ⟨[], [], ?_, .nil⟩
      rw [List.append_nil]
      rfl
  | cons x calls ih =>
      have htarget : ∀ e a, ((auth ++ before)[x.index]? = some e ∧ Approvable e a)
          ↔ (auth[x.index]? = some e ∧ Approvable e a) :=
        fun e a => approvable_append_iff hbefore x.index
      obtain ⟨outcome, t₁, hrun⟩ : ∃ outcome t₁, (attach x).run t = (outcome, t₁) := ⟨_, _, rfl⟩
      have hstep := attached_attach t x
      rw [hrun] at hstep
      have hcons := attachAll_cons_run hrun calls
      cases hstep with
      | appended e s a htarget' happrovable hsibling =>
          rw [ht] at htarget'
          obtain ⟨horiginal, -⟩ := (htarget e a).mp ⟨htarget', happrovable⟩
          -- the sibling is one more entry that no later call can point at
          have hbefore' : ∀ u ∈ before ++ [s], u.Unapprovable :=
            List.forall_mem_append.mpr
              ⟨hbefore, List.forall_mem_singleton.mpr hsibling.unapprovable⟩
          have ht₁ : t.auth ++ [s] = auth ++ (before ++ [s]) := by
            rw [ht, List.append_assoc]
          obtain ⟨outcomes, siblings, hrest, hsiblings⟩ :=
            ih (t := { t with auth := t.auth ++ [s] }) ht₁ hbefore'
          rw [hrest, List.append_assoc] at hcons
          exact ⟨.ok () :: outcomes, s :: siblings, hcons,
            .appended x e s a horiginal happrovable hsibling hsiblings⟩
      | refused cause hnone =>
          have hnone' : ¬ ∃ e a, auth[x.index]? = some e ∧ Approvable e a := by
            rintro ⟨e, a, horiginal⟩
            rw [ht] at hnone
            exact hnone ⟨e, a, (htarget e a).mpr horiginal⟩
          obtain ⟨outcomes, siblings, hrest, hsiblings⟩ := ih ht hbefore
          rw [hrest] at hcons
          exact ⟨.error cause :: outcomes, siblings, hcons, .refused x cause hnone' hsiblings⟩

/-- There is one sibling for each call that succeeds. -/
theorem Siblings.length_eq {auth siblings : List AuthEntry} {calls : List PolicyCall}
    {outcomes : List (Except AuthError Unit)} (h : Siblings auth calls outcomes siblings) :
    siblings.length = outcomes.countP Except.isOk := by
  induction h with
  | nil => rfl
  | appended _ _ _ _ _ _ _ _ ih =>
      rw [List.length_cons, List.countP_cons_of_pos rfl, ih]
  | refused _ _ _ _ ih =>
      rw [List.countP_cons_of_neg Bool.false_ne_true, ih]

/-- No call with an index behind the entries at first succeeds. -/
theorem Siblings.refused_of_length_le {auth siblings : List AuthEntry} {calls : List PolicyCall}
    {outcomes : List (Except AuthError Unit)} (h : Siblings auth calls outcomes siblings) :
    ∀ call ∈ calls.zip outcomes, auth.length ≤ call.1.index → ∃ cause, call.2 = .error cause := by
  induction h with
  | nil => exact nofun
  | appended x e s a target _ _ _ ih =>
      rintro call hcall hle
      rcases List.mem_cons.mp hcall with rfl | hcall
      · obtain ⟨hlt, -⟩ := List.getElem?_eq_some_iff.mp target
        exact absurd hlt (Nat.not_lt.mpr hle)
      · exact ih call hcall hle
  | refused x cause _ _ ih =>
      rintro call hcall hle
      rcases List.mem_cons.mp hcall with rfl | hcall
      · exact ⟨cause, rfl⟩
      · exact ih call hcall hle

/-- One call appends one sibling or leaves the transaction as it is, and which of the two is decided
by the entry at its index. After any number of calls the entries are those at first, and then one
sibling for each call that succeeded, in the order of the calls; a call that points behind the
entries at first does not succeed. -/
theorem attachAll_run (t : NormalizedTransaction) :
    (∀ x, Attached t x ((attach x).run t).1 ((attach x).run t).2)
    ∧ ∀ calls, ∃ outcomes siblings,
      (attachAll calls).run t = (outcomes, { t with auth := t.auth ++ siblings })
        ∧ Siblings t.auth calls outcomes siblings
        ∧ ∀ call ∈ calls.zip outcomes, t.auth.length ≤ call.1.index →
          ∃ cause, call.2 = .error cause := by
  refine ⟨attached_attach t, fun calls => ?_⟩
  have hnone : ∀ s ∈ ([] : List AuthEntry), s.Unapprovable := nofun
  obtain ⟨outcomes, siblings, hrun, hsiblings⟩ :=
    siblings_attachAll (List.append_nil t.auth).symm hnone calls
  exact ⟨outcomes, siblings, hrun, hsiblings, hsiblings.refused_of_length_le⟩

/-- A transaction with a signed entry and one that is not signed. -/
def sampleTransaction : NormalizedTransaction where
  source := .account (.replicate 32 0x5a)
  sequence := 42
  preconditions := .none
  memo := .none
  operationSource := none
  action := .invoke (.invoke Sample.transfer)
  resources := none
  auth := [⟨.address ⟨.contract Sample.wallet, 7, 5000,
      .map (some [AuthEntry.signatureEntry (.policy Sample.recipient) none])⟩, Sample.invocation⟩,
    Sample.entry Sample.wallet 8]

/-- Calls for the signed entry, the sibling that the first call appends, the other entry, and
an entry that does not exist. -/
def samplePolicyCalls : List PolicyCall :=
  [0, 2, 1, 7, 0].map fun index => ⟨index, Sample.recipient, Sample.wallet⟩

/-- The first and the last of the calls succeed; the call for the sibling
is refused like the others. -/
theorem attachAll_run_sample :
    ∃ outcomes siblings, (attachAll samplePolicyCalls).run sampleTransaction
        = (outcomes, { sampleTransaction with auth := sampleTransaction.auth ++ siblings })
      ∧ outcomes.map Except.isOk = [true, false, false, false, true] ∧ siblings.length = 2
      ∧ ∃ cause, outcomes[1]? = some (.error cause) := by
  obtain ⟨outcomes, siblings, hrun, hsiblings, hrefused⟩ :=
    (attachAll_run sampleTransaction).2 samplePolicyCalls
  have houtcomes : outcomes = [.ok (), .error .unsignedEntry, .error .unsignedEntry,
      .error (.authEntryNotFound 7), .ok ()] := by
    have hfirst := congrArg Prod.fst hrun
    exact hfirst.symm.trans (by decide +kernel)
  have hcount := hsiblings.length_eq
  subst houtcomes
  obtain ⟨cause, hcause⟩ := hrefused (⟨2, Sample.recipient, Sample.wallet⟩, .error .unsignedEntry)
    (by simp [samplePolicyCalls]) (by decide)
  exact ⟨_, siblings, hrun, rfl, hcount, cause, congrArg some hcause⟩

end NormalizedTransaction

end SmartWallet
