import SmartWallet.Proofs.Transaction.Binary
import SmartWallet.Proofs.Xdr.Text
import SmartWallet.Sample
import SmartWallet.Transaction.Normalized

set_option autoImplicit false

/-! # Normalizing and writing

Normalizing an envelope forgets its fee and its signatures and nothing else
(`ofEnvelope_eq_ok_iff`), and the envelope of a normalized transaction is the one with no fee and
no signatures (`envelope_eq_ok_iff`). So normalizing what was written gives back what was
written, and what came from a text can be written: its parts had a text, and leaving out fee and
signatures makes no part longer. -/

namespace SmartWallet

open Xdr

/-- An operation is taken apart as it is put together. -/
theorem ContractAction.ofBody_eq_ok_iff {b : OperationBody} {a : ContractAction}
    {auth : List AuthEntry} : ofBody b = .ok (a, auth) ↔ a.body auth = some b := by
  constructor
  · intro h
    unfold ofBody at h
    split at h
    · cases h
      rfl
    · cases h
      rfl
    · cases h
      rfl
    · cases h
  · intro h
    unfold body at h
    split at h
    · cases h
      rfl
    · cases h
      rfl
    · cases h
      rfl
    · cases h

namespace NormalizedTransaction

variable {n : NormalizedTransaction} {e : Envelope} {t : String}

/-! ## Envelopes -/

theorem ofTransaction_eq_ok_iff {x : Transaction} :
    ofTransaction x = .ok n ↔
      ∃ body fee, n.action.body n.auth = some body
        ∧ x = { n.transactionWith body with fee := fee } := by
  constructor
  · intro h
    obtain ⟨source, fee, sequence, preconditions, memo, operations, resources⟩ := x
    unfold ofTransaction at h
    split at h
    · rename_i o hoperations
      obtain ⟨⟨action, auth⟩, haction, h⟩ := except_bind_eq_ok_iff.mp h
      -- every field but the fee is taken over, so the fee is what remains to be given
      cases h
      cases hoperations
      exact ⟨o.body, fee, ContractAction.ofBody_eq_ok_iff.mp haction, rfl⟩
    · cases h
  · rintro ⟨body, fee, hbody, rfl⟩
    exact except_bind_eq_ok_iff.mpr ⟨_, ContractAction.ofBody_eq_ok_iff.mpr hbody, rfl⟩

/-- An envelope is normalized to a transaction exactly if it is that of the transaction, up to
the fee and the signatures. -/
theorem ofEnvelope_eq_ok_iff :
    ofEnvelope e = .ok n ↔
      ∃ body fee signatures, n.action.body n.auth = some body
        ∧ e = .current ⟨{ n.transactionWith body with fee := fee }, signatures⟩ := by
  constructor
  · intro h
    unfold ofEnvelope at h
    split at h
    · rename_i signed
      obtain ⟨body, fee, hbody, htransaction⟩ := ofTransaction_eq_ok_iff.mp h
      refine ⟨body, fee, signed.signatures, hbody, ?_⟩
      rw [← htransaction]
    · cases h
  · rintro ⟨body, fee, signatures, hbody, rfl⟩
    exact ofTransaction_eq_ok_iff.mpr ⟨body, fee, hbody, rfl⟩

theorem envelope_eq_ok_iff :
    n.envelope = .ok e ↔
      ∃ body, n.action.body n.auth = some body ∧ e = .current ⟨n.transactionWith body, []⟩ := by
  unfold envelope
  split
  · rename_i body hbody
    rw [hbody, Except.ok.injEq]
    constructor
    · rintro rfl
      exact ⟨body, rfl, rfl⟩
    · rintro ⟨_, ⟨⟩, rfl⟩
      rfl
  · rename_i hnone
    rw [hnone]
    constructor
    · intro h
      cases h
    · rintro ⟨_, ⟨⟩, _⟩

/-- The envelope of a transaction is normalized to the transaction. -/
theorem ofEnvelope_envelope (h : n.envelope = .ok e) : ofEnvelope e = .ok n := by
  obtain ⟨body, hbody, rfl⟩ := envelope_eq_ok_iff.mp h
  exact ofEnvelope_eq_ok_iff.mpr ⟨body, 0, [], hbody, rfl⟩

theorem fits_current_iff {x : Transaction} {signatures : List DecoratedSignature} :
    (Xdr.write (Envelope.current ⟨x, signatures⟩)).fits = true ↔
      (Xdr.write x).fits = true
        ∧ (Xdr.writeList DecoratedSignature.maxCount signatures).fits = true := by
  show (Envelope.write (.current ⟨x, signatures⟩)).fits = true ↔ _
  rw [Envelope.write, Encoding.fits_append, Encoding.fits_tag, Bool.true_and, ← Bool.and_eq_true]
  rfl

theorem fits_withFee (x : Transaction) (fee : UInt32) :
    (Xdr.write { x with fee := fee }).fits = (Xdr.write x).fits := by
  show (Transaction.write { x with fee := fee }).fits = (Transaction.write x).fits
  simp only [Transaction.write, Encoding.fits_append]
  rfl

/-- An envelope that has a binary form has one without its fee and signatures. -/
theorem exists_envelope (h : ofEnvelope e = .ok n) (hfits : (Xdr.write e).fits = true) :
    ∃ e', n.envelope = .ok e' ∧ (Xdr.write e').fits = true := by
  obtain ⟨body, fee, signatures, hbody, rfl⟩ := ofEnvelope_eq_ok_iff.mp h
  refine ⟨_, envelope_eq_ok_iff.mpr ⟨body, hbody, rfl⟩, ?_⟩
  -- a fee takes the same room whatever it is, and a list without signatures always fits
  rw [fits_current_iff, fits_withFee] at hfits
  exact fits_current_iff.mpr ⟨hfits.1, rfl⟩

/-! ## Texts -/

theorem ofText_eq_ok_iff :
    ofText t = .ok n ↔
      ∃ e, (decodeText t : Except Xdr.Error Envelope) = .ok e ∧ ofEnvelope e = .ok n := by
  unfold ofText
  rw [except_bind_eq_ok_iff]
  constructor
  · rintro ⟨e, he, h⟩
    exact ⟨e, mapError_eq_ok_iff.mp he, h⟩
  · rintro ⟨e, he, h⟩
    exact ⟨e, mapError_eq_ok_iff.mpr he, h⟩

theorem text_eq_ok_iff : n.text = .ok t ↔ ∃ e, n.envelope = .ok e ∧ encodeText e = .ok t := by
  unfold text
  rw [except_bind_eq_ok_iff]
  constructor
  · rintro ⟨e, he, h⟩
    exact ⟨e, he, mapError_eq_ok_iff.mp h⟩
  · rintro ⟨e, he, h⟩
    exact ⟨e, he, mapError_eq_ok_iff.mpr h⟩

theorem ofText_text (h : n.text = .ok t) : ofText t = .ok n := by
  obtain ⟨e, he, htext⟩ := text_eq_ok_iff.mp h
  exact ofText_eq_ok_iff.mpr ⟨e, decodeText_encodeText htext, ofEnvelope_envelope he⟩

theorem exists_text_of_ofText (h : ofText t = .ok n) : ∃ t', n.text = .ok t' := by
  obtain ⟨e, hdecode, he⟩ := ofText_eq_ok_iff.mp h
  obtain ⟨e', he', hfits⟩ := exists_envelope he (fits_of_decodeText hdecode)
  obtain ⟨t', ht'⟩ := exists_encodeText hfits
  exact ⟨t', text_eq_ok_iff.mpr ⟨e', he', ht'⟩⟩

theorem ofText_encodeText (h : encodeText e = .ok t) : ofText t = ofEnvelope e := by
  unfold ofText
  rw [decodeText_encodeText h]
  rfl

/-- What was normalized from a text is written as a text from which it is normalized again; so is
every normalized transaction that can be written, however its entries came to be; and an envelope is
normalized alike before and after it is written. -/
theorem normalize_round_trip :
    (∀ t n, ofText t = .ok n → ∃ t', n.text = .ok t' ∧ ofText t' = .ok n)
      ∧ (∀ n t, n.text = .ok t → ofText t = .ok n)
      ∧ ∀ e, (Xdr.write e).fits = true → ∃ t, encodeText e = .ok t ∧ ofText t = ofEnvelope e := by
  refine ⟨?reread, ?rewrite, ?structured⟩
  case reread =>
    intro t n h
    obtain ⟨t', ht'⟩ := exists_text_of_ofText h
    exact ⟨t', ht', ofText_text ht'⟩
  case rewrite =>
    intro n t h
    exact ofText_text h
  case structured =>
    intro e hfits
    obtain ⟨t, ht⟩ := exists_encodeText hfits
    exact ⟨t, ht, ofText_encodeText ht⟩

/-- The text of an envelope without its padding, in which a flag is written as two. -/
def looseText : String :=
  "AAAAAgAAAABaWlpaWlpaWlpaWlpaWlpaWlpaWlpaWlpaWlpaWlpaWgAS1ocAAAAAAAAAKgAAAAAAAAAA"
    ++ "AAAAAQAAAAAAAAAYAAAAAAAAAAFwcHBwcHBwcHBwcHBwcHBwcHBwcHBwcHBwcHBwcHBwcAAAAAh0cmFu"
    ++ "c2ZlcgAAAAEAAAAAAAAAAgAAAAAAAAAAAAAAAA"

theorem normalize_round_trip_sample :
    (∃ n t, ofText looseText = .ok n ∧ n.text = .ok t ∧ ofText t = .ok n)
      ∧ (Xdr.write (Sample.transferEnvelope [Sample.entry Sample.wallet 2])).fits = true
      ∧ ∃ t, encodeText (Sample.transferEnvelope [Sample.entry Sample.wallet 2]) = .ok t
        ∧ ofText t = ofEnvelope (Sample.transferEnvelope [Sample.entry Sample.wallet 2]) := by
  obtain ⟨n, hn⟩ : ∃ n, ofText looseText = .ok n := exists_of_isOk (by decide +kernel)
  obtain ⟨t, ht, -⟩ := normalize_round_trip.1 looseText n hn
  have hfits :
      (Xdr.write (Sample.transferEnvelope [Sample.entry Sample.wallet 2])).fits = true := by
    decide +kernel
  exact ⟨⟨n, t, hn, ht, normalize_round_trip.2.1 n t ht⟩, hfits,
    normalize_round_trip.2.2 _ hfits⟩

end NormalizedTransaction

end SmartWallet
