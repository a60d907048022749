import SmartWallet.Xdr.Basic

set_option autoImplicit false

/-! # Why an authorization cannot be handled

The causes for which entries, signers and transactions are refused, with their reports. -/

namespace SmartWallet

/-- Why an authorization is refused. -/
inductive AuthError where
  /-- The entry is authorized by the source account of the transaction. -/
  | unsupportedCredentials
  /-- The signatures of the entry are not in a map. -/
  | unsupportedSignatureContainer (found : String)
  /-- The authorized call is of a kind that policies are not told about. -/
  | unsupportedContext (found : String)
  /-- The operation carries no authorizations. -/
  | unsupportedOperation (found : String)
  /-- The envelope is of another kind. -/
  | unsupportedEnvelope (found : String)
  /-- The transaction has none or several operations. -/
  | tooManyOperations (count : Nat)
  | authEntryNotFound (index : Nat)
  /-- The entry has no signatures yet. -/
  | unsignedEntry
  /-- The value is not of the shape it should have. -/
  | invalidScVal (what : String)
  /-- The value has no binary form, or the bytes are none. -/
  | xdr (cause : Xdr.Error)
  | strkey
deriving DecidableEq, Repr

/-- The report of a refused authorization; there is none for missing bytes. -/
def AuthError.message? : AuthError → Option String
  | unsupportedCredentials => some "unsupported credentials: source account"
  | unsupportedSignatureContainer found => some ("unsupported signature container: " ++ found)
  | unsupportedContext found => some ("unsupported authorization context: " ++ found)
  | unsupportedOperation found => some ("unsupported operation: " ++ found)
  | unsupportedEnvelope found => some ("unsupported envelope: " ++ found)
  | tooManyOperations count =>
    some s!"transaction must include exactly one operation, got {count}"
  | authEntryNotFound index => some s!"authorization entry #{index} not found"
  | unsignedEntry => some "authorization entry must be signed before a policy is attached"
  | invalidScVal what => some ("invalid " ++ what ++ " ScVal")
  | xdr cause => cause.message?.map ("xdr: " ++ ·)
  | strkey => some "strkey: the strkey is invalid"

instance : MonadLift (Except Xdr.Error) (Except AuthError) := ⟨Except.mapError .xdr⟩

/-- A value that is there, or the given report. -/
def AuthError.ofOption {α : Type} (e : AuthError) : Option α → Except AuthError α
  | some x => .ok x
  | none => .error e

end SmartWallet
