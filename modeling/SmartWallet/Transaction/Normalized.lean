import SmartWallet.Authorization.Policy
import SmartWallet.Transaction.Envelope
import SmartWallet.Xdr.Text

set_option autoImplicit false

/-! # Normalized transactions

A wallet signs transactions with a single smart contract operation. Such a transaction is
*normalized* when its fee is zero and its signatures are dropped, since whoever submits it sets the
one and makes the others; and its authorization entries are held apart from the operation while they
are signed. Fee, signatures and the number of operations have one value in a normalized transaction,
so they are not part of the type: `envelope` puts them back.

Only the invocation of a host function has room for authorizations, so an envelope for one of the
other operations exists only while there are none. -/

namespace SmartWallet

/-- What a smart contract operation does, apart from its authorizations. -/
inductive ContractAction where
  | invoke (function : HostFunction)
  /-- Keeps the entries that are read alive for some more ledgers. -/
  | extendFootprintTtl (extendTo : UInt32)
  /-- Brings expired entries back. -/
  | restoreFootprint
deriving DecidableEq

/-- A transaction with one smart contract operation and its authorizations apart. -/
structure NormalizedTransaction where
  /-- The account that pays. -/
  source : MuxedAccount
  sequence : Int64
  preconditions : Preconditions
  memo : Memo
  /-- The account that the operation is done for, if it is another. -/
  operationSource : Option MuxedAccount
  action : ContractAction
  /-- What the transaction may use of the ledger. -/
  resources : Option Resources
  /-- The authorization entries. -/
  auth : List AuthEntry
deriving DecidableEq

namespace ContractAction

/-- The operation with its authorizations, if it has room for them. -/
def body (a : ContractAction) (auth : List AuthEntry) : Option OperationBody :=
  match a, auth with
  | invoke function, auth => some (.invokeHostFunction function auth)
  | extendFootprintTtl extendTo, [] => some (.extendFootprintTtl extendTo)
  | restoreFootprint, [] => some .restoreFootprint
  | _, _ :: _ => none

/-- The operation without authorizations. -/
def bareBody : ContractAction → OperationBody
  | invoke function => .invokeHostFunction function []
  | extendFootprintTtl extendTo => .extendFootprintTtl extendTo
  | restoreFootprint => .restoreFootprint

/-- The action and the authorizations of an operation, if it is one of the three. -/
def ofBody : OperationBody → Except AuthError (ContractAction × List AuthEntry)
  | .invokeHostFunction function auth => .ok (invoke function, auth)
  | .extendFootprintTtl extendTo => .ok (extendFootprintTtl extendTo, [])
  | .restoreFootprint => .ok (restoreFootprint, [])
  | body => .error (.unsupportedOperation body.kindName)

/-- The name of what the operation does. -/
def kindName (a : ContractAction) : String := a.bareBody.kindName

/-- Whether the operation invokes a host function. -/
def isInvocation : ContractAction → Bool
  | invoke _ => true
  | _ => false

end ContractAction

namespace NormalizedTransaction

/-- Normalizes a transaction: takes the authorizations out of its one operation. -/
def ofTransaction (t : Transaction) : Except AuthError NormalizedTransaction :=
  match t.operations with
  | [o] => do
    let (action, auth) ← ContractAction.ofBody o.body
    return ⟨t.source, t.sequence, t.preconditions, t.memo, o.source, action, t.resources, auth⟩
  | operations => .error (.tooManyOperations operations.length)

/-- Normalizes the transaction in an envelope of the current form. -/
def ofEnvelope : Envelope → Except AuthError NormalizedTransaction
  | .current t => ofTransaction t.transaction
  | e => .error (.unsupportedEnvelope e.kindName)

/-- Normalizes the transaction in the text of an envelope. -/
def ofText (text : String) : Except AuthError NormalizedTransaction := do
  ofEnvelope (← (Xdr.decodeText text : Except Xdr.Error Envelope))

/-- The transaction with a given operation. -/
def transactionWith (t : NormalizedTransaction) (body : OperationBody) : Transaction :=
  ⟨t.source, 0, t.sequence, t.preconditions, t.memo, [⟨t.operationSource, body⟩], t.resources⟩

/-- The transaction without its authorizations. -/
def transaction (t : NormalizedTransaction) : Transaction := t.transactionWith t.action.bareBody

/-- The envelope, with no signatures. -/
def envelope (t : NormalizedTransaction) : Except AuthError Envelope :=
  match t.action.body t.auth with
  | some body => .ok (.current ⟨t.transactionWith body, []⟩)
  | none => .error (.unsupportedOperation t.action.kindName)

/-- The text of the envelope. -/
def text (t : NormalizedTransaction) : Except AuthError String := do
  Xdr.encodeText (← t.envelope)

/-- Appends the policy entry for the entry at an index. -/
def attachPolicy (t : NormalizedTransaction) (index : Nat) (policy wallet : ContractAddress) :
    Except AuthError NormalizedTransaction := do
  return { t with auth := ← AuthEntry.attachPolicy t.auth index policy wallet }

end NormalizedTransaction

end SmartWallet
