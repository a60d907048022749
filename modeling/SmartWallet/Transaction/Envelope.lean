import SmartWallet.Transaction.Operation

set_option autoImplicit false

/-! # Transactions and their envelopes

A transaction says who pays, under which conditions it is valid, what it does and which resources
its smart contract operation uses. The envelope adds the signatures of accounts. Besides the current
form there is an older one and one in which another account raises the fee. -/

namespace SmartWallet

/-! ## Types -/

/-- The time in which a transaction is valid; zero as the end means that there is none. -/
structure TimeBounds where
  /-- The first second. -/
  min : UInt64
  /-- The last second. -/
  max : UInt64
deriving DecidableEq

/-- The ledgers in which a transaction is valid; zero as the end means that there is none. -/
structure LedgerBounds where
  /-- The first ledger. -/
  min : UInt32
  /-- The last ledger. -/
  max : UInt32
deriving DecidableEq

/-- Conditions of all kinds. -/
structure Conditions where
  /-- The time in which the transaction is valid. -/
  timeBounds : Option TimeBounds
  /-- The ledgers in which it is valid. -/
  ledgerBounds : Option LedgerBounds
  /-- The least sequence number that the account has to have. -/
  minSequence : Option Int64
  /-- How many seconds the sequence number has to be old. -/
  minSequenceAge : UInt64
  /-- How many ledgers the sequence number has to be old. -/
  minSequenceLedgerGap : UInt32
  /-- Who else has to sign, at most two. -/
  extraSigners : List AccountSigner
deriving DecidableEq

/-- When a transaction is valid. -/
inductive Preconditions where
  | none
  | time (t : TimeBounds)
  /-- Under conditions of all kinds. -/
  | conditions (c : Conditions)
deriving DecidableEq

/-- A note with a transaction. -/
inductive Memo where
  | none
  /-- A text of at most 28 bytes. -/
  | text (b : Bytes)
  | id (v : UInt64)
  | hash (h : Bytes32)
  /-- The hash of a transaction that is refunded. -/
  | returnHash (h : Bytes32)
deriving DecidableEq

/-- A transaction. -/
structure Transaction where
  /-- The account that pays. -/
  source : MuxedAccount
  /-- The most that it pays. -/
  fee : UInt32
  sequence : Int64
  preconditions : Preconditions
  memo : Memo
  /-- What it does, at most a hundred operations. -/
  operations : List Operation
  /-- What it may use of the ledger, if it touches smart contracts. -/
  resources : Option Resources

/-- A transaction of the older form. -/
structure LegacyTransaction where
  /-- The key of the account that pays. -/
  source : Bytes32
  /-- The most that it pays. -/
  fee : UInt32
  sequence : Int64
  timeBounds : Option TimeBounds
  memo : Memo
  /-- What it does, at most a hundred operations. -/
  operations : List Operation

/-- A signature of an account. -/
structure DecoratedSignature where
  /-- The last bytes of the key, as a hint. -/
  hint : FixedBytes 4
  /-- The signature, at most 64 bytes. -/
  signature : Bytes
deriving DecidableEq

/-- A transaction with its signatures. -/
structure SignedTransaction where
  transaction : Transaction
  /-- The signatures, at most twenty. -/
  signatures : List DecoratedSignature

/-- What goes to the network. -/
inductive Envelope where
  /-- A transaction of the older form with its signatures. -/
  | legacy (t : LegacyTransaction) (signatures : List DecoratedSignature)
  /-- A transaction. -/
  | current (t : SignedTransaction)
  /-- A transaction whose fee another account raises, with the signatures of that account. -/
  | feeBump (source : MuxedAccount) (fee : Int64) (inner : SignedTransaction)
      (signatures : List DecoratedSignature)

/-- The name of the form of an envelope. -/
def Envelope.kindName : Envelope → String
  | legacy .. => "TxV0"
  | current .. => "Tx"
  | feeBump .. => "TxFeeBump"

/-! ## Binary form -/

namespace TimeBounds

def read : Xdr.Reader TimeBounds := return ⟨← Xdr.read, ← Xdr.read⟩

def write (t : TimeBounds) : Xdr.Encoding := Xdr.write t.min ++ Xdr.write t.max

instance : Xdr TimeBounds := ⟨read, write⟩

end TimeBounds

namespace LedgerBounds

def read : Xdr.Reader LedgerBounds := return ⟨← Xdr.read, ← Xdr.read⟩

def write (t : LedgerBounds) : Xdr.Encoding := Xdr.write t.min ++ Xdr.write t.max

instance : Xdr LedgerBounds := ⟨read, write⟩

end LedgerBounds

namespace Conditions

/-- How many more have to sign at most. -/
def maxExtraSigners : Nat := 2

def read : Xdr.Reader Conditions :=
  return ⟨← Xdr.read, ← Xdr.read, ← Xdr.read, ← Xdr.read, ← Xdr.read,
    ← Xdr.readList maxExtraSigners⟩

def write (c : Conditions) : Xdr.Encoding :=
  Xdr.write c.timeBounds ++ Xdr.write c.ledgerBounds ++ Xdr.write c.minSequence
    ++ Xdr.write c.minSequenceAge ++ Xdr.write c.minSequenceLedgerGap
    ++ Xdr.writeList maxExtraSigners c.extraSigners

instance : Xdr Conditions := ⟨read, write⟩

end Conditions

namespace Preconditions

def read : Xdr.Reader Preconditions := do
  match ← .tag with
  | 0 => return none
  | 1 => time <$> Xdr.read
  | 2 => conditions <$> Xdr.read
  | _ => .invalid

def write : Preconditions → Xdr.Encoding
  | none => .tag 0
  | time t => .tag 1 ++ Xdr.write t
  | conditions c => .tag 2 ++ Xdr.write c

instance : Xdr Preconditions := ⟨read, write⟩

end Preconditions

namespace Memo

/-- The longest text. -/
def maxTextLength : Nat := 28

def read : Xdr.Reader Memo := do
  match ← .tag with
  | 0 => return none
  | 1 => text <$> .opaqueBytes maxTextLength
  | 2 => id <$> Xdr.read
  | 3 => hash <$> Xdr.read
  | 4 => returnHash <$> Xdr.read
  | _ => .invalid

def write : Memo → Xdr.Encoding
  | none => .tag 0
  | text b => .tag 1 ++ .opaqueBytes maxTextLength b
  | id v => .tag 2 ++ Xdr.write v
  | hash h => .tag 3 ++ Xdr.write h
  | returnHash h => .tag 4 ++ Xdr.write h

instance : Xdr Memo := ⟨read, write⟩

end Memo

namespace Transaction

/-- How many operations a transaction has at most. -/
def maxOperations : Nat := 100

def read : Xdr.Reader Transaction :=
  return ⟨← Xdr.read, ← Xdr.read, ← Xdr.read, ← Xdr.read, ← Xdr.read,
    ← Xdr.readList maxOperations, ← Xdr.read⟩

def write (t : Transaction) : Xdr.Encoding :=
  Xdr.write t.source ++ Xdr.write t.fee ++ Xdr.write t.sequence ++ Xdr.write t.preconditions
    ++ Xdr.write t.memo ++ Xdr.writeList maxOperations t.operations ++ Xdr.write t.resources

instance : Xdr Transaction := ⟨read, write⟩

end Transaction

namespace LegacyTransaction

def read : Xdr.Reader LegacyTransaction := do
  let t : LegacyTransaction := ⟨← Xdr.read, ← Xdr.read, ← Xdr.read, ← Xdr.read, ← Xdr.read,
    ← Xdr.readList Transaction.maxOperations⟩
  Xdr.Reader.noExtension
  return t

def write (t : LegacyTransaction) : Xdr.Encoding :=
  Xdr.write t.source ++ Xdr.write t.fee ++ Xdr.write t.sequence ++ Xdr.write t.timeBounds
    ++ Xdr.write t.memo ++ Xdr.writeList Transaction.maxOperations t.operations ++ .noExtension

instance : Xdr LegacyTransaction := ⟨read, write⟩

end LegacyTransaction

namespace DecoratedSignature

/-- The longest signature. -/
def maxLength : Nat := 64

/-- How many signatures an envelope has at most. -/
def maxCount : Nat := 20

def read : Xdr.Reader DecoratedSignature := return ⟨← Xdr.read, ← .opaqueBytes maxLength⟩

def write (s : DecoratedSignature) : Xdr.Encoding :=
  Xdr.write s.hint ++ .opaqueBytes maxLength s.signature

instance : Xdr DecoratedSignature := ⟨read, write⟩

end DecoratedSignature

namespace SignedTransaction

def read : Xdr.Reader SignedTransaction :=
  return ⟨← Xdr.read, ← Xdr.readList DecoratedSignature.maxCount⟩

def write (t : SignedTransaction) : Xdr.Encoding :=
  Xdr.write t.transaction ++ Xdr.writeList DecoratedSignature.maxCount t.signatures

instance : Xdr SignedTransaction := ⟨read, write⟩

end SignedTransaction

namespace Envelope

/-- Reads the transaction whose fee is raised, which is of the current form. -/
def readInner : Xdr.Reader SignedTransaction := do
  match ← .tag with
  | 2 => Xdr.read
  | _ => .invalid

/-- Reads an envelope in which the fee is raised. -/
def readFeeBump : Xdr.Reader Envelope := do
  let source ← Xdr.read
  let fee ← Xdr.read
  let inner ← readInner
  Xdr.Reader.noExtension
  return feeBump source fee inner (← Xdr.readList DecoratedSignature.maxCount)

def read : Xdr.Reader Envelope := do
  match ← .tag with
  | 0 => return legacy (← Xdr.read) (← Xdr.readList DecoratedSignature.maxCount)
  | 2 => current <$> Xdr.read
  | 5 => readFeeBump
  | _ => .invalid

def write : Envelope → Xdr.Encoding
  | legacy t signatures =>
    .tag 0 ++ Xdr.write t ++ Xdr.writeList DecoratedSignature.maxCount signatures
  | current t => .tag 2 ++ Xdr.write t
  | feeBump source fee inner signatures =>
    .tag 5 ++ Xdr.write source ++ Xdr.write fee ++ .tag 2 ++ Xdr.write inner ++ .noExtension
      ++ Xdr.writeList DecoratedSignature.maxCount signatures

instance : Xdr Envelope := ⟨read, write⟩

end Envelope

end SmartWallet
