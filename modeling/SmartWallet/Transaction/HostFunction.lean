import SmartWallet.Authorization.Entry
import SmartWallet.Transaction.LedgerKey

set_option autoImplicit false

/-! # Smart contract operations

The three operations that touch smart contracts: a host function that is invoked, with the
authorizations for it, and two that only keep entries of the ledger alive. What the host may read
and write is declared beside the operation, in the resources of the transaction. -/

namespace SmartWallet

/-- What the host is asked to do. -/
inductive HostFunction where
  | invoke (call : ContractCall)
  | create (preimage : ContractIdPreimage) (executable : ContractExecutable)
  | upload (program : Bytes)
  /-- To create a contract with arguments for its constructor. -/
  | createWithArgs (preimage : ContractIdPreimage) (executable : ContractExecutable)
      (args : List ScVal)
deriving DecidableEq

/-- What a transaction may use of the ledger, and what it offers for that. -/
structure Resources where
  /-- The entries it reads. -/
  readOnly : List LedgerKey
  /-- The entries it may also write. -/
  readWrite : List LedgerKey
  /-- How many instructions it may run. -/
  instructions : UInt32
  /-- How many bytes it may read. -/
  readBytes : UInt32
  /-- How many bytes it may write. -/
  writeBytes : UInt32
  /-- What it offers. -/
  fee : Int64
deriving DecidableEq

namespace HostFunction

def read : Xdr.Reader HostFunction := do
  match ← .tag with
  | 0 => invoke <$> Xdr.read
  | 1 => return create (← Xdr.read) (← Xdr.read)
  | 2 => upload <$> .opaqueBytes Xdr.maxLength
  | 3 => return createWithArgs (← Xdr.read) (← Xdr.read) (← Xdr.readList Xdr.maxLength)
  | _ => .invalid

def write : HostFunction → Xdr.Encoding
  | invoke call => .tag 0 ++ Xdr.write call
  | create preimage executable => .tag 1 ++ Xdr.write preimage ++ Xdr.write executable
  | upload program => .tag 2 ++ .opaqueBytes Xdr.maxLength program
  | createWithArgs preimage executable args =>
    .tag 3 ++ Xdr.write preimage ++ Xdr.write executable ++ Xdr.writeList Xdr.maxLength args

instance : Xdr HostFunction := ⟨read, write⟩

end HostFunction

/-- Reads the number that keeps room for extensions; there are none yet. -/
def Xdr.Reader.noExtension : Xdr.Reader Unit := do
  match ← .tag with
  | 0 => return ()
  | _ => .invalid

/-- Writes the number that keeps room for extensions. -/
def Xdr.Encoding.noExtension : Xdr.Encoding := .tag 0

namespace Resources

def read : Xdr.Reader Resources := do
  Xdr.Reader.noExtension
  return ⟨← Xdr.readList Xdr.maxLength, ← Xdr.readList Xdr.maxLength, ← Xdr.read, ← Xdr.read,
    ← Xdr.read, ← Xdr.read⟩

def write (r : Resources) : Xdr.Encoding :=
  .noExtension ++ Xdr.writeList Xdr.maxLength r.readOnly ++ Xdr.writeList Xdr.maxLength r.readWrite
    ++ Xdr.write r.instructions ++ Xdr.write r.readBytes ++ Xdr.write r.writeBytes
    ++ Xdr.write r.fee

instance : Xdr Resources := ⟨read, write⟩

end Resources

end SmartWallet
