import SmartWallet.ScVal.Binary
import SmartWallet.ScVal.Order
import SmartWallet.Transaction.Asset

set_option autoImplicit false

/-! # Authorized invocations

What an authorization allows: a call of a contract or the creation of one, together with the calls
made from there, which form a tree. -/

namespace SmartWallet

/-! ## Functions -/

structure ContractCall where
  contract : Address
  /-- The name of the function, a symbol. -/
  function : Bytes
  args : List ScVal
deriving DecidableEq

/-- What the identifier of a new contract is derived from. -/
inductive ContractIdPreimage where
  /-- An address and a number of its choice. -/
  | address (deployer : Address) (salt : Bytes32)
  | asset (a : Asset)
deriving DecidableEq

inductive AuthorizedFunction where
  | call (c : ContractCall)
  | create (preimage : ContractIdPreimage) (executable : ContractExecutable)
  /-- The creation of a contract with arguments for its constructor. -/
  | createWithArgs (preimage : ContractIdPreimage) (executable : ContractExecutable)
      (args : List ScVal)
deriving DecidableEq

namespace ContractCall

def read : Xdr.Reader ContractCall :=
  return ⟨← Xdr.read, ← .opaqueBytes ScVal.maxSymbolLength, ← Xdr.readList Xdr.maxLength⟩

def write (c : ContractCall) : Xdr.Encoding :=
  Xdr.write c.contract ++ .opaqueBytes ScVal.maxSymbolLength c.function
    ++ Xdr.writeList Xdr.maxLength c.args

instance : Xdr ContractCall := ⟨read, write⟩

end ContractCall

namespace ContractIdPreimage

def read : Xdr.Reader ContractIdPreimage := do
  match ← .tag with
  | 0 => return address (← Xdr.read) (← Xdr.read)
  | 1 => asset <$> Xdr.read
  | _ => .invalid

def write : ContractIdPreimage → Xdr.Encoding
  | address deployer salt => .tag 0 ++ Xdr.write deployer ++ Xdr.write salt
  | asset a => .tag 1 ++ Xdr.write a

instance : Xdr ContractIdPreimage := ⟨read, write⟩

end ContractIdPreimage

namespace AuthorizedFunction

def read : Xdr.Reader AuthorizedFunction := do
  match ← .tag with
  | 0 => call <$> Xdr.read
  | 1 => return create (← Xdr.read) (← Xdr.read)
  | 2 => return createWithArgs (← Xdr.read) (← Xdr.read) (← Xdr.readList Xdr.maxLength)
  | _ => .invalid

def write : AuthorizedFunction → Xdr.Encoding
  | call c => .tag 0 ++ Xdr.write c
  | create preimage executable => .tag 1 ++ Xdr.write preimage ++ Xdr.write executable
  | createWithArgs preimage executable args =>
    .tag 2 ++ Xdr.write preimage ++ Xdr.write executable ++ Xdr.writeList Xdr.maxLength args

instance : Xdr AuthorizedFunction := ⟨read, write⟩

end AuthorizedFunction

/-! ## Trees -/

/-- A function with the invocations made from it. -/
inductive Invocation where
  | mk (function : AuthorizedFunction) (subInvocations : List Invocation)

namespace Invocation

/-- The function at the root. -/
def function : Invocation → AuthorizedFunction
  | mk f _ => f

/-- What the root invokes. -/
def subInvocations : Invocation → List Invocation
  | mk _ subs => subs

mutual

def decEq : (a b : Invocation) → Decidable (a = b)
  | mk f l, mk g m =>
    if hf : f = g then
      match decEqList l m with
      | isTrue hl => isTrue (by rw [hf, hl])
      | isFalse hl => isFalse fun h => hl (Invocation.mk.inj h).2
    else isFalse fun h => hf (Invocation.mk.inj h).1

def decEqList : (a b : List Invocation) → Decidable (a = b)
  | [], [] => isTrue rfl
  | [], _ :: _ => isFalse nofun
  | _ :: _, [] => isFalse nofun
  | x :: l, y :: m =>
    match decEq x y, decEqList l m with
    | isTrue hx, isTrue hl => isTrue (by rw [hx, hl])
    | isFalse hx, _ => isFalse fun h => hx (List.cons.inj h).1
    | _, isFalse hl => isFalse fun h => hl (List.cons.inj h).2

end

instance : DecidableEq Invocation := decEq

mutual

def write : Invocation → Xdr.Encoding
  | mk f subs => Xdr.write f ++ .length Xdr.maxLength subs.length ++ writeList subs

def writeList : List Invocation → Xdr.Encoding
  | [] => .empty
  | x :: rest => x.write ++ writeList rest

end

def readWithin : Nat → Xdr.Reader Invocation
  | 0 => throw .io
  | depth + 1 => do
    let f ← Xdr.read
    let subs ← .list Xdr.maxLength (readWithin depth)
    return mk f subs

/-- Reads a tree; each level takes bytes, so the number of bytes bounds the depth. -/
def read : Xdr.Reader Invocation := .sized readWithin

instance : Xdr Invocation := ⟨read, write⟩

end Invocation

end SmartWallet
