import SmartWallet.Address

set_option autoImplicit false

/-! # Claimable balances

A balance set aside for several claimants, each under a condition on the time of the
claim. Conditions form a tree; each level takes at least four bytes, so the number of
bytes left bounds its depth. -/

namespace SmartWallet

/-- A condition on the time of a claim. -/
inductive ClaimPredicate where
  /-- Any time. -/
  | unconditional
  /-- All of at most two conditions. -/
  | and (all : List ClaimPredicate)
  /-- One of at most two conditions. -/
  | or (any : List ClaimPredicate)
  /-- Not under a condition, which may be missing. -/
  | not (condition : Option ClaimPredicate)
  /-- Before a point in time. -/
  | beforeAbsoluteTime (time : Int64)
  /-- Before some time has passed. -/
  | beforeRelativeTime (span : Int64)

/-- An account that may claim a balance. -/
structure Claimant where
  account : Bytes32
  /-- When it may claim. -/
  predicate : ClaimPredicate

/-- The identifier of a claimable balance. -/
structure ClaimableBalanceId where
  /-- The hash it is made of. -/
  hash : Bytes32
deriving DecidableEq

namespace ClaimPredicate

/-- How many conditions are joined at most. -/
def maxJoined : Nat := 2

mutual

def write : ClaimPredicate → Xdr.Encoding
  | unconditional => .tag 0
  | and all => .tag 1 ++ .length maxJoined all.length ++ writeList all
  | or any => .tag 2 ++ .length maxJoined any.length ++ writeList any
  | not condition => .tag 3 ++ writeOption condition
  | beforeAbsoluteTime time => .tag 4 ++ Xdr.write time
  | beforeRelativeTime span => .tag 5 ++ Xdr.write span

def writeList : List ClaimPredicate → Xdr.Encoding
  | [] => .empty
  | p :: rest => p.write ++ writeList rest

def writeOption : Option ClaimPredicate → Xdr.Encoding
  | none => .tag 0
  | some p => .tag 1 ++ p.write

end

def readWithin : Nat → Xdr.Reader ClaimPredicate
  | 0 => throw .io
  | depth + 1 => do
    match ← .tag with
    | 0 => return unconditional
    | 1 => and <$> .list maxJoined (readWithin depth)
    | 2 => or <$> .list maxJoined (readWithin depth)
    | 3 => not <$> .option (readWithin depth)
    | 4 => beforeAbsoluteTime <$> Xdr.read
    | 5 => beforeRelativeTime <$> Xdr.read
    | _ => .invalid

def read : Xdr.Reader ClaimPredicate := .sized readWithin

instance : Xdr ClaimPredicate := ⟨read, write⟩

end ClaimPredicate

namespace Claimant

/-- Reads a claimant, of which there is one kind. -/
def read : Xdr.Reader Claimant := do
  match ← .tag with
  | 0 => return ⟨← Address.readAccountKey, ← Xdr.read⟩
  | _ => .invalid

def write (c : Claimant) : Xdr.Encoding :=
  .tag 0 ++ Address.writeAccountKey c.account ++ Xdr.write c.predicate

instance : Xdr Claimant := ⟨read, write⟩

end Claimant

namespace ClaimableBalanceId

/-- Reads an identifier, of which there is one kind. -/
def read : Xdr.Reader ClaimableBalanceId := do
  match ← .tag with
  | 0 => mk <$> Xdr.read
  | _ => .invalid

def write (b : ClaimableBalanceId) : Xdr.Encoding := .tag 0 ++ Xdr.write b.hash

instance : Xdr ClaimableBalanceId := ⟨read, write⟩

end ClaimableBalanceId

end SmartWallet
