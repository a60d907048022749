import SmartWallet.Transaction.Account
import SmartWallet.Transaction.HostFunction

set_option autoImplicit false

/-! # Operations

What a transaction does, for one source account or another. There are twenty-seven kinds, of which a
wallet only has to understand the last three; the others are read so that they can be told apart and
refused by name. -/

namespace SmartWallet

/-! ## Parts of operations -/

/-- A payment along a path of assets. -/
structure PathPayment where
  sendAsset : Asset
  /-- How much is sent, or the most of it. -/
  sendAmount : Int64
  /-- Who receives. -/
  destination : MuxedAccount
  receiveAsset : Asset
  /-- How much is received, or the least of it. -/
  receiveAmount : Int64
  /-- The assets in between, at most five. -/
  path : List Asset
deriving DecidableEq

/-- An offer to trade. -/
structure Offer where
  selling : Asset
  buying : Asset
  /-- How much. -/
  amount : Int64
  price : Price
deriving DecidableEq

/-- A signer of an account with the weight of its signature. -/
structure WeightedSigner where
  key : AccountSigner
  weight : UInt32
deriving DecidableEq

/-- Changes to an account; what is missing stays. -/
structure AccountOptions where
  /-- Where newly made money goes. -/
  inflationDestination : Option Bytes32
  clearFlags : Option UInt32
  setFlags : Option UInt32
  /-- The weight of the account's own key. -/
  masterWeight : Option UInt32
  /-- The weight for operations of low security. -/
  lowThreshold : Option UInt32
  /-- The weight for operations of medium security. -/
  mediumThreshold : Option UInt32
  /-- The weight for operations of high security. -/
  highThreshold : Option UInt32
  /-- The home domain, at most 32 bytes. -/
  homeDomain : Option Bytes
  /-- A signer to add, change or, with weight zero, remove. -/
  signer : Option WeightedSigner
deriving DecidableEq

/-- What is no longer sponsored. -/
inductive Sponsorship where
  | ledgerEntry (key : LedgerKey)
  | signer (account : Bytes32) (key : AccountSigner)
deriving DecidableEq

/-! ## Operations -/

/-- What an operation does. -/
inductive OperationBody where
  | createAccount (destination : Bytes32) (balance : Int64)
  | payment (destination : MuxedAccount) (asset : Asset) (amount : Int64)
  /-- Pays along a path a fixed amount to receive. -/
  | pathPaymentStrictReceive (p : PathPayment)
  /-- Makes or changes an offer to sell. -/
  | manageSellOffer (o : Offer) (id : Int64)
  /-- Makes an offer to sell that takes no equal one. -/
  | createPassiveSellOffer (o : Offer)
  | setOptions (o : AccountOptions)
  /-- Sets up, changes or removes a trust line. -/
  | changeTrust (line : ChangeTrustAsset) (limit : Int64)
  /-- Allows a trust line for one's own asset. -/
  | allowTrust (trustor : Bytes32) (code : AssetCode) (authorize : UInt32)
  /-- Moves all there is to another account and removes this one. -/
  | accountMerge (destination : MuxedAccount)
  | inflation
  /-- Sets, or without a value removes, a named value of an account. -/
  | manageData (name : Bytes) (value : Option Bytes)
  /-- Raises the sequence number. -/
  | bumpSequence (target : Int64)
  /-- Makes or changes an offer to buy. -/
  | manageBuyOffer (o : Offer) (id : Int64)
  /-- Pays along a path a fixed amount to send. -/
  | pathPaymentStrictSend (p : PathPayment)
  /-- Sets a balance aside for at most ten claimants. -/
  | createClaimableBalance (asset : Asset) (amount : Int64) (claimants : List Claimant)
  | claimClaimableBalance (id : ClaimableBalanceId)
  /-- Begins to pay the reserves of another account. -/
  | beginSponsoringFutureReserves (sponsored : Bytes32)
  | endSponsoringFutureReserves
  /-- Passes on a reserve that was paid. -/
  | revokeSponsorship (s : Sponsorship)
  /-- Takes an asset back from an account. -/
  | clawback (asset : Asset) (source : MuxedAccount) (amount : Int64)
  /-- Takes back a claimable balance. -/
  | clawbackClaimableBalance (id : ClaimableBalanceId)
  /-- Changes the flags of a trust line for one's own asset. -/
  | setTrustLineFlags (trustor : Bytes32) (asset : Asset) (clear set : UInt32)
  /-- Puts assets into a liquidity pool. -/
  | liquidityPoolDeposit (pool : Bytes32) (maxA maxB : Int64) (minPrice maxPrice : Price)
  /-- Takes assets out of a liquidity pool. -/
  | liquidityPoolWithdraw (pool : Bytes32) (amount minA minB : Int64)
  | invokeHostFunction (function : HostFunction) (auth : List AuthEntry)
  /-- Keeps the entries that are read alive for some more ledgers. -/
  | extendFootprintTtl (extendTo : UInt32)
  /-- Brings expired entries back. -/
  | restoreFootprint

structure Operation where
  /-- The account it is done for, if it is not that of the transaction. -/
  source : Option MuxedAccount
  body : OperationBody

/-- The name of what an operation does. -/
def OperationBody.kindName : OperationBody → String
  | createAccount .. => "CreateAccount"
  | payment .. => "Payment"
  | pathPaymentStrictReceive .. => "PathPaymentStrictReceive"
  | manageSellOffer .. => "ManageSellOffer"
  | createPassiveSellOffer .. => "CreatePassiveSellOffer"
  | setOptions .. => "SetOptions"
  | changeTrust .. => "ChangeTrust"
  | allowTrust .. => "AllowTrust"
  | accountMerge .. => "AccountMerge"
  | inflation => "Inflation"
  | manageData .. => "ManageData"
  | bumpSequence .. => "BumpSequence"
  | manageBuyOffer .. => "ManageBuyOffer"
  | pathPaymentStrictSend .. => "PathPaymentStrictSend"
  | createClaimableBalance .. => "CreateClaimableBalance"
  | claimClaimableBalance .. => "ClaimClaimableBalance"
  | beginSponsoringFutureReserves .. => "BeginSponsoringFutureReserves"
  | endSponsoringFutureReserves => "EndSponsoringFutureReserves"
  | revokeSponsorship .. => "RevokeSponsorship"
  | clawback .. => "Clawback"
  | clawbackClaimableBalance .. => "ClawbackClaimableBalance"
  | setTrustLineFlags .. => "SetTrustLineFlags"
  | liquidityPoolDeposit .. => "LiquidityPoolDeposit"
  | liquidityPoolWithdraw .. => "LiquidityPoolWithdraw"
  | invokeHostFunction .. => "InvokeHostFunction"
  | extendFootprintTtl .. => "ExtendFootprintTtl"
  | restoreFootprint => "RestoreFootprint"

/-! ## Binary form -/

namespace PathPayment

/-- How many assets a path has at most. -/
def maxPathLength : Nat := 5

def read : Xdr.Reader PathPayment :=
  return ⟨← Xdr.read, ← Xdr.read, ← Xdr.read, ← Xdr.read, ← Xdr.read,
    ← Xdr.readList maxPathLength⟩

def write (p : PathPayment) : Xdr.Encoding :=
  Xdr.write p.sendAsset ++ Xdr.write p.sendAmount ++ Xdr.write p.destination
    ++ Xdr.write p.receiveAsset ++ Xdr.write p.receiveAmount
    ++ Xdr.writeList maxPathLength p.path

instance : Xdr PathPayment := ⟨read, write⟩

end PathPayment

namespace Offer

def read : Xdr.Reader Offer := return ⟨← Xdr.read, ← Xdr.read, ← Xdr.read, ← Xdr.read⟩

def write (o : Offer) : Xdr.Encoding :=
  Xdr.write o.selling ++ Xdr.write o.buying ++ Xdr.write o.amount ++ Xdr.write o.price

instance : Xdr Offer := ⟨read, write⟩

end Offer

namespace WeightedSigner

def read : Xdr.Reader WeightedSigner := return ⟨← Xdr.read, ← Xdr.read⟩

def write (s : WeightedSigner) : Xdr.Encoding := Xdr.write s.key ++ Xdr.write s.weight

instance : Xdr WeightedSigner := ⟨read, write⟩

end WeightedSigner

namespace AccountOptions

/-- The longest home domain. -/
def maxDomainLength : Nat := 32

def read : Xdr.Reader AccountOptions :=
  return {
    inflationDestination := ← .option Address.readAccountKey
    clearFlags := ← Xdr.read
    setFlags := ← Xdr.read
    masterWeight := ← Xdr.read
    lowThreshold := ← Xdr.read
    mediumThreshold := ← Xdr.read
    highThreshold := ← Xdr.read
    homeDomain := ← .option (.opaqueBytes maxDomainLength)
    signer := ← Xdr.read }

def write (o : AccountOptions) : Xdr.Encoding :=
  .option Address.writeAccountKey o.inflationDestination ++ Xdr.write o.clearFlags
    ++ Xdr.write o.setFlags ++ Xdr.write o.masterWeight ++ Xdr.write o.lowThreshold
    ++ Xdr.write o.mediumThreshold ++ Xdr.write o.highThreshold
    ++ .option (.opaqueBytes maxDomainLength) o.homeDomain ++ Xdr.write o.signer

instance : Xdr AccountOptions := ⟨read, write⟩

end AccountOptions

namespace Sponsorship

def read : Xdr.Reader Sponsorship := do
  match ← .tag with
  | 0 => ledgerEntry <$> Xdr.read
  | 1 => return signer (← Address.readAccountKey) (← Xdr.read)
  | _ => .invalid

def write : Sponsorship → Xdr.Encoding
  | ledgerEntry key => .tag 0 ++ Xdr.write key
  | signer account key => .tag 1 ++ Address.writeAccountKey account ++ Xdr.write key

instance : Xdr Sponsorship := ⟨read, write⟩

end Sponsorship

namespace OperationBody

/-- The longest name or value of an account's data. -/
def maxDataLength : Nat := 64

/-- How many claimants a balance has at most. -/
def maxClaimants : Nat := 10

/-- Reads what an operation does, for the kinds up to fourteen. -/
def readClassic : Nat → Xdr.Reader OperationBody
  | 0 => return createAccount (← Address.readAccountKey) (← Xdr.read)
  | 1 => return payment (← Xdr.read) (← Xdr.read) (← Xdr.read)
  | 2 => pathPaymentStrictReceive <$> Xdr.read
  | 3 => return manageSellOffer (← Xdr.read) (← Xdr.read)
  | 4 => createPassiveSellOffer <$> Xdr.read
  | 5 => setOptions <$> Xdr.read
  | 6 => return changeTrust (← Xdr.read) (← Xdr.read)
  | 7 => return allowTrust (← Address.readAccountKey) (← Xdr.read) (← Xdr.read)
  | 8 => accountMerge <$> Xdr.read
  | 9 => return inflation
  | 10 => return manageData (← .opaqueBytes maxDataLength) (← .option (.opaqueBytes maxDataLength))
  | 11 => bumpSequence <$> Xdr.read
  | 12 => return manageBuyOffer (← Xdr.read) (← Xdr.read)
  | 13 => pathPaymentStrictSend <$> Xdr.read
  | 14 => return createClaimableBalance (← Xdr.read) (← Xdr.read) (← Xdr.readList maxClaimants)
  | _ => .invalid

/-- Reads what an operation does, for the kinds from fifteen on. -/
def readLater : Nat → Xdr.Reader OperationBody
  | 15 => claimClaimableBalance <$> Xdr.read
  | 16 => beginSponsoringFutureReserves <$> Address.readAccountKey
  | 17 => return endSponsoringFutureReserves
  | 18 => revokeSponsorship <$> Xdr.read
  | 19 => return clawback (← Xdr.read) (← Xdr.read) (← Xdr.read)
  | 20 => clawbackClaimableBalance <$> Xdr.read
  | 21 =>
    return setTrustLineFlags (← Address.readAccountKey) (← Xdr.read) (← Xdr.read) (← Xdr.read)
  | 22 =>
    return liquidityPoolDeposit (← Xdr.read) (← Xdr.read) (← Xdr.read) (← Xdr.read) (← Xdr.read)
  | 23 => return liquidityPoolWithdraw (← Xdr.read) (← Xdr.read) (← Xdr.read) (← Xdr.read)
  | 24 => return invokeHostFunction (← Xdr.read) (← Xdr.readList Xdr.maxLength)
  | 25 => do
    Xdr.Reader.noExtension
    extendFootprintTtl <$> Xdr.read
  | 26 => do
    Xdr.Reader.noExtension
    return restoreFootprint
  | _ => .invalid

def read : Xdr.Reader OperationBody := do
  let kind ← .tag
  if kind ≤ 14 then readClassic kind else readLater kind

def write : OperationBody → Xdr.Encoding
  | createAccount destination balance =>
    .tag 0 ++ Address.writeAccountKey destination ++ Xdr.write balance
  | payment destination asset amount =>
    .tag 1 ++ Xdr.write destination ++ Xdr.write asset ++ Xdr.write amount
  | pathPaymentStrictReceive p => .tag 2 ++ Xdr.write p
  | manageSellOffer o id => .tag 3 ++ Xdr.write o ++ Xdr.write id
  | createPassiveSellOffer o => .tag 4 ++ Xdr.write o
  | setOptions o => .tag 5 ++ Xdr.write o
  | changeTrust line limit => .tag 6 ++ Xdr.write line ++ Xdr.write limit
  | allowTrust trustor code authorize =>
    .tag 7 ++ Address.writeAccountKey trustor ++ Xdr.write code ++ Xdr.write authorize
  | accountMerge destination => .tag 8 ++ Xdr.write destination
  | inflation => .tag 9
  | manageData name value =>
    .tag 10 ++ .opaqueBytes maxDataLength name ++ .option (.opaqueBytes maxDataLength) value
  | bumpSequence target => .tag 11 ++ Xdr.write target
  | manageBuyOffer o id => .tag 12 ++ Xdr.write o ++ Xdr.write id
  | pathPaymentStrictSend p => .tag 13 ++ Xdr.write p
  | createClaimableBalance asset amount claimants =>
    .tag 14 ++ Xdr.write asset ++ Xdr.write amount ++ Xdr.writeList maxClaimants claimants
  | claimClaimableBalance id => .tag 15 ++ Xdr.write id
  | beginSponsoringFutureReserves sponsored => .tag 16 ++ Address.writeAccountKey sponsored
  | endSponsoringFutureReserves => .tag 17
  | revokeSponsorship s => .tag 18 ++ Xdr.write s
  | clawback asset source amount =>
    .tag 19 ++ Xdr.write asset ++ Xdr.write source ++ Xdr.write amount
  | clawbackClaimableBalance id => .tag 20 ++ Xdr.write id
  | setTrustLineFlags trustor asset clear set =>
    .tag 21 ++ Address.writeAccountKey trustor ++ Xdr.write asset ++ Xdr.write clear
      ++ Xdr.write set
  | liquidityPoolDeposit pool maxA maxB minPrice maxPrice =>
    .tag 22 ++ Xdr.write pool ++ Xdr.write maxA ++ Xdr.write maxB ++ Xdr.write minPrice
      ++ Xdr.write maxPrice
  | liquidityPoolWithdraw pool amount minA minB =>
    .tag 23 ++ Xdr.write pool ++ Xdr.write amount ++ Xdr.write minA ++ Xdr.write minB
  | invokeHostFunction function auth =>
    .tag 24 ++ Xdr.write function ++ Xdr.writeList Xdr.maxLength auth
  | extendFootprintTtl extendTo => .tag 25 ++ .noExtension ++ Xdr.write extendTo
  | restoreFootprint => .tag 26 ++ .noExtension

instance : Xdr OperationBody := ⟨read, write⟩

end OperationBody

namespace Operation

def read : Xdr.Reader Operation := return ⟨← Xdr.read, ← Xdr.read⟩

def write (o : Operation) : Xdr.Encoding := Xdr.write o.source ++ Xdr.write o.body

instance : Xdr Operation := ⟨read, write⟩

end Operation

end SmartWallet
