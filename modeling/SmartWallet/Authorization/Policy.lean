import SmartWallet.Authorization.Entry

set_option autoImplicit false

/-! # Policies

A policy signer does not sign: it is asked by the wallet in a call of its own, and that call has to
be authorized like any other. `policyEntry` makes the entry that does it, a sibling of the entry
that the policy approves: it allows the wallet to be asked whether the authorized function,
described by its *context*, is approved.

The context tells the functions apart: what the call or creation consists of can be read off it. -/

namespace SmartWallet

/-- The name of the function by which a contract is asked. -/
def checkAuth : String := "__check_auth"

/-- The code and salt of a creation as contract values. -/
def creationFields (preimage : ContractIdPreimage) (executable : ContractExecutable) :
    Except AuthError (ScVal × ScVal) :=
  match executable, preimage with
  | .stellarAsset, _ => .error (.unsupportedContext "stellar asset executable")
  | .wasm _, .asset _ => .error (.unsupportedContext "asset contract id preimage")
  | .wasm digest, .address _ salt =>
    .ok (.ofVariant "Wasm" [.bytes digest.toList], .bytes salt.toList)

def AuthorizedFunction.context : AuthorizedFunction → Except AuthError ScVal
  | call c => .ok (.ofVariant "Contract" [.ofRecord [
      ("args", .ofList c.args),
      ("contract", .address c.contract),
      ("fn_name", .symbol c.function)]])
  | create preimage executable => do
    let (code, salt) ← creationFields preimage executable
    return .ofVariant "CreateContractHostFn" [.ofRecord [("executable", code), ("salt", salt)]]
  | createWithArgs preimage executable args => do
    let (code, salt) ← creationFields preimage executable
    return .ofVariant "CreateContractWithCtorHostFn" [.ofRecord [
      ("constructor_args", .ofList args), ("executable", code), ("salt", salt)]]

namespace AuthEntry

/-- The entry by which a policy is asked by a wallet about this entry. It takes over the nonce and
the expiration, which is final only once this entry is signed. -/
def policyEntry (e : AuthEntry) (policy wallet : ContractAddress) : Except AuthError AuthEntry := do
  let c ← e.addressCredentials
  if (← e.signatures).isEmpty then throw .unsignedEntry
  let context ← e.rootInvocation.function.context
  return {
    credentials := .address ⟨.contract policy, c.nonce, c.expiration, .void⟩
    rootInvocation := .mk (.call ⟨.contract wallet, Bytes.ofString checkAuth, [context]⟩) [] }

/-- The contract that is asked by the root of an entry, if the root asks one. -/
def checkAuthTarget? (e : AuthEntry) : Option Address :=
  match e.rootInvocation.function with
  | .call c => if c.function = Bytes.ofString checkAuth then some c.contract else none
  | _ => none

/-- Appends the policy entry for the entry at an index. -/
def attachPolicy (entries : List AuthEntry) (index : Nat) (policy wallet : ContractAddress) :
    Except AuthError (List AuthEntry) :=
  match entries[index]? with
  | none => .error (.authEntryNotFound index)
  | some e => do return entries ++ [← e.policyEntry policy wallet]

end AuthEntry

end SmartWallet
