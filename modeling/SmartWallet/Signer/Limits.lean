import SmartWallet.Signer.Basic

set_option autoImplicit false

/-! # Limits of a signer

A wallet can restrict a signer to certain contracts, and ask in each of them for the signatures of
further signers. The restrictions are kept by the strkey of the contract, in the order of the texts,
each contract once; the empty text stands for any contract and is left out of the encoded form,
where no entry at all means no restriction.

The encoded map is sorted by address, which is another order than that of the strkeys: in base 32
the digits come before the letters but count for more. -/

namespace SmartWallet

/-- The further signers asked for in one context: none, or those of a list. -/
abbrev CoSigners := Option (List SignerKey)

/-- Whether the contexts of a list stand in increasing order, so that none is repeated. -/
abbrev ContextsIncrease (entries : List (String × CoSigners)) : Prop :=
  entries.Pairwise fun a b => a.1 < b.1

/-- The contexts that a signer is restricted to. -/
structure SignerLimits where
  /-- The contexts with the further signers they ask for. -/
  entries : List (String × CoSigners)
  /-- The contexts are in increasing order. -/
  increasing : ContextsIncrease entries
deriving DecidableEq

namespace SignerLimits

/-- Puts a context in its place, or replaces what was there. -/
def insertEntry (context : String) (keys : CoSigners) :
    List (String × CoSigners) → List (String × CoSigners)
  | [] => [(context, keys)]
  | (c, k) :: rest =>
    if context < c then (context, keys) :: (c, k) :: rest
    else if context = c then (context, keys) :: rest
    else (c, k) :: insertEntry context keys rest

theorem mem_insertEntry {context : String} {keys : CoSigners} {x : String × CoSigners}
    {entries : List (String × CoSigners)} (h : x ∈ insertEntry context keys entries) :
    x = (context, keys) ∨ x ∈ entries := by
  induction entries with
  | nil => simpa [insertEntry] using h
  | cons e rest ih =>
    obtain ⟨c, k⟩ := e
    unfold insertEntry at h
    split at h
    · simpa using h
    · split at h
      · rcases List.mem_cons.mp h with h | h
        · exact Or.inl h
        · exact Or.inr (List.mem_cons_of_mem _ h)
      · rcases List.mem_cons.mp h with h | h
        · exact Or.inr (by simp [h])
        · rcases ih h with h | h
          · exact Or.inl h
          · exact Or.inr (List.mem_cons_of_mem _ h)

theorem insertEntry_increasing (context : String) (keys : CoSigners)
    {entries : List (String × CoSigners)} (h : ContextsIncrease entries) :
    ContextsIncrease (insertEntry context keys entries) := by
  induction entries with
  | nil => simp [insertEntry, ContextsIncrease]
  | cons e rest ih =>
    obtain ⟨c, k⟩ := e
    obtain ⟨hc, hrest⟩ := List.pairwise_cons.mp h
    unfold insertEntry
    split
    · rename_i hlt
      refine List.pairwise_cons.mpr ⟨fun x hx => ?_, h⟩
      rcases List.mem_cons.mp hx with rfl | hx
      · exact hlt
      · exact String.lt_trans hlt (hc x hx)
    · split
      · rename_i heq
        subst heq
        exact List.pairwise_cons.mpr ⟨hc, hrest⟩
      · rename_i hnlt hne
        refine List.pairwise_cons.mpr ⟨fun x hx => ?_, ih hrest⟩
        rcases mem_insertEntry hx with rfl | hx
        · have hlt : c < context := by grind
          exact hlt
        · exact hc x hx

/-- No restriction. -/
def empty : SignerLimits := ⟨[], List.Pairwise.nil⟩

/-- Sets what a context asks for. -/
def insert (l : SignerLimits) (context : String) (keys : CoSigners) : SignerLimits :=
  ⟨insertEntry context keys l.entries, insertEntry_increasing context keys l.increasing⟩

/-- The limits of a list of contexts; a later one replaces an earlier one. -/
def ofList (entries : List (String × CoSigners)) : SignerLimits :=
  entries.foldl (fun l (context, keys) => l.insert context keys) empty

/-! ## Form as a contract value -/

/-- The further signers as a contract value. -/
def coSignersToScVal : CoSigners → ScVal
  | none => .void
  | some keys => .ofList (keys.map SignerKey.toScVal)

/-- A context and its further signers as a pair of a map. -/
def entryToScVal : String × CoSigners → Except AuthError ScMapEntry
  | (context, keys) => do
    let address ← AuthError.ofOption .strkey (ContractAddress.ofText? context)
    return (.address (.contract address), coSignersToScVal keys)

/-- Limits as a contract value. -/
def toScVal (l : SignerLimits) : Except AuthError ScVal := do
  let entries ← (l.entries.filter fun e => e.1 ≠ "").mapM entryToScVal
  return .ofList [.ofMap entries]

/-- What a value that is no limits is reported as. -/
def what : String := "signer limits"

/-- The further signers that a contract value writes. -/
def coSignersOfScVal (v : ScVal) : Except AuthError CoSigners :=
  if v = .void then .ok none
  else do return some (← (← v.asVec what).mapM SignerKey.ofScVal)

/-- The context and further signers that a pair of a map writes. -/
def entryOfScVal (e : ScMapEntry) : Except AuthError (String × CoSigners) := do
  let address ← e.1.asContract what
  return (address.text, ← coSignersOfScVal e.2)

/-- The limits that a contract value writes. -/
def ofScVal (v : ScVal) : Except AuthError SignerLimits := do
  match ← v.asVec what with
  | [limits] => return ofList (← (← limits.asMap what).mapM entryOfScVal)
  | _ => throw (.invalidScVal what)

end SignerLimits

end SmartWallet
