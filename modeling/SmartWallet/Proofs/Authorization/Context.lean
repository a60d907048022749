import SmartWallet.Authorization.Policy
import SmartWallet.Proofs.Except
import SmartWallet.Proofs.ScVal.Record
import SmartWallet.Sample

set_option autoImplicit false

/-! # What a context tells

A policy is asked with the context of a function and sees nothing else of it, so whatever two
functions with one context have different is approved unseen. `HasContext` lists the functions that
have a context, each with its kind and the fields of the record, and `Alike` is what comes of it:
two functions have one context exactly if they are the same call, or creations of one kind with the
same code, the same salt and the same arguments for the constructor (`context_identifies`).

The only thing that a context does not tell is who creates a contract, the address that the new
identifier is derived from together with the salt.

The kinds are told apart by their names. Within a kind the names of the fields are fixed, so the
record tells every field, sorted as it is (`ScVal.ofRecord_inj`). -/

namespace SmartWallet.AuthorizedFunction

/-! ## Kinds -/

/-- The kinds of functions that a context tells apart. -/
inductive Kind where
  | call
  | create
  | createWithArgs
deriving DecidableEq

/-- The name of a kind, by which a context starts. -/
def Kind.name : Kind → String
  | call => "Contract"
  | create => "CreateContractHostFn"
  | createWithArgs => "CreateContractWithCtorHostFn"

/-- The names of the fields that follow. -/
def Kind.fieldNames : Kind → List String
  | call => ["args", "contract", "fn_name"]
  | create => ["executable", "salt"]
  | createWithArgs => ["constructor_args", "executable", "salt"]

theorem Kind.name_inj {k k' : Kind} : k.name = k'.name ↔ k = k' := by
  cases k <;> cases k' <;> decide

theorem Kind.nodup_fieldNames (k : Kind) : k.fieldNames.Nodup := by
  cases k <;> decide

/-! ## Contexts -/

/-- The functions with a context, their kind and what the context tells of them. -/
inductive HasContext : AuthorizedFunction → Kind → List (String × ScVal) → Prop
  | call (c : ContractCall) :
      HasContext (.call c) .call
        [("args", .ofList c.args), ("contract", .address c.contract),
          ("fn_name", .symbol c.function)]
  | create (deployer : Address) (salt digest : Bytes32) :
      HasContext (.create (.address deployer salt) (.wasm digest)) .create
        [("executable", .ofVariant "Wasm" [.bytes digest.toList]), ("salt", .bytes salt.toList)]
  | createWithArgs (deployer : Address) (salt digest : Bytes32) (args : List ScVal) :
      HasContext (.createWithArgs (.address deployer salt) (.wasm digest) args) .createWithArgs
        [("constructor_args", .ofList args),
          ("executable", .ofVariant "Wasm" [.bytes digest.toList]), ("salt", .bytes salt.toList)]

/-- The functions that a policy cannot tell apart. -/
inductive Alike : AuthorizedFunction → AuthorizedFunction → Prop
  | call (c : ContractCall) : Alike (.call c) (.call c)
  /-- Creations by whomever. -/
  | create (a b : Address) (salt digest : Bytes32) :
      Alike (.create (.address a salt) (.wasm digest)) (.create (.address b salt) (.wasm digest))
  | createWithArgs (a b : Address) (salt digest : Bytes32) (args : List ScVal) :
      Alike (.createWithArgs (.address a salt) (.wasm digest) args)
        (.createWithArgs (.address b salt) (.wasm digest) args)

variable {f g : AuthorizedFunction} {k k' : Kind} {fields fields' : List (String × ScVal)}

theorem HasContext.names (h : HasContext f k fields) : fields.map Prod.fst = k.fieldNames := by
  cases h <;> rfl

theorem HasContext.context (h : HasContext f k fields) :
    f.context = .ok (.ofVariant k.name [.ofRecord fields]) := by
  cases h <;> rfl

/-- The fields of a creation are those of wasm code and an address. -/
theorem creationFields_eq_ok_iff {preimage : ContractIdPreimage} {executable : ContractExecutable}
    {code salt : ScVal} :
    creationFields preimage executable = .ok (code, salt) ↔
      ∃ deployer s digest, preimage = .address deployer s ∧ executable = .wasm digest
        ∧ code = .ofVariant "Wasm" [.bytes digest.toList] ∧ salt = .bytes s.toList := by
  constructor
  · intro h
    cases executable with
    | stellarAsset => cases h
    | wasm digest =>
        cases preimage with
        | asset a => cases h
        | address deployer s =>
            cases h
            exact ⟨deployer, s, digest, rfl, rfl, rfl, rfl⟩
  · rintro ⟨deployer, s, digest, rfl, rfl, rfl, rfl⟩
    rfl

theorem context_eq_ok_iff {v : ScVal} :
    f.context = .ok v ↔
      ∃ k fields, HasContext f k fields ∧ v = .ofVariant k.name [.ofRecord fields] := by
  constructor
  · intro h
    cases f with
    | call c =>
        cases h
        exact ⟨_, _, .call c, rfl⟩
    | create preimage executable =>
        obtain ⟨⟨code, salt⟩, hfields, h⟩ := except_bind_eq_ok_iff.mp h
        obtain ⟨deployer, s, digest, rfl, rfl, rfl, rfl⟩ := creationFields_eq_ok_iff.mp hfields
        cases h
        exact ⟨_, _, .create deployer s digest, rfl⟩
    | createWithArgs preimage executable args =>
        obtain ⟨⟨code, salt⟩, hfields, h⟩ := except_bind_eq_ok_iff.mp h
        obtain ⟨deployer, s, digest, rfl, rfl, rfl, rfl⟩ := creationFields_eq_ok_iff.mp hfields
        cases h
        exact ⟨_, _, .createWithArgs deployer s digest args, rfl⟩
  · rintro ⟨k, fields, hcontext, rfl⟩
    exact hcontext.context

/-! ## Functions with one context -/

/-- Equal contexts have one kind and the same fields. -/
theorem HasContext.eq_of_context_eq (hf : HasContext f k fields) (hg : HasContext g k' fields')
    (h : f.context = g.context) : k = k' ∧ fields = fields' := by
  rw [hf.context, hg.context] at h
  obtain ⟨hname, hrecord⟩ := ScVal.ofVariant_inj.mp (Except.ok.inj h)
  obtain rfl := Kind.name_inj.mp hname
  have hnames : fields.map Prod.fst = fields'.map Prod.fst := hf.names.trans hg.names.symm
  exact ⟨rfl, (ScVal.ofRecord_inj hnames).mp (List.cons.inj hrecord).1⟩

/-- Wasm code tells its digest. -/
theorem wasm_inj {digest digest' : Bytes32}
    (h : ScVal.ofVariant "Wasm" [.bytes digest.toList]
      = .ofVariant "Wasm" [.bytes digest'.toList]) :
    digest = digest' := by
  obtain ⟨-, hfields⟩ := ScVal.ofVariant_inj.mp h
  exact FixedBytes.ext (ScVal.bytes.inj (List.cons.inj hfields).1)

/-- Functions of one kind with the same fields are alike. -/
theorem HasContext.alike (hf : HasContext f k fields) (hg : HasContext g k fields')
    (h : fields = fields') : Alike f g := by
  cases hf with
  | call c =>
      cases hg with
      | call d =>
          simp only [List.cons.injEq, Prod.mk.injEq, ScVal.ofList, ScVal.vec.injEq,
            Option.some_inj, ScVal.address.injEq, ScVal.symbol.injEq, true_and, and_true] at h
          obtain ⟨hargs, hcontract, hfunction⟩ := h
          have hsame : c = d := by
            cases c
            cases d
            subst hargs hcontract hfunction
            rfl
          exact hsame ▸ .call c
  | create a salt digest =>
      cases hg with
      | create b salt' digest' =>
          simp only [List.cons.injEq, Prod.mk.injEq, ScVal.bytes.injEq, true_and, and_true] at h
          obtain ⟨hcode, hsalt⟩ := h
          obtain rfl := wasm_inj hcode
          obtain rfl := FixedBytes.ext hsalt
          exact .create a b salt digest
  | createWithArgs a salt digest args =>
      cases hg with
      | createWithArgs b salt' digest' args' =>
          simp only [List.cons.injEq, Prod.mk.injEq, ScVal.ofList, ScVal.vec.injEq,
            Option.some_inj, ScVal.bytes.injEq, true_and, and_true] at h
          obtain ⟨rfl, hcode, hsalt⟩ := h
          obtain rfl := wasm_inj hcode
          obtain rfl := FixedBytes.ext hsalt
          exact .createWithArgs a b salt digest args

/-- Whoever creates a contract is not told. -/
theorem Alike.context_eq (h : Alike f g) : f.context = g.context := by
  cases h <;> rfl

/-- A context identifies what is authorized: the functions with the context of a given one are those
that are the same call, or creations of one kind with the same code, salt and arguments. And it is
well formed, the name of the kind and a map with strictly increasing keys. -/
theorem context_identifies :
    (∀ (f g : AuthorizedFunction) (v : ScVal), f.context = .ok v →
      (g.context = .ok v ↔ Alike f g))
    ∧ (∀ (f : AuthorizedFunction) (v : ScVal), f.context = .ok v →
      ∃ name entries, v = .vec (some [.symbol name, .map (some entries)])
        ∧ entries.Pairwise fun a b => compare a.1 b.1 = .lt) := by
  constructor
  · intro f g v hf
    obtain ⟨k, fields, hf', -⟩ := context_eq_ok_iff.mp hf
    constructor
    · intro hg
      obtain ⟨k', fields', hg', -⟩ := context_eq_ok_iff.mp hg
      obtain ⟨rfl, hfields⟩ := hf'.eq_of_context_eq hg' (hf.trans hg.symm)
      exact hf'.alike hg' hfields
    · intro halike
      rw [← halike.context_eq]
      exact hf
  · intro f v hf
    obtain ⟨k, fields, hf', rfl⟩ := context_eq_ok_iff.mp hf
    have hnodup : (fields.map Prod.fst).Nodup := by
      rw [hf'.names]
      exact k.nodup_fieldNames
    obtain ⟨entries, hrecord, hincreasing⟩ := ScVal.ofRecord_increasing hnodup
    refine ⟨Bytes.ofString k.name, entries, ?_, hincreasing⟩
    rw [hrecord]
    rfl

/-- The creation of a contract with code and salt of repeated bytes. -/
def sampleCreation (deployer : ContractAddress) : AuthorizedFunction :=
  .create (.address (.contract deployer) (.replicate 32 0x5a)) (.wasm (.replicate 32 0xc0))

/-- Two creations that differ only in who creates have one context, and it is not that of the
creation with no arguments for the constructor. -/
theorem context_identifies_sample :
    ∃ v, context (sampleCreation Sample.wallet) = .ok v
      ∧ context (sampleCreation Sample.recipient) = .ok v
      ∧ context (.createWithArgs (.address (.contract Sample.wallet) (.replicate 32 0x5a))
          (.wasm (.replicate 32 0xc0)) []) ≠ .ok v
      ∧ ∃ name entries, v = .vec (some [.symbol name, .map (some entries)])
        ∧ entries.Pairwise fun a b => compare a.1 b.1 = .lt := by
  obtain ⟨hidentifies, hshape⟩ := context_identifies
  have hcontext := (HasContext.create (.contract Sample.wallet) (.replicate 32 0x5a)
    (.replicate 32 0xc0)).context
  refine ⟨_, hcontext, (hidentifies _ _ _ hcontext).mpr (.create _ _ _ _), ?_, hshape _ _ hcontext⟩
  intro hother
  cases (hidentifies _ _ _ hcontext).mp hother

end SmartWallet.AuthorizedFunction
