import SmartWallet.Proofs.Xdr.Codec
import SmartWallet.ScVal.Binary

set_option autoImplicit false

/-! # The binary form of contract values

Addresses, failures, code and contract values are read back from what is written for them, and can
be written once they were read.

Values nest, and the reader goes to a depth that is the number of bytes it was given. The induction
is on that depth: each level starts with the four bytes of a number, so the parts of a value have
fewer bytes than the value, and a depth that is enough for the value leaves enough for its parts. -/

namespace SmartWallet

open Xdr Reader

/-! ## Addresses -/

namespace Address

theorem reads_accountKey (key : Bytes32) : Reads readAccountKey (writeAccountKey key) key :=
  .tagged rfl (Lawful.reads key)

theorem fits_readAccountKey :
    Yields readAccountKey fun key => (writeAccountKey key).fits = true := fun _ _ _ _ => rfl

theorem reads_write (a : Address) : Reads read a.write a := by
  unfold read
  cases a with
  | account key =>
      rw [write]
      exact .tagged rfl (.map _ (reads_accountKey key))
  | contract c =>
      rw [write]
      exact .tagged rfl (.map _ (Lawful.reads c.bytes))

theorem fits_write (a : Address) : a.write.fits = true := by
  cases a <;> rfl

instance : Lawful Address := ⟨reads_write, fun _ a _ _ => fits_write a⟩

end Address

/-! ## Failures and code -/

theorem Xdr.Reader.Reads.index {n : Nat} (hn : n ≤ 0x100000000) (v : Fin n) :
    Reads (Reader.index n) (.tag v.val) v := by
  refine .bare (decide_eq_true (Nat.lt_of_lt_of_le v.isLt hn)) ?_
  rw [dif_pos v.isLt]
  exact .pure v

namespace ScError

theorem reads_write (e : ScError) : Reads read e.write e := by
  unfold read
  cases e with
  | contract code =>
      rw [write]
      exact .bind (.index (by decide) (0 : Fin 10)) (.map _ (Lawful.reads code))
  | host part code =>
      rw [write]
      refine .bind (.index (by decide) (⟨part.val + 1, by omega⟩ : Fin 10)) ?_
      rw [dif_neg (Nat.succ_ne_zero part.val)]
      exact .map _ (.index (by decide) code)

theorem fits_write (e : ScError) : e.write.fits = true := by
  cases e <;> rfl

instance : Lawful ScError := ⟨reads_write, fun _ e _ _ => fits_write e⟩

end ScError

namespace ContractExecutable

theorem reads_write (x : ContractExecutable) : Reads read x.write x := by
  unfold read
  cases x with
  | wasm digest =>
      rw [write]
      exact .tagged rfl (.map _ (Lawful.reads digest))
  | stellarAsset =>
      rw [write]
      exact .bare rfl (.pure _)

theorem fits_write (x : ContractExecutable) : x.write.fits = true := by
  cases x <;> rfl

instance : Lawful ContractExecutable := ⟨reads_write, fun _ x _ _ => fits_write x⟩

end ContractExecutable

/-! ## Values -/

namespace ScVal

/-- Writes a pair of a map. -/
def writeEntry (entry : ScVal × ScVal) : Encoding := entry.1.write ++ entry.2.write

theorem writeList_eq (items : List ScVal) : writeList items = .concat write items := by
  induction items with
  | nil => rw [writeList, Encoding.concat]
  | cons v rest ih => rw [writeList, Encoding.concat, ih]

theorem writeEntries_eq (entries : List (ScVal × ScVal)) :
    writeEntries entries = .concat writeEntry entries := by
  induction entries with
  | nil => rw [writeEntries, Encoding.concat]
  | cons entry rest ih => rw [writeEntries, Encoding.concat, ih, writeEntry]

theorem writeItems_eq (items : Option (List ScVal)) :
    writeItems items = .option (.list maxLength write) items := by
  cases items with
  | none => rw [writeItems, Encoding.option]
  | some items =>
      rw [writeItems, Encoding.option, Encoding.list, writeList_eq, Encoding.append_assoc]

theorem writeStorage_eq (entries : Option (List (ScVal × ScVal))) :
    writeStorage entries = .option (.list maxLength writeEntry) entries := by
  cases entries with
  | none => rw [writeStorage, Encoding.option]
  | some entries =>
      rw [writeStorage, Encoding.option, Encoding.list, writeEntries_eq, Encoding.append_assoc]

/-! ### Reading what was written -/

theorem Reads.entry {r : Reader ScVal} {entry : ScVal × ScVal} (hk : Reads r entry.1.write entry.1)
    (hv : Reads r entry.2.write entry.2) : Reads (readEntry r) (writeEntry entry) entry :=
  .bind hk (.last hv)

/-- A map is read when its keys and values are. -/
theorem reads_storage {r : Reader ScVal} {bound : Nat} {storage : Option (List (ScVal × ScVal))}
    (h : ∀ v : ScVal, v.write.bytes.length ≤ bound → Reads r v.write v)
    (hbound : (writeStorage storage).bytes.length ≤ bound) :
    Reads (readStorage r) (writeStorage storage) storage := by
  rw [writeStorage_eq] at hbound ⊢
  refine .option fun entries hentries => .list (Nat.le_refl _) fun entry hentry => ?_
  subst hentries
  have hlength : (writeEntry entry).bytes.length ≤ bound :=
    Nat.le_of_lt (Nat.lt_of_lt_of_le
      (Nat.lt_trans (Encoding.length_lt_length_list hentry) Encoding.length_lt_length_option)
      hbound)
  rw [writeEntry, Encoding.length_bytes_append] at hlength
  exact Reads.entry (h _ (by omega)) (h _ (by omega))

theorem reads_items {r : Reader ScVal} {bound : Nat} {items : Option (List ScVal)}
    (h : ∀ v : ScVal, v.write.bytes.length ≤ bound → Reads r v.write v)
    (hbound : (writeItems items).bytes.length ≤ bound) :
    Reads (.option (.list maxLength r)) (writeItems items) items := by
  rw [writeItems_eq] at hbound ⊢
  refine .option fun values hvalues => .list (Nat.le_refl _) fun v hv => h v ?_
  subst hvalues
  exact Nat.le_of_lt (Nat.lt_of_lt_of_le
    (Nat.lt_trans (Encoding.length_lt_length_list hv) Encoding.length_lt_length_option) hbound)

theorem reads_write (depth : Nat) (v : ScVal) (hdepth : v.write.bytes.length ≤ depth) :
    Reads (readWithin depth) v.write v := by
  induction depth generalizing v with
  | zero =>
      -- every form has the four bytes of its kind
      cases v <;> simp [write] at hdepth
  | succ depth ih =>
      unfold readWithin
      cases v with
      | bool b =>
          rw [write]
          exact .tagged rfl (.map _ (Lawful.reads b))
      | void =>
          rw [write]
          exact .bare rfl (.pure _)
      | error e =>
          rw [write]
          exact .tagged rfl (.map _ (Lawful.reads e))
      | u32 v =>
          rw [write]
          exact .tagged rfl (.map _ (Lawful.reads v))
      | i32 v =>
          rw [write]
          exact .tagged rfl (.map _ (Lawful.reads v))
      | u64 v =>
          rw [write]
          exact .tagged rfl (.map _ (Lawful.reads v))
      | i64 v =>
          rw [write]
          exact .tagged rfl (.map _ (Lawful.reads v))
      | timepoint v =>
          rw [write]
          exact .tagged rfl (.map _ (Lawful.reads v))
      | duration v =>
          rw [write]
          exact .tagged rfl (.map _ (Lawful.reads v))
      | u128 hi lo =>
          rw [write, Encoding.append_assoc]
          exact .tagged rfl (.bind (Lawful.reads hi) (.last (Lawful.reads lo)))
      | i128 hi lo =>
          rw [write, Encoding.append_assoc]
          exact .tagged rfl (.bind (Lawful.reads hi) (.last (Lawful.reads lo)))
      | u256 hiHi hiLo loHi loLo =>
          simp only [write, Encoding.append_assoc]
          exact .tagged rfl (.bind (Lawful.reads hiHi) (.bind (Lawful.reads hiLo)
            (.bind (Lawful.reads loHi) (.last (Lawful.reads loLo)))))
      | i256 hiHi hiLo loHi loLo =>
          simp only [write, Encoding.append_assoc]
          exact .tagged rfl (.bind (Lawful.reads hiHi) (.bind (Lawful.reads hiLo)
            (.bind (Lawful.reads loHi) (.last (Lawful.reads loLo)))))
      | bytes b =>
          rw [write]
          exact .tagged rfl (.map _ (.opaqueBytes (by decide) b))
      | string b =>
          rw [write]
          exact .tagged rfl (.map _ (.opaqueBytes (by decide) b))
      | symbol b =>
          rw [write]
          exact .tagged rfl (.map _ (.opaqueBytes (by decide) b))
      -- from here on some values have parts, which are read one level deeper
      | vec items =>
          rw [write] at hdepth ⊢
          exact .tagged rfl (.map _ (reads_items ih (Encoding.length_le_of_tag_append hdepth)))
      | map entries =>
          rw [write] at hdepth ⊢
          exact .tagged rfl (.map _ (reads_storage ih (Encoding.length_le_of_tag_append hdepth)))
      | address a =>
          rw [write]
          exact .tagged rfl (.map _ (Lawful.reads a))
      | contractInstance executable storage =>
          rw [write, Encoding.append_assoc] at hdepth ⊢
          have hparts := Encoding.length_le_of_tag_append hdepth
          rw [Encoding.length_bytes_append] at hparts
          exact .tagged rfl (.bind (Lawful.reads executable)
            (.last (reads_storage ih (by omega))))
      | ledgerKeyContractInstance =>
          rw [write]
          exact .bare rfl (.pure _)
      | ledgerKeyNonce nonce =>
          rw [write]
          exact .tagged rfl (.map _ (Lawful.reads nonce))

/-! ### Writing what was read -/

theorem fits_readStorage {r : Reader ScVal} (h : Yields r fun v => v.write.fits = true) :
    Yields (readStorage r) fun storage => (writeStorage storage).fits = true := by
  have hentry : Yields (readEntry r) fun entry => (writeEntry entry).fits = true :=
    h.bind fun k hk => h.bind fun v hv => .pure (by simp [writeEntry, hk, hv])
  simp only [writeStorage_eq]
  exact .option (.list maxLength hentry)

theorem fits_readWithin (depth : Nat) :
    Yields (readWithin depth) fun v => v.write.fits = true := by
  induction depth with
  | zero => exact .throw _
  | succ depth ih =>
      have hitems := Yields.option (Yields.list maxLength ih)
      have hstorage := fits_readStorage ih
      simp only [← writeItems_eq] at hitems
      refine .tagged fun kind => ?_
      -- one case for each kind, in the order of their numbers
      split
      · exact Lawful.fits.map fun b h => by simp [write, h]
      · exact .pure (by simp [write])
      · exact Lawful.fits.map fun e h => by simp [write, h]
      · exact Lawful.fits.map fun v h => by simp [write, h]
      · exact Lawful.fits.map fun v h => by simp [write, h]
      · exact Lawful.fits.map fun v h => by simp [write, h]
      · exact Lawful.fits.map fun v h => by simp [write, h]
      · exact Lawful.fits.map fun v h => by simp [write, h]
      · exact Lawful.fits.map fun v h => by simp [write, h]
      · exact Lawful.fits.bind fun hi hhi => Lawful.fits.bind fun lo hlo =>
          .pure (by simp [write, hhi, hlo])
      · exact Lawful.fits.bind fun hi hhi => Lawful.fits.bind fun lo hlo =>
          .pure (by simp [write, hhi, hlo])
      · exact Lawful.fits.bind fun hiHi h1 => Lawful.fits.bind fun hiLo h2 =>
          Lawful.fits.bind fun loHi h3 => Lawful.fits.bind fun loLo h4 =>
            .pure (by simp [write, h1, h2, h3, h4])
      · exact Lawful.fits.bind fun hiHi h1 => Lawful.fits.bind fun hiLo h2 =>
          Lawful.fits.bind fun loHi h3 => Lawful.fits.bind fun loLo h4 =>
            .pure (by simp [write, h1, h2, h3, h4])
      · exact (Yields.opaqueBytes _).map fun b h => by simp [write, h]
      · exact (Yields.opaqueBytes _).map fun b h => by simp [write, h]
      · exact (Yields.opaqueBytes _).map fun b h => by simp [write, h]
      · exact hitems.map fun items h => by simp [write, h]
      · exact hstorage.map fun storage h => by simp [write, h]
      · exact Lawful.fits.map fun a h => by simp [write, h]
      · exact Lawful.fits.bind fun executable hx => hstorage.bind fun storage hs =>
          .pure (by simp [write, hx, hs])
      · exact .pure (by simp [write])
      · exact Lawful.fits.map fun nonce h => by simp [write, h]
      · exact .invalid

instance : Lawful ScVal where
  reads v := .sized fun depth hdepth => reads_write depth v hdepth
  fits := .sized fits_readWithin

end ScVal

end SmartWallet
