import SmartWallet.Proofs.Except.Traversal
import SmartWallet.Proofs.ScVal.Record
import SmartWallet.Proofs.ScVal.Shape

set_option autoImplicit false

/-! # Looking fields up in a record

A record is built from named values in any order, and a name may come more than once. Its map is
sorted, so the values are no longer where they were given. Still a look-up by name answers the value
that was given first with that name (`recordOfNames_fields`), for three reasons: different names are
different keys (`lookup_namedValues`), so no other pair is met before; a name is one key wherever it
stands; and sorting keeps the order of the pairs with one key (`field_sortEntries`).

A name that does not fit in a symbol is the only reason for which there is no record. -/

namespace SmartWallet.ScVal

variable {fields : List (String × ScVal)} {name : String} {v : ScVal}

/-! ## Names as keys -/

/-- The value that was given first with a name. -/
def FirstNamed (fields : List (String × ScVal)) (name : String) (v : ScVal) : Prop :=
  ∃ before rest, fields = before ++ (name, v) :: rest ∧ name ∉ before.map Prod.fst

/-- The pairs of a record, in the order in which they were given. -/
def namedValues (fields : List (String × ScVal)) : List ScMapEntry :=
  fields.map fun x => (ofName x.1, x.2)

theorem lookup_namedValues (fields : List (String × ScVal)) (name : String) :
    (namedValues fields).lookup (ofName name) = fields.lookup name := by
  induction fields with
  | nil => rfl
  | cons x fields ih =>
      obtain ⟨other, v⟩ := x
      show List.lookup (ofName name) ((ofName other, v) :: namedValues fields) = _
      by_cases hname : name = other
      · rw [hname, List.lookup_cons_self, List.lookup_cons_self]
      · have hkey : (ofName name == ofName other) = false :=
          beq_eq_false_iff_ne.mpr (mt ofName_inj.mp hname)
        rw [List.lookup_cons, List.lookup_cons, hkey, beq_eq_false_iff_ne.mpr hname]
        exact ih

theorem notMem_names_iff : name ∉ fields.map Prod.fst ↔ ∀ x ∈ fields, (name != x.1) = true := by
  rw [List.mem_map]
  constructor
  · intro hnone x hx
    exact bne_iff_ne.mpr fun hname => hnone ⟨x, hx, hname.symm⟩
  · rintro hnone ⟨x, hx, rfl⟩
    exact bne_iff_ne.mp (hnone x hx) rfl

theorem firstNamed_iff : FirstNamed fields name v ↔ fields.lookup name = some v := by
  simp only [FirstNamed, List.lookup_eq_some_iff, notMem_names_iff]

theorem lookup_name_eq_none_iff : fields.lookup name = none ↔ name ∉ fields.map Prod.fst := by
  rw [List.lookup_eq_none_iff, notMem_names_iff]

/-! ## Looking up -/

/-- In the sorted map a field is looked up as among the values that were given. -/
theorem field_namedValues (fields : List (String × ScVal)) (name what : String) :
    field (sortEntries (namedValues fields)) name what
      = AuthError.ofOption (.invalidScVal what) (fields.lookup name) := by
  rw [field_sortEntries, field, lookup_namedValues]

theorem field_namedValues_eq_ok_iff {what : String} :
    field (sortEntries (namedValues fields)) name what = .ok v ↔ FirstNamed fields name v := by
  rw [field_namedValues, AuthError.ofOption_eq_ok_iff, firstNamed_iff]

theorem field_namedValues_eq_error_iff {what : String} {cause : AuthError} :
    field (sortEntries (namedValues fields)) name what = .error cause
      ↔ cause = .invalidScVal what ∧ name ∉ fields.map Prod.fst := by
  rw [field_namedValues, ← lookup_name_eq_none_iff]
  cases fields.lookup name with
  | none => exact ⟨fun h => ⟨(Except.error.inj h).symm, rfl⟩, fun h => congrArg _ h.1.symm⟩
  | some w => exact ⟨nofun, fun h => absurd h.2 nofun⟩

/-! ## Building -/

theorem symbolOfName_of_fits (h : (Bytes.ofString name).length ≤ maxSymbolLength) :
    symbolOfName name = .ok (ofName name) := if_pos h

theorem symbolOfName_of_long (h : maxSymbolLength < (Bytes.ofString name).length) :
    symbolOfName name = .error (.xdr .lengthExceedsMax) := if_neg (Nat.not_le_of_lt h)

theorem recordOfNames_of_fits
    (h : ∀ x ∈ fields, (Bytes.ofString x.1).length ≤ maxSymbolLength) :
    recordOfNames fields = .ok (ofRecord fields) := by
  have hpairs : (fields.mapM fun x => do return (← symbolOfName x.1, x.2))
      = (.ok (namedValues fields) : Except AuthError _) := by
    rw [mapM_eq_ok_iff, namedValues, List.forall₂_map_right_iff, List.forall₂_same]
    intro x hx
    rw [symbolOfName_of_fits (h x hx)]
    rfl
  exact except_bind_eq_ok_iff.mpr ⟨_, hpairs, rfl⟩

/-- One name that is too long is enough, and all that is wrong with a name is its length. -/
theorem recordOfNames_of_long
    (h : ∃ x ∈ fields, maxSymbolLength < (Bytes.ofString x.1).length) :
    recordOfNames fields = .error (.xdr .lengthExceedsMax) := by
  obtain ⟨x, hx, hlong⟩ := h
  refine except_bind_eq_error_iff.mpr (.inl ?_)
  cases hpairs : (fields.mapM fun x => do return (← symbolOfName x.1, x.2)
      : Except AuthError (List ScMapEntry)) with
  | ok pairs =>
      obtain ⟨y, hy⟩ := exists_mapM_eq_ok_iff.mp ⟨pairs, hpairs⟩ x hx
      rw [symbolOfName_of_long hlong] at hy
      cases hy
  | error cause =>
      obtain ⟨y, -, hy⟩ := exists_of_mapM_eq_error hpairs
      by_cases hfits : (Bytes.ofString y.1).length ≤ maxSymbolLength
      · rw [symbolOfName_of_fits hfits] at hy
        cases hy
      · rw [symbolOfName_of_long (Nat.lt_of_not_le hfits)] at hy
        cases hy
        rfl

/-- A record of names of at most 32 bytes holds the given pairs, sorted by key, and its fields are
found as they were given first; any longer name is refused. -/
theorem recordOfNames_fields (fields : List (String × ScVal)) :
    ((∀ x ∈ fields, (Bytes.ofString x.1).length ≤ 32) →
      ∃ entries, recordOfNames fields = .ok (.map (some entries))
        ∧ (entries.Pairwise fun a b => (compare a.1 b.1).isLE = true)
        ∧ entries.Perm (fields.map fun x => (ofName x.1, x.2))
        ∧ ∀ name what,
          (∀ v, field entries name what = .ok v ↔ FirstNamed fields name v)
          ∧ ∀ cause, field entries name what = .error cause
            ↔ cause = .invalidScVal what ∧ name ∉ fields.map Prod.fst)
    ∧ ((∃ x ∈ fields, 32 < (Bytes.ofString x.1).length) →
      recordOfNames fields = .error (.xdr .lengthExceedsMax)) := by
  refine ⟨fun hfits => ⟨sortEntries (namedValues fields), recordOfNames_of_fits hfits, ?_, ?_, ?_⟩,
    recordOfNames_of_long⟩
  · exact pairwise_sortEntries _
  · exact sortEntries_perm _
  · intro name what
    exact ⟨fun v => field_namedValues_eq_ok_iff, fun cause => field_namedValues_eq_error_iff⟩

/-- Two values with one name, and names that start one another. -/
def sampleFields : List (String × ScVal) :=
  [("b", .u32 1), ("ba", .u32 2), ("b", .void), ("a", .u32 3), ("ba", .bool true)]

theorem recordOfNames_fields_sample :
    (∀ x ∈ sampleFields, (Bytes.ofString x.1).length ≤ 32)
      ∧ (∃ entries, recordOfNames sampleFields = .ok (.map (some entries))
        ∧ field entries "ba" "record" = .ok (.u32 2)
        ∧ field entries "ab" "record" = .error (.invalidScVal "record"))
      ∧ recordOfNames [("b", .void), ("abcdefghijklmnopqrstuvwxyz0123456", .void)]
        = .error (.xdr .lengthExceedsMax) := by
  have hfits : ∀ x ∈ sampleFields, (Bytes.ofString x.1).length ≤ 32 := by decide +kernel
  obtain ⟨entries, hrecord, -, -, hfield⟩ := (recordOfNames_fields sampleFields).1 hfits
  refine ⟨hfits, ⟨entries, hrecord, ?_, ?_⟩, ?_⟩
  · exact ((hfield "ba" "record").1 _).mpr ⟨[("b", .u32 1)], _, rfl, by decide⟩
  · exact ((hfield "ab" "record").2 _).mpr ⟨rfl, by decide⟩
  · exact (recordOfNames_fields _).2
      ⟨_, List.mem_cons_of_mem _ List.mem_cons_self, by decide +kernel⟩

end SmartWallet.ScVal
