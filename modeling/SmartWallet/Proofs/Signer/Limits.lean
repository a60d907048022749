import SmartWallet.Proofs.Except.Traversal
import SmartWallet.Proofs.ScVal.Record
import SmartWallet.Proofs.Signer.Forms
import SmartWallet.Proofs.Text.Strkey
import SmartWallet.Signer.Limits

set_option autoImplicit false

/-! # Reading limits back

Limits are kept in the order of the texts of their contexts and encoded in the order of the
addresses, and the two orders differ. Still nothing is lost: a pair of the map and an entry of the
limits tell each other (`entryOfScVal_eq_ok_iff`), and in each of the two orders a list with
different keys is determined by the pairs that it has (`ofList_eq_of_perm` for the texts). So limits
are read back from their encoding, without the context that stands for any contract, since that has
no address; and a map whose keys increase is what the limits read from it are encoded as. -/

namespace SmartWallet

/-- A list of keys is read from the list of their encodings. -/
theorem SignerKey.mapM_ofScVal_eq_ok_iff {items : List ScVal} {keys : List SignerKey} :
    items.mapM ofScVal = .ok keys ↔ keys.map toScVal = items := by
  rw [mapM_eq_ok_iff, ← List.forall₂_eq_eq_eq, List.forall₂_map_left_iff]
  simp only [ofScVal_eq_ok_iff]
  exact ⟨.flip, .flip⟩

namespace SignerLimits

variable {l : SignerLimits} {entries xs : List (String × CoSigners)} {x : String × CoSigners}
  {context : String} {keys : CoSigners} {v : ScVal} {e : ScMapEntry}

/-! ## Limits of a list -/

theorem ext_entries {l m : SignerLimits} (h : l.entries = m.entries) : l = m := by
  cases l
  cases m
  cases h
  rfl

/-- No context comes twice. -/
theorem nodup_contexts (l : SignerLimits) : (l.entries.map Prod.fst).Nodup := by
  refine List.pairwise_map.mpr (l.increasing.imp fun {a b} hlt heq => ?_)
  rw [heq] at hlt
  exact String.lt_irrefl _ hlt

theorem insertEntry_perm (h : context ∉ entries.map Prod.fst) :
    (insertEntry context keys entries).Perm ((context, keys) :: entries) := by
  induction entries with
  | nil => exact .refl _
  | cons first rest ih =>
      obtain ⟨c, k⟩ := first
      obtain ⟨hne, hrest⟩ := not_or.mp (mt List.mem_cons.mpr h)
      unfold insertEntry
      by_cases hlt : context < c
      · rw [if_pos hlt]
      · rw [if_neg hlt, if_neg hne]
        exact ((ih hrest).cons _).trans (.swap _ _ _)

theorem foldl_insert_perm (h : ((l.entries ++ xs).map Prod.fst).Nodup) :
    (xs.foldl (fun l (context, keys) => l.insert context keys) l).entries.Perm
      (l.entries ++ xs) := by
  induction xs generalizing l with
  | nil => simp
  | cons x xs ih =>
      obtain ⟨context, keys⟩ := x
      -- the context is new, so its entry is added to those that there are
      have hmiddle : (l.entries ++ (context, keys) :: xs).Perm
          ((context, keys) :: (l.entries ++ xs)) := List.perm_middle
      have hnodup := (hmiddle.map Prod.fst).nodup_iff.mp h
      obtain ⟨hnew, -⟩ := List.nodup_cons.mp hnodup
      rw [List.map_append, List.mem_append, not_or] at hnew
      have hinsert : (l.insert context keys).entries.Perm ((context, keys) :: l.entries) :=
        insertEntry_perm hnew.1
      have happend := hinsert.append_right xs
      refine (ih ((happend.map Prod.fst).nodup_iff.mpr hnodup)).trans ?_
      exact happend.trans hmiddle.symm

/-- The limits of a list with different contexts have its entries. -/
theorem ofList_perm (h : (xs.map Prod.fst).Nodup) : (ofList xs).entries.Perm xs :=
  foldl_insert_perm (l := empty) h

/-- Limits are determined by the entries that they have. -/
theorem ofList_eq_of_perm (h : xs.Perm l.entries) : ofList xs = l := by
  have hnodup : (xs.map Prod.fst).Nodup := (h.map Prod.fst).nodup_iff.mpr l.nodup_contexts
  refine ext_entries (((ofList_perm hnodup).trans h).eq_of_pairwise ?_ (ofList xs).increasing
    l.increasing)
  intro a b _ _ hab hba
  exact absurd hba (String.lt_asymm hab)

/-! ## Entries -/

theorem coSignersOfScVal_eq_ok_iff : coSignersOfScVal v = .ok keys ↔ coSignersToScVal keys = v := by
  unfold coSignersOfScVal
  by_cases hvoid : v = .void
  · rw [if_pos hvoid, hvoid]
    cases keys with
    | none => exact ⟨fun _ => rfl, fun _ => rfl⟩
    | some signers => exact ⟨nofun, nofun⟩
  rw [if_neg hvoid]
  constructor
  · intro h
    obtain ⟨items, hitems, h⟩ := except_bind_eq_ok_iff.mp h
    obtain ⟨signers, hsigners, h⟩ := except_bind_eq_ok_iff.mp h
    cases h
    rw [ScVal.asVec_eq_ok_iff.mp hitems, coSignersToScVal,
      SignerKey.mapM_ofScVal_eq_ok_iff.mp hsigners]
  · rintro rfl
    cases keys with
    | none => exact absurd rfl hvoid
    | some signers =>
        refine except_bind_eq_ok_iff.mpr ⟨_, ScVal.asVec_eq_ok_iff.mpr rfl, ?_⟩
        exact except_bind_eq_ok_iff.mpr ⟨_, SignerKey.mapM_ofScVal_eq_ok_iff.mpr rfl, rfl⟩

theorem entryToScVal_eq_ok_iff : entryToScVal x = .ok e ↔
    ∃ c : ContractAddress, c.text = x.1 ∧ e = (.address (.contract c), coSignersToScVal x.2) := by
  constructor
  · intro h
    obtain ⟨c, hc, h⟩ := except_bind_eq_ok_iff.mp h
    cases h
    exact ⟨c, ContractAddress.ofText?_eq_some_iff.mp (AuthError.ofOption_eq_ok_iff.mp hc), rfl⟩
  · rintro ⟨c, hc, rfl⟩
    have htext := ContractAddress.ofText?_eq_some_iff.mpr hc
    exact except_bind_eq_ok_iff.mpr ⟨c, AuthError.ofOption_eq_ok_iff.mpr htext, rfl⟩

/-- A pair of the map is read as the entry that is encoded as it. -/
theorem entryOfScVal_eq_ok_iff : entryOfScVal e = .ok x ↔ entryToScVal x = .ok e := by
  rw [entryToScVal_eq_ok_iff]
  constructor
  · intro h
    obtain ⟨c, hc, h⟩ := except_bind_eq_ok_iff.mp h
    obtain ⟨keys, hkeys, h⟩ := except_bind_eq_ok_iff.mp h
    cases h
    exact ⟨c, rfl, Prod.ext (ScVal.asContract_eq_ok_iff.mp hc)
      (coSignersOfScVal_eq_ok_iff.mp hkeys).symm⟩
  · rintro ⟨c, hc, rfl⟩
    refine except_bind_eq_ok_iff.mpr ⟨c, ScVal.asContract_eq_ok_iff.mpr rfl, ?_⟩
    refine except_bind_eq_ok_iff.mpr ⟨x.2, coSignersOfScVal_eq_ok_iff.mpr rfl, ?_⟩
    rw [hc]
    rfl

/-- A key of the map stands for a context. -/
def StandsFor (k : ScVal) (context : String) : Prop :=
  ∃ c : ContractAddress, k = .address (.contract c) ∧ c.text = context

/-- Keys and contexts determine each other. -/
theorem biUnique_standsFor : Relator.BiUnique StandsFor := by
  constructor
  · rintro _ _ _ ⟨c, rfl, rfl⟩ ⟨d, rfl, hd⟩
    rw [ContractAddress.text_inj.mp hd]
  · rintro _ _ _ ⟨c, rfl, rfl⟩ ⟨d, hd, rfl⟩
    cases hd
    rfl

theorem standsFor_of_entryToScVal (h : entryToScVal x = .ok e) : StandsFor e.1 x.1 := by
  obtain ⟨c, hc, rfl⟩ := entryToScVal_eq_ok_iff.mp h
  exact ⟨c, rfl, hc⟩

theorem context_ne_empty (h : entryToScVal x = .ok e) : x.1 ≠ "" := by
  obtain ⟨c, hc, -⟩ := entryToScVal_eq_ok_iff.mp h
  rw [← hc]
  exact c.text_ne_empty

/-! ## Maps -/

/-- The limits without what they ask for in any contract. -/
def withoutAny (l : SignerLimits) : SignerLimits :=
  ⟨l.entries.filter fun e => e.1 ≠ "", l.increasing.filter _⟩

/-- A value is a map whose keys are strictly increasing. -/
def KeysIncrease (v : ScVal) : Prop :=
  ∃ pairs, v = .ofList [.map (some pairs)] ∧ pairs.Pairwise fun a b => compare a.1 b.1 = .lt

theorem toScVal_eq_ok_iff : l.toScVal = .ok v ↔
    ∃ pairs, l.withoutAny.entries.mapM entryToScVal = .ok pairs
      ∧ .ofList [.map (some (ScVal.sortEntries pairs))] = v := by
  constructor
  · intro h
    obtain ⟨pairs, hpairs, h⟩ := except_bind_eq_ok_iff.mp h
    exact ⟨pairs, hpairs, Except.ok.inj h⟩
  · rintro ⟨pairs, hpairs, rfl⟩
    exact except_bind_eq_ok_iff.mpr ⟨pairs, hpairs, rfl⟩

theorem ofScVal_eq_ok_iff : ofScVal v = .ok l ↔
    ∃ pairs xs, v = .ofList [.map (some pairs)] ∧ pairs.mapM entryOfScVal = .ok xs
      ∧ ofList xs = l := by
  constructor
  · intro hread
    obtain ⟨items, hitems, h⟩ := except_bind_eq_ok_iff.mp hread
    obtain rfl := ScVal.asVec_eq_ok_iff.mp hitems
    rcases items with _ | ⟨limits, _ | ⟨second, rest⟩⟩
    · cases h
    · obtain ⟨pairs, hpairs, h⟩ := except_bind_eq_ok_iff.mp h
      obtain ⟨xs, hxs, h⟩ := except_bind_eq_ok_iff.mp h
      rw [ScVal.asMap_eq_ok_iff.mp hpairs]
      exact ⟨pairs, xs, rfl, hxs, Except.ok.inj h⟩
    · cases h
  · rintro ⟨pairs, xs, rfl, hxs, rfl⟩
    refine except_bind_eq_ok_iff.mpr ⟨_, ScVal.asVec_eq_ok_iff.mpr rfl, ?_⟩
    refine except_bind_eq_ok_iff.mpr ⟨pairs, ScVal.asMap_eq_ok_iff.mpr rfl, ?_⟩
    exact except_bind_eq_ok_iff.mpr ⟨xs, hxs, rfl⟩

/-- The pairs of a map, read one by one, are the entries that are encoded as them. -/
theorem mapM_entryOfScVal_eq_ok_iff {pairs : List ScMapEntry} :
    pairs.mapM entryOfScVal = .ok xs ↔ xs.mapM entryToScVal = .ok pairs := by
  rw [mapM_eq_ok_iff, mapM_eq_ok_iff]
  simp only [entryOfScVal_eq_ok_iff]
  exact ⟨.flip, .flip⟩

/-- A map has different keys exactly if the entries have different contexts. -/
theorem nodup_keys_iff {pairs : List ScMapEntry} (h : xs.mapM entryToScVal = .ok pairs) :
    (pairs.map Prod.fst).Nodup ↔ (xs.map Prod.fst).Nodup := by
  have hall : List.Forall₂ (fun e x => StandsFor e.1 x.1) pairs xs :=
    ((mapM_eq_ok_iff.mp h).imp fun _ _ => standsFor_of_entryToScVal).flip
  exact List.rel_nodup biUnique_standsFor
    (List.forall₂_map_left_iff.mpr (List.forall₂_map_right_iff.mpr hall))

/-- Limits are read back without the context that stands for any. -/
theorem ofScVal_of_toScVal (h : l.toScVal = .ok v) : ofScVal v = .ok l.withoutAny := by
  obtain ⟨pairs, hpairs, rfl⟩ := toScVal_eq_ok_iff.mp h
  -- the entries come back in the order of the addresses, in which they need not be kept
  have hread := mapM_eq_ok_iff.mp (mapM_entryOfScVal_eq_ok_iff.mpr hpairs)
  obtain ⟨xs, hxs, hperm⟩ := List.perm_comp_forall₂ (ScVal.sortEntries_perm pairs) hread
  exact ofScVal_eq_ok_iff.mpr ⟨_, xs, rfl, mapM_eq_ok_iff.mpr hxs, ofList_eq_of_perm hperm⟩

theorem keysIncrease_of_toScVal (h : l.toScVal = .ok v) : KeysIncrease v := by
  obtain ⟨pairs, hpairs, rfl⟩ := toScVal_eq_ok_iff.mp h
  have hnodup := (nodup_keys_iff hpairs).mpr l.withoutAny.nodup_contexts
  exact ⟨_, rfl, ScVal.pairwise_lt_sortEntries hnodup⟩

/-- Limits read from a map whose keys increase are encoded as that map. -/
theorem toScVal_of_ofScVal (h : ofScVal v = .ok l) (hv : KeysIncrease v) : l.toScVal = .ok v := by
  obtain ⟨pairs, xs, rfl, hxs, rfl⟩ := ofScVal_eq_ok_iff.mp h
  obtain ⟨pairs', heq, hincreasing⟩ := hv
  obtain rfl : pairs = pairs' := by simpa [ScVal.ofList] using heq
  have hwrite := mapM_entryOfScVal_eq_ok_iff.mp hxs
  have hkeys := ScVal.nodup_keys_of_pairwise_lt hincreasing
  have hperm := ofList_perm ((nodup_keys_iff hwrite).mp hkeys)
  -- every context is that of a contract, so none is left out
  have hcontexts : ∀ x ∈ (ofList xs).entries, x.1 ≠ "" := by
    intro x hx
    obtain ⟨e, he⟩ := exists_mapM_eq_ok_iff.mp ⟨pairs, hwrite⟩ x (hperm.mem_iff.mp hx)
    exact context_ne_empty he
  have hall : (ofList xs).withoutAny.entries = (ofList xs).entries :=
    List.filter_eq_self.mpr fun x hx => decide_eq_true (hcontexts x hx)
  obtain ⟨pairs₀, hpairs₀, hperm₀⟩ := List.perm_comp_forall₂ hperm (mapM_eq_ok_iff.mp hwrite)
  refine toScVal_eq_ok_iff.mpr ⟨pairs₀, ?_, ?_⟩
  · rw [hall]
    exact mapM_eq_ok_iff.mpr hpairs₀
  · rw [ScVal.sortEntries_of_perm hperm₀ hincreasing]

/-- Limits and their encodings tell each other: what is encoded is read back, but for the context
that stands for any contract, and its map has strictly increasing keys; and limits read from such a
map are encoded as that map. -/
theorem toScVal_lossless :
    (∀ (l : SignerLimits) (v : ScVal), l.toScVal = .ok v →
      ofScVal v = .ok l.withoutAny ∧ KeysIncrease v)
      ∧ ∀ (v : ScVal) (l : SignerLimits), ofScVal v = .ok l → KeysIncrease v → l.toScVal = .ok v :=
  ⟨fun _ _ h => ⟨ofScVal_of_toScVal h, keysIncrease_of_toScVal h⟩,
    fun _ _ h hv => toScVal_of_ofScVal h hv⟩

/-- Two contexts whose texts and addresses are in opposite orders, and one that stands for any. -/
theorem toScVal_lossless_reordered :
    let first := Sample.contractOf 0x00
    let second := Sample.contractOf 0x34
    let l := ofList [("", some []), (first.text, some []), (second.text, none)]
    let v := .ofList [.map (some
      [(.address (.contract first), .ofList []), (.address (.contract second), .void)])]
    second.text < first.text ∧ l.toScVal = .ok v ∧ ofScVal v = .ok l.withoutAny
      ∧ l.withoutAny.toScVal = .ok v := by
  intro first second l v
  have hpairs : l.withoutAny.entries.mapM entryToScVal
      = .ok [(.address (.contract second), .void), (.address (.contract first), .ofList [])] :=
    toOption_eq_some_iff.mp (by decide +kernel)
  have hsort := ScVal.sortEntries_of_perm (.swap (.address (.contract first), .ofList [])
    (.address (.contract second), .void) []) (by decide)
  have hwrite : l.toScVal = .ok v := toScVal_eq_ok_iff.mpr ⟨_, hpairs, by rw [hsort]⟩
  obtain ⟨hread, hkeys⟩ := toScVal_lossless.1 l v hwrite
  exact ⟨by decide +kernel, hwrite, hread, toScVal_lossless.2 v _ hread hkeys⟩

end SignerLimits

end SmartWallet
