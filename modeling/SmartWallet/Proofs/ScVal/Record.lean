import SmartWallet.Proofs.Bytes.Text
import SmartWallet.Proofs.ScVal.Sort

set_option autoImplicit false

/-! # Records and variants

A record keeps its fields in the order of their names, and not as they were given. Nothing is lost
by that: in a record with different names every name comes once, so its keys are strictly
increasing (`pairwise_lt_sortEntries`), and records that give the same names are equal only if
every field is (`ofRecord_inj`). A map whose keys are strictly increasing is found again from its
pairs in any order (`sortEntries_of_perm`). Likewise variants are equal only if their names and
their fields are (`ofVariant_inj`). -/

namespace SmartWallet

namespace ScVal

variable {l m : List ScMapEntry}

theorem ofName_inj {a b : String} : ofName a = ofName b ↔ a = b := by
  rw [ofName, ofName, symbol.injEq, Bytes.ofString_inj]

/-! ## Variants -/

/-- A variant tells its name and its fields. -/
theorem ofVariant_inj {a b : String} {fields fields' : List ScVal} :
    ofVariant a fields = ofVariant b fields' ↔ a = b ∧ fields = fields' := by
  rw [ofVariant, ofVariant, ofList, ofList, vec.injEq, Option.some_inj, List.cons.injEq, ofName_inj]

/-! ## Records -/

/-- If every key comes once, the keys of the sorted map are strictly increasing. -/
theorem pairwise_lt_sortEntries (hkeys : (l.map Prod.fst).Nodup) :
    (sortEntries l).Pairwise fun a b => compare a.1 b.1 = .lt := by
  have hnodup : ((sortEntries l).map Prod.fst).Nodup :=
    ((sortEntries_perm l).map Prod.fst).nodup_iff.mpr hkeys
  have hne : (sortEntries l).Pairwise fun a b => a.1 ≠ b.1 := List.pairwise_map.mp hnodup
  refine ((pairwise_sortEntries l).and hne).imp fun {a b} h => ?_
  obtain ⟨hle, hne⟩ := h
  cases hcompare : compare a.1 b.1 with
  | lt => rfl
  | eq => exact absurd (Std.LawfulEqOrd.eq_of_compare hcompare) hne
  | gt =>
      rw [entryLE, hcompare] at hle
      cases hle

theorem nodup_keys_of_pairwise_lt (h : l.Pairwise fun a b => compare a.1 b.1 = .lt) :
    (l.map Prod.fst).Nodup := by
  refine List.pairwise_map.mpr (h.imp fun {a b} hlt heq => ?_)
  rw [heq, Std.ReflOrd.compare_self] at hlt
  cases hlt

theorem sortEntries_of_pairwise_lt (h : l.Pairwise fun a b => compare a.1 b.1 = .lt) :
    sortEntries l = l := by
  refine sortEntries_of_pairwise (h.imp fun {a b} hlt => ?_)
  rw [entryLE, hlt]
  rfl

/-- Whatever order the pairs of a map come in, sorting finds the order of the map again. -/
theorem sortEntries_of_perm (h : l.Perm m) (hm : m.Pairwise fun a b => compare a.1 b.1 = .lt) :
    sortEntries l = m := by
  have hkeys := (h.map Prod.fst).nodup_iff.mpr (nodup_keys_of_pairwise_lt hm)
  calc sortEntries l = sortEntries m := sortEntries_append_of_perm hkeys h []
    _ = m := sortEntries_of_pairwise_lt hm

theorem pairsOf_cons_self (k v : ScVal) (l : List ScMapEntry) :
    pairsOf k ((k, v) :: l) = (k, v) :: pairsOf k l :=
  List.filter_cons_of_pos (decide_eq_true rfl)

theorem pairsOf_cons_of_ne {k k' : ScVal} (h : k' ≠ k) (v : ScVal) (l : List ScMapEntry) :
    pairsOf k ((k', v) :: l) = pairsOf k l :=
  List.filter_cons_of_neg (by simpa using h)

/-- Lists with the same keys in the same order that are sorted alike are the same. -/
theorem eq_of_sortEntries_eq (hkeys : l.map Prod.fst = m.map Prod.fst)
    (h : sortEntries l = sortEntries m) : l = m := by
  -- what is used of the sort is that it keeps the pairs with each key
  have hpairs : ∀ k, pairsOf k l = pairsOf k m := sortEntries_eq_iff.mp h
  clear h
  induction l generalizing m with
  | nil => exact (List.map_eq_nil_iff.mp hkeys.symm).symm
  | cons e l ih =>
      cases m with
      | nil => cases hkeys
      | cons f m =>
          obtain ⟨k, v⟩ := e
          obtain ⟨k', w⟩ := f
          obtain ⟨hk, hrest⟩ := List.cons.inj hkeys
          obtain rfl : k = k' := hk
          have hfirst := hpairs k
          rw [pairsOf_cons_self, pairsOf_cons_self] at hfirst
          obtain ⟨hvalue, htail⟩ := List.cons.inj hfirst
          rw [hvalue, ih hrest]
          intro k'
          by_cases hk : k = k'
          · rw [← hk]
            exact htail
          · have hother := hpairs k'
            rwa [pairsOf_cons_of_ne hk, pairsOf_cons_of_ne hk] at hother

theorem map_fst_namedFields (fields : List (String × ScVal)) :
    (fields.map fun x => (ofName x.1, x.2)).map Prod.fst = (fields.map Prod.fst).map ofName := by
  rw [List.map_map, List.map_map]
  rfl

/-- Records that give the same names in the same order tell all of their fields. -/
theorem ofRecord_inj {fields fields' : List (String × ScVal)}
    (hnames : fields.map Prod.fst = fields'.map Prod.fst) :
    ofRecord fields = ofRecord fields' ↔ fields = fields' := by
  have hinjective : ∀ x y : String × ScVal, (ofName x.1, x.2) = (ofName y.1, y.2) → x = y := by
    intro x y h
    obtain ⟨hname, hvalue⟩ := Prod.mk.inj h
    exact Prod.ext (ofName_inj.mp hname) hvalue
  constructor
  · intro h
    have hsorted := Option.some_inj.mp (map.inj h)
    have hkeys : (fields.map fun x => (ofName x.1, x.2)).map Prod.fst
        = (fields'.map fun x => (ofName x.1, x.2)).map Prod.fst := by
      rw [map_fst_namedFields, map_fst_namedFields, hnames]
    exact (List.map_inj_right hinjective).mp (eq_of_sortEntries_eq hkeys hsorted)
  · rintro rfl
    rfl

/-- The keys of a record with different names are strictly increasing. -/
theorem ofRecord_increasing {fields : List (String × ScVal)}
    (hnames : (fields.map Prod.fst).Nodup) :
    ∃ entries, ofRecord fields = .map (some entries)
      ∧ entries.Pairwise fun a b => compare a.1 b.1 = .lt := by
  refine ⟨_, rfl, pairwise_lt_sortEntries ?_⟩
  have hkeys : ((fields.map Prod.fst).map ofName).Nodup :=
    List.pairwise_map.mpr (hnames.imp fun hne h => hne (ofName_inj.mp h))
  rwa [← map_fst_namedFields] at hkeys

end ScVal

end SmartWallet
