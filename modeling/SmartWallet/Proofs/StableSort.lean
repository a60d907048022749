set_option autoImplicit false

/-! # Stable sorting

`StableSort key l s` says that `s` is `l` sorted by a key: it has the same elements in the order of
their keys, and those with one key in the order that they have in `l`. Merge sort does this
(`stableSort_mergeSort`), and there is only one such list (`StableSort.unique`): two lists in the
order of their keys are the same if they agree on the elements with each key (`eq_of_filter_eq`). -/

namespace SmartWallet

variable {α κ : Type} [Ord κ] [DecidableEq κ] {key : α → κ} {l m s t : List α}

/-- One list is the other one sorted by a key, where elements with the same key keep their order. -/
structure StableSort (key : α → κ) (l s : List α) : Prop where
  perm : s.Perm l
  sorted : s.Pairwise fun a b => (compare (key a) (key b)).isLE = true
  /-- Elements with one key are in the order in which they were. -/
  stable : ∀ k, (s.filter fun a => key a = k) = l.filter fun a => key a = k

variable [Std.TransOrd κ] [Std.LawfulEqOrd κ]

omit [DecidableEq κ] in
/-- If neither of two elements has the larger key, they have the same key. -/
theorem key_eq_of_isLE {a b : α} (hab : (compare (key a) (key b)).isLE = true)
    (hba : (compare (key b) (key a)).isLE = true) : key a = key b :=
  Std.LawfulEqOrd.eq_of_compare (Std.OrientedCmp.isLE_antisymm hab hba)

omit [Ord κ] [Std.TransOrd κ] [Std.LawfulEqOrd κ] in
theorem mem_of_filter_eq (h : ∀ k, (l.filter fun a => key a = k) = m.filter fun a => key a = k)
    {x : α} (hx : x ∈ l) : x ∈ m := by
  have hmem : x ∈ l.filter fun a => key a = key x := List.mem_filter.mpr ⟨hx, decide_eq_true rfl⟩
  rw [h] at hmem
  exact (List.mem_filter.mp hmem).1

/-- A list in the order of its keys is determined by its elements with each key. -/
theorem eq_of_filter_eq (hl : l.Pairwise fun a b => (compare (key a) (key b)).isLE = true)
    (hm : m.Pairwise fun a b => (compare (key a) (key b)).isLE = true)
    (h : ∀ k, (l.filter fun a => key a = k) = m.filter fun a => key a = k) : l = m := by
  induction l generalizing m with
  | nil =>
      cases m with
      | nil => rfl
      | cons y m => cases mem_of_filter_eq (fun k => (h k).symm) (List.mem_cons_self (a := y))
  | cons x l ih =>
      have hx : x ∈ m := mem_of_filter_eq h List.mem_cons_self
      cases m with
      | nil => cases hx
      | cons y m =>
          have hy : y ∈ x :: l := mem_of_filter_eq (fun k => (h k).symm) List.mem_cons_self
          -- each of the first elements stands in the other list, so none has the larger key
          have hkey : key x = key y := by
            rcases List.mem_cons.mp hx with rfl | hx
            · rfl
            rcases List.mem_cons.mp hy with rfl | hy
            · rfl
            exact key_eq_of_isLE (List.rel_of_pairwise_cons hl hy) (List.rel_of_pairwise_cons hm hx)
          have hfirst := h (key x)
          rw [List.filter_cons_of_pos (by simp), List.filter_cons_of_pos (by simp [hkey])] at hfirst
          obtain ⟨rfl, htail⟩ := List.cons.inj hfirst
          refine congrArg (x :: ·) (ih hl.of_cons hm.of_cons fun k => ?_)
          by_cases hk : key x = k
          · rw [← hk]
            exact htail
          · have hrest := h k
            rwa [List.filter_cons_of_neg (by simpa using hk),
              List.filter_cons_of_neg (by simpa using hk)] at hrest

/-- There is one way to sort a list. -/
theorem StableSort.unique (hs : StableSort key l s) (ht : StableSort key l t) : s = t :=
  eq_of_filter_eq hs.sorted ht.sorted fun k => (hs.stable k).trans (ht.stable k).symm

omit [Std.TransOrd κ] [Std.LawfulEqOrd κ] in
/-- A list may be sorted before more is added to it and the whole is sorted. -/
theorem StableSort.append (hs : StableSort key l s) (ht : StableSort key (s ++ m) t) :
    StableSort key (l ++ m) t where
  perm := ht.perm.trans (hs.perm.append_right m)
  sorted := ht.sorted
  stable k := by rw [ht.stable, List.filter_append, List.filter_append, hs.stable]

/-- Merge sort is stable. -/
theorem stableSort_mergeSort (key : α → κ) (l : List α) :
    StableSort key l (l.mergeSort fun a b => (compare (key a) (key b)).isLE) := by
  have htrans : ∀ a b c : α, (compare (key a) (key b)).isLE = true →
      (compare (key b) (key c)).isLE = true → (compare (key a) (key c)).isLE = true :=
    fun _ _ _ hab hbc => Std.TransOrd.isLE_trans hab hbc
  have htotal : ∀ a b : α,
      ((compare (key a) (key b)).isLE || (compare (key b) (key a)).isLE) = true := by
    intro a b
    rw [Std.OrientedOrd.eq_swap (a := key b)]
    cases compare (key a) (key b) <;> rfl
  have hperm := List.mergeSort_perm l fun a b => (compare (key a) (key b)).isLE
  refine ⟨hperm, List.pairwise_mergeSort htrans htotal l, fun k => ?_⟩
  -- elements with one key are in order, so they stand in the sorted list one after the other
  have hordered : (l.filter fun a => key a = k).Pairwise
      fun a b => (compare (key a) (key b)).isLE = true := by
    apply List.pairwise_filter.mpr
    apply List.pairwise_of_forall
    intro a b ha hb
    rw [decide_eq_true_iff] at ha hb
    rw [ha, hb, Std.ReflOrd.compare_self]
    rfl
  have hsublist := List.sublist_mergeSort htrans htotal hordered List.filter_sublist
  have hfiltered := hsublist.filter fun a => key a = k
  rw [List.filter_filter] at hfiltered
  simp only [Bool.and_self] at hfiltered
  -- and there are no others, since sorting makes no elements
  exact (hfiltered.eq_of_length (hperm.filter _).length_eq.symm).symm

end SmartWallet
