import SmartWallet.Proofs.StableSort
import SmartWallet.ScVal.Shape

set_option autoImplicit false

/-! # Sorted maps

The host keeps maps sorted by key. Two facts make the sort what it is: its result is sorted, and the
pairs with any one key are the same as before, in the same order. A sorted list of pairs is
determined by the pairs that it has with each key (`eq_of_pairsOf_eq`), so two lists are sorted
alike exactly if they have the same pairs with each key, in the same order (`sortEntries_eq_iff`).

That is why the order of steps does not matter. To sort in between changes nothing
(`sortEntries_append_sortEntries`), and pairs with different keys may come in any order
(`sortEntries_append_of_perm`), whatever the map has with these keys already. And a key is found in
the sorted map as it is found before (`lookup_sortEntries`). -/

namespace SmartWallet.ScVal

variable {l m : List ScMapEntry}

/-! ## The order of keys -/

instance : Std.TransOrd ScVal where
  eq_swap := Std.OrientedOrd.eq_swap (α := List Int)
  isLE_trans := Std.TransOrd.isLE_trans (α := List Int)

instance : Std.LawfulEqOrd ScVal where
  compare_self := Std.ReflOrd.compare_self (α := List Int)
  eq_of_compare h := sortKey_inj.mp (Std.LawfulEqOrd.eq_of_compare (α := List Int) h)

/-- Pairs in the order of their keys. -/
def entryLE (a b : ScMapEntry) : Bool := (compare a.1 b.1).isLE

/-! ## Pairs with a key -/

/-- The pairs with a key. -/
def pairsOf (k : ScVal) (l : List ScMapEntry) : List ScMapEntry := l.filter fun e => e.1 = k

theorem mem_pairsOf {k : ScVal} {e : ScMapEntry} : e ∈ pairsOf k l ↔ e ∈ l ∧ e.1 = k := by
  rw [pairsOf, List.mem_filter, decide_eq_true_iff]

theorem pairsOf_append (k : ScVal) (l m : List ScMapEntry) :
    pairsOf k (l ++ m) = pairsOf k l ++ pairsOf k m := List.filter_append l m

theorem pairsOf_pairsOf (k : ScVal) (l : List ScMapEntry) :
    pairsOf k (pairsOf k l) = pairsOf k l := by
  rw [pairsOf, pairsOf, List.filter_filter]
  simp only [Bool.and_self]

/-! ## Sorting -/

theorem stableSort_sortEntries (l : List ScMapEntry) : StableSort Prod.fst l (sortEntries l) :=
  stableSort_mergeSort Prod.fst l

theorem sortEntries_perm (l : List ScMapEntry) : (sortEntries l).Perm l :=
  (stableSort_sortEntries l).perm

theorem pairwise_sortEntries (l : List ScMapEntry) :
    (sortEntries l).Pairwise fun a b => entryLE a b = true := (stableSort_sortEntries l).sorted

/-- A list that is in order stays as it is. -/
theorem sortEntries_of_pairwise (h : l.Pairwise fun a b => entryLE a b = true) :
    sortEntries l = l := List.mergeSort_of_pairwise h

/-- Sorting keeps the pairs with a key, and their order. -/
theorem pairsOf_sortEntries (k : ScVal) (l : List ScMapEntry) :
    pairsOf k (sortEntries l) = pairsOf k l := (stableSort_sortEntries l).stable k

/-- A sorted list is determined by the pairs that it has with each key. -/
theorem eq_of_pairsOf_eq (hl : l.Pairwise fun a b => entryLE a b = true)
    (hm : m.Pairwise fun a b => entryLE a b = true) (h : ∀ k, pairsOf k l = pairsOf k m) :
    l = m := eq_of_filter_eq hl hm h

/-- Two lists are sorted alike if they have the same pairs with each key, in the same order. -/
theorem sortEntries_eq_iff : sortEntries l = sortEntries m ↔ ∀ k, pairsOf k l = pairsOf k m := by
  constructor
  · intro h k
    rw [← pairsOf_sortEntries k l, h, pairsOf_sortEntries]
  · intro h
    refine eq_of_pairsOf_eq (pairwise_sortEntries l) (pairwise_sortEntries m) fun k => ?_
    rw [pairsOf_sortEntries, pairsOf_sortEntries, h]

/-! ## Adding pairs -/

/-- A list may be sorted before more pairs are added, or not. -/
theorem sortEntries_append_sortEntries (l m : List ScMapEntry) :
    sortEntries (sortEntries l ++ m) = sortEntries (l ++ m) := by
  have hbetween := (stableSort_sortEntries l).append (stableSort_sortEntries (sortEntries l ++ m))
  exact hbetween.unique (stableSort_sortEntries (l ++ m))

/-- Of pairs with different keys at most one has a given key, so there is no order among them. -/
theorem pairsOf_eq_of_perm (hkeys : (l.map Prod.fst).Nodup) (h : l.Perm m) (k : ScVal) :
    pairsOf k l = pairsOf k m := by
  have hperm : (pairsOf k l).Perm (pairsOf k m) := h.filter _
  have hnodup : ((pairsOf k l).map Prod.fst).Nodup := hkeys.sublist (List.filter_sublist.map _)
  have hkey : ∀ e ∈ pairsOf k l, e.1 = k := fun e he => (mem_pairsOf.mp he).2
  match hpairs : pairsOf k l with
  | [] =>
      rw [hpairs] at hperm
      exact hperm.nil_eq
  | [e] =>
      rw [hpairs] at hperm
      exact (List.singleton_perm.mp hperm)
  | e :: f :: rest =>
      rw [hpairs] at hkey hnodup
      have hsame : e.1 = f.1 := (hkey e (by simp)).trans (hkey f (by simp)).symm
      exact absurd hsame (List.pairwise_cons.mp hnodup |>.1 f.1 (by simp))

/-- Pairs with different keys may be added in any order. -/
theorem sortEntries_append_of_perm (hkeys : (l.map Prod.fst).Nodup) (h : l.Perm m)
    (entries : List ScMapEntry) : sortEntries (entries ++ l) = sortEntries (entries ++ m) := by
  apply sortEntries_eq_iff.mpr
  intro k
  rw [pairsOf_append, pairsOf_append, pairsOf_eq_of_perm hkeys h]

/-! ## Looking keys up -/

/-- A key is looked up among the pairs that have it. -/
theorem lookup_eq_head?_pairsOf (k : ScVal) (l : List ScMapEntry) :
    l.lookup k = (pairsOf k l).head?.map Prod.snd := by
  induction l with
  | nil => rfl
  | cons e l ih =>
      obtain ⟨k', v⟩ := e
      by_cases hk : k' = k
      · subst hk
        rw [List.lookup_cons, pairsOf, List.filter_cons_of_pos (by simp), beq_self_eq_true]
        rfl
      · rw [List.lookup_cons, pairsOf, List.filter_cons_of_neg (by simpa using hk), ← pairsOf, ← ih]
        have hne : (k == k') = false := beq_eq_false_iff_ne.mpr (Ne.symm hk)
        rw [hne]

/-- A key is found in a sorted map as it is before. -/
theorem lookup_sortEntries (k : ScVal) (l : List ScMapEntry) :
    (sortEntries l).lookup k = l.lookup k := by
  rw [lookup_eq_head?_pairsOf, lookup_eq_head?_pairsOf, pairsOf_sortEntries]

theorem field_sortEntries (l : List ScMapEntry) (name what : String) :
    field (sortEntries l) name what = field l name what := by
  unfold field
  rw [lookup_sortEntries]

end SmartWallet.ScVal
