import Mathlib.Data.List.Forall2
import Mathlib.Data.List.Perm.Basic
import SmartWallet.Proofs.Except

set_option autoImplicit false

/-! # Outcomes of lists

A function that may fail, applied to the items of a list up to the first that fails. It succeeds
when every item does; and if the items that fail all fail alike, the order of the items does not
matter for the failure either (`mapM_perm`).

Where each item is a change that is made in place instead, a failure is an outcome like any other,
which leaves the state as it is (`inPlace`), and the changes are made one after the other to the end
of the list (`mapM_run_cons`). -/

namespace SmartWallet

variable {ε α β : Type} {f : α → Except ε β} {l m : List α}

/-- A list succeeds item by item. -/
theorem mapM_eq_ok_iff {ys : List β} :
    l.mapM f = .ok ys ↔ List.Forall₂ (fun x y => f x = .ok y) l ys := by
  induction l generalizing ys with
  | nil =>
      rw [List.mapM_nil, List.forall₂_nil_left_iff]
      exact ⟨fun h => (Except.ok.inj h).symm, fun h => h ▸ rfl⟩
  | cons x l ih =>
      rw [List.mapM_cons, except_bind_eq_ok_iff]
      constructor
      · rintro ⟨y, hy, h⟩
        obtain ⟨ys, hys, h⟩ := except_bind_eq_ok_iff.mp h
        cases h
        exact .cons hy (ih.mp hys)
      · rintro (_ | ⟨hy, hys⟩)
        exact ⟨_, hy, except_bind_eq_ok_iff.mpr ⟨_, ih.mpr hys, rfl⟩⟩

/-- A list fails as one of its items does. -/
theorem exists_of_mapM_eq_error {d : ε} (h : l.mapM f = .error d) : ∃ x ∈ l, f x = .error d := by
  induction l with
  | nil => cases h
  | cons x l ih =>
      rw [List.mapM_cons] at h
      rcases except_bind_eq_error_iff.mp h with hx | ⟨y, -, h⟩
      · exact ⟨x, List.mem_cons_self, hx⟩
      · rcases except_bind_eq_error_iff.mp h with hl | ⟨ys, -, h⟩
        · obtain ⟨z, hz, hd⟩ := ih hl
          exact ⟨z, List.mem_cons_of_mem x hz, hd⟩
        · cases h

theorem length_of_mapM_eq_ok {ys : List β} (h : l.mapM f = .ok ys) : ys.length = l.length :=
  (mapM_eq_ok_iff.mp h).length_eq.symm

/-- A list succeeds exactly if each of its items does. -/
theorem exists_mapM_eq_ok_iff : (∃ ys, l.mapM f = .ok ys) ↔ ∀ x ∈ l, ∃ y, f x = .ok y := by
  constructor
  · rintro ⟨ys, h⟩ x hx
    have hall := mapM_eq_ok_iff.mp h
    clear h
    induction hall with
    | nil => cases hx
    | cons hy _ ih =>
        rcases List.mem_cons.mp hx with rfl | hx
        · exact ⟨_, hy⟩
        · exact ih hx
  · intro h
    cases hl : l.mapM f with
    | ok ys => exact ⟨ys, rfl⟩
    | error d =>
        obtain ⟨x, hx, hd⟩ := exists_of_mapM_eq_error hl
        obtain ⟨y, hy⟩ := h x hx
        rw [hy] at hd
        cases hd

/-- If the items of a list that fail all fail alike, then in any other order the list fails in the
same way, or succeeds with the same results in another order. -/
theorem mapM_perm (h : l.Perm m)
    (halike : ∀ x ∈ l, ∀ y ∈ l, ∀ d d', f x = .error d → f y = .error d' → d = d') :
    (∃ d, l.mapM f = .error d ∧ m.mapM f = .error d)
      ∨ ∃ xs ys, l.mapM f = .ok xs ∧ m.mapM f = .ok ys ∧ xs.Perm ys := by
  cases hm : m.mapM f with
  | ok ys =>
      obtain ⟨xs, hxs, hperm⟩ := List.perm_comp_forall₂ h (mapM_eq_ok_iff.mp hm)
      exact .inr ⟨xs, ys, mapM_eq_ok_iff.mpr hxs, rfl, hperm⟩
  | error d =>
      obtain ⟨y, hy, hd⟩ := exists_of_mapM_eq_error hm
      cases hl : l.mapM f with
      | ok xs =>
          -- the item that fails is among those that succeed
          obtain ⟨_, hys, -⟩ := List.perm_comp_forall₂ h.symm (mapM_eq_ok_iff.mp hl)
          rw [mapM_eq_ok_iff.mpr hys] at hm
          cases hm
      | error d' =>
          obtain ⟨x, hx, hd'⟩ := exists_of_mapM_eq_error hl
          obtain rfl := halike x hx y (h.mem_iff.mpr hy) d' d hd' hd
          exact .inl ⟨d', rfl, rfl⟩

/-! ## Changes in place -/

/-- Makes a change to the state, or leaves the state as it is if the change fails. -/
def inPlace {σ : Type} (change : σ → Except ε σ) : StateM σ (Except ε Unit) := fun s =>
  match change s with
  | .ok s' => (.ok (), s')
  | .error cause => (.error cause, s)

theorem inPlace_run_of_ok {σ : Type} {change : σ → Except ε σ} {s s' : σ}
    (h : change s = .ok s') : (inPlace change).run s = (.ok (), s') := by
  show (match change s with
    | .ok s' => (Except.ok (), s')
    | .error cause => (.error cause, s)) = _
  rw [h]

theorem inPlace_run_of_error {σ : Type} {change : σ → Except ε σ} {s : σ} {cause : ε}
    (h : change s = .error cause) : (inPlace change).run s = (.error cause, s) := by
  show (match change s with
    | .ok s' => (Except.ok (), s')
    | .error cause => (.error cause, s)) = _
  rw [h]

/-- After the first call the rest is made from the state that it leaves. -/
theorem mapM_run_cons {σ : Type} {call : α → StateM σ β} {x : α} {s s' : σ} {outcome : β}
    (h : (call x).run s = (outcome, s')) (l : List α) :
    ((x :: l).mapM call).run s
      = (outcome :: ((l.mapM call).run s').1, ((l.mapM call).run s').2) := by
  rw [List.mapM_cons, StateT.run_bind, h]
  rfl

end SmartWallet
