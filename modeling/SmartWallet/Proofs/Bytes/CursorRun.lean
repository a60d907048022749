import SmartWallet.Bytes.WordCursor
import SmartWallet.Proofs.Bytes.Cursor
import SmartWallet.Proofs.Except.Traversal

set_option autoImplicit false

/-! # Runs of a reader

A step of a reader has a range, which starts at the position or where the step says.
`Cursor.Steps` has one rule for a range that fits in the byte string and one for a range that does
not: then the step fails, reports the range, and leaves the position as it is. These are all the
steps there are (`Cursor.step_eq_iff`).

Reads that follow each other therefore take adjacent parts of the byte string: what they
answer, with what remains after them, is what remained before (`Cursor.spelled_run`). A read
that fails in between takes nothing. -/

namespace SmartWallet

/-! ## Ranges -/

namespace ReadStep

/-- Where the range of a step starts. -/
def origin (position : Nat) : ReadStep → Nat
  | seek offset => offset.toNat
  | peekAt offset _ => offset.toNat
  | _ => position

/-- How long the range of a step is. -/
def length : ReadStep → Nat
  | seek _ => 0
  | skip len => len.toNat
  | read len => len.toNat
  | peekAt _ len => len.toNat
  | readFixed n => n.toNat
  | readU8 => 1
  | readU16 => 2
  | readU32 => 4

/-- The position after a step that does not fail. -/
def target (position : Nat) : ReadStep → Nat
  | seek offset => offset.toNat
  | peekAt _ _ => position
  | s => position + s.length

/-- What a step makes of the bytes in its range. -/
def answer (range : Bytes) : ReadStep → ReadAnswer
  | seek _ => .moved
  | skip _ => .moved
  | read _ => .data range
  | peekAt _ _ => .data range
  | readFixed _ => .data range
  | readU8 => .u8 (UInt8.ofNat (Bytes.toNat range))
  | readU16 => .u16 (UInt16.ofNat (Bytes.toNat range))
  | readU32 => .u32 (UInt32.ofNat (Bytes.toNat range))

/-- The range starts at the position, and the step moves over it. -/
def Advances : ReadStep → Prop
  | seek _ => False
  | peekAt _ _ => False
  | _ => True

/-- The step moves over its range and answers what is there. -/
def IsRead : ReadStep → Prop
  | seek _ => False
  | skip _ => False
  | peekAt _ _ => False
  | _ => True

variable {s : ReadStep}

theorem IsRead.advances (h : s.IsRead) : s.Advances := by
  cases s with
  | seek => cases h
  | peekAt => cases h
  | _ => trivial

theorem Advances.origin_eq (h : s.Advances) (position : Nat) : s.origin position = position := by
  cases s with
  | seek => cases h
  | peekAt => cases h
  | _ => rfl

theorem Advances.target_eq (h : s.Advances) (position : Nat) :
    s.target position = position + s.length := by
  cases s with
  | seek => cases h
  | peekAt => cases h
  | _ => rfl

end ReadStep

namespace Cursor

/-- What a step does: if its range fits, it answers what is there and moves on, and otherwise it
reports the range and does not move. -/
inductive Steps (c : Cursor) (s : ReadStep) : Except Truncated ReadAnswer → Cursor → Prop
  | fits {d : Cursor} : s.origin c.offset + s.length ≤ c.bytes.length →
      d.bytes = c.bytes → d.offset = s.target c.offset →
      Steps c s (.ok (s.answer ((c.bytes.drop (s.origin c.offset)).take s.length))) d
  | past : c.bytes.length < s.origin c.offset + s.length →
      Steps c s (.error ⟨s.origin c.offset, s.length, c.bytes.length - s.origin c.offset⟩) c

variable {c d : Cursor} {s : ReadStep} {steps : List ReadStep}

theorem ext_of_eq (hbytes : d.bytes = c.bytes) (hoffset : d.offset = c.offset) : d = c := by
  obtain ⟨bytes, offset, _⟩ := c
  obtain ⟨bytes', offset', _⟩ := d
  obtain rfl : bytes' = bytes := hbytes
  obtain rfl : offset' = offset := hoffset
  rfl

/-! ## Steps -/

theorem map_readFixed {α : Type} (f : Bytes → α) (c : Cursor) (n : Nat) :
    (fun r : FixedBytes n × Cursor => (f r.1.toList, r.2)) <$> c.readFixed n
      = (fun r : Bytes × Cursor => (f r.1, r.2)) <$> c.read n := by
  rw [read_eq_map_readFixed, Functor.map_map]

/-- All steps that advance are reads of which something is made. -/
theorem attempt_eq_map_read (h : s.Advances) (c : Cursor) :
    c.attempt s = (fun r => (s.answer r.1, r.2)) <$> c.read s.length := by
  cases s with
  | seek => cases h
  | peekAt => cases h
  | skip len => exact Functor.map_map _ _ _
  | read len => rfl
  | readFixed n => exact map_readFixed ReadAnswer.data c n.toNat
  | readU8 => exact Functor.map_map _ _ _
  | readU16 => exact Functor.map_map _ _ _
  | readU32 => exact Functor.map_map _ _ _

theorem attempt_of_fits (h : s.origin c.offset + s.length ≤ c.bytes.length) :
    ∃ d : Cursor, d.bytes = c.bytes ∧ d.offset = s.target c.offset
      ∧ c.attempt s = .ok (s.answer ((c.bytes.drop (s.origin c.offset)).take s.length), d) := by
  by_cases hadvances : s.Advances
  · rw [hadvances.origin_eq] at h ⊢
    refine ⟨⟨c.bytes, c.offset + s.length, h⟩, rfl, (hadvances.target_eq _).symm, ?_⟩
    rw [attempt_eq_map_read hadvances, read_of_fits h]
    rfl
  · cases s with
    | seek offset =>
        have h : offset.toNat ≤ c.bytes.length := h
        refine ⟨⟨c.bytes, offset.toNat, h⟩, rfl, rfl, ?_⟩
        rw [attempt, seek_of_fits h]
        rfl
    | peekAt offset len =>
        have h : offset.toNat + len.toNat ≤ c.bytes.length := h
        refine ⟨c, rfl, rfl, ?_⟩
        rw [attempt, peekAt_of_fits h]
        rfl
    | _ => exact absurd trivial hadvances

theorem attempt_of_past (h : ¬ s.origin c.offset + s.length ≤ c.bytes.length) :
    c.attempt s
      = .error ⟨s.origin c.offset, s.length, c.bytes.length - s.origin c.offset⟩ := by
  by_cases hadvances : s.Advances
  · rw [hadvances.origin_eq] at h ⊢
    rw [attempt_eq_map_read hadvances, read_of_past h]
    rfl
  · cases s with
    | seek offset =>
        have h : ¬ offset.toNat ≤ c.bytes.length := h
        rw [attempt, seek_of_past h]
        rfl
    | peekAt offset len =>
        have h : ¬ offset.toNat + len.toNat ≤ c.bytes.length := h
        rw [attempt, peekAt_of_past h]
        rfl
    | _ => exact absurd trivial hadvances

theorem step_run_of_ok {a : ReadAnswer} (h : c.attempt s = .ok (a, d)) :
    (step s).run c = (.ok a, d) := by
  simp only [step, StateT.run, h]

theorem step_run_of_error {t : Truncated} (h : c.attempt s = .error t) :
    (step s).run c = (.error t, c) := by
  simp only [step, StateT.run, h]

theorem steps_step (c : Cursor) (s : ReadStep) :
    Steps c s ((step s).run c).1 ((step s).run c).2 := by
  by_cases h : s.origin c.offset + s.length ≤ c.bytes.length
  · obtain ⟨d, hbytes, hoffset, hattempt⟩ := attempt_of_fits h
    rw [step_run_of_ok hattempt]
    exact .fits h hbytes hoffset
  · rw [step_run_of_error (attempt_of_past h)]
    exact .past (Nat.lt_of_not_le h)

theorem Steps.unique {outcome outcome' : Except Truncated ReadAnswer} {d d' : Cursor}
    (h : Steps c s outcome d) (h' : Steps c s outcome' d') : outcome = outcome' ∧ d = d' := by
  cases h with
  | fits hfits hbytes hoffset =>
      cases h' with
      | fits _ hbytes' hoffset' =>
          exact ⟨rfl, ext_of_eq (hbytes.trans hbytes'.symm) (hoffset.trans hoffset'.symm)⟩
      | past hpast => exact absurd hfits (Nat.not_le_of_lt hpast)
  | past hpast =>
      cases h' with
      | fits hfits => exact absurd hfits (Nat.not_le_of_lt hpast)
      | past => exact ⟨rfl, rfl⟩

/-- A step does what the rules say. -/
theorem step_eq_iff {outcome : Except Truncated ReadAnswer} :
    (step s).run c = (outcome, d) ↔ Steps c s outcome d := by
  constructor
  · intro h
    have hrule := steps_step c s
    rwa [h] at hrule
  · intro h
    obtain ⟨houtcome, hd⟩ := (steps_step c s).unique h
    exact Prod.ext houtcome hd

theorem Steps.bytes_eq {outcome : Except Truncated ReadAnswer} (h : Steps c s outcome d) :
    d.bytes = c.bytes := by
  cases h with
  | fits _ hbytes => exact hbytes
  | past => rfl

/-! ## Runs -/

theorem run_cons (s : ReadStep) (steps : List ReadStep) (c : Cursor) :
    ((s :: steps).mapM step).run c
      = (((step s).run c).1 :: ((steps.mapM step).run ((step s).run c).2).1,
        ((steps.mapM step).run ((step s).run c).2).2) :=
  have h : (step s).run c = (((step s).run c).1, ((step s).run c).2) := rfl
  mapM_run_cons h steps

theorem bytes_run (steps : List ReadStep) (c : Cursor) :
    ((steps.mapM step).run c).2.bytes = c.bytes := by
  induction steps generalizing c with
  | nil => rfl
  | cons s steps ih =>
      rw [run_cons]
      exact (ih _).trans (steps_step c s).bytes_eq

end Cursor

/-! ## Reads that follow each other -/

/-- The bytes that an answer stands for. -/
def ReadAnswer.spelled : ReadAnswer → Bytes
  | moved => []
  | data b => b
  | u8 v => [v]
  | u16 v => Bytes.ofNat 2 v.toNat
  | u32 v => Bytes.ofNat 4 v.toNat

/-- The bytes that the answer of a step stands for; a failed step has none. -/
def spelledBy : Except Truncated ReadAnswer → Bytes
  | .ok a => a.spelled
  | .error _ => []

namespace Cursor

variable {c d : Cursor} {s : ReadStep} {steps : List ReadStep}

theorem spelled_answer {range : Bytes} (hread : s.IsRead) (hlength : range.length = s.length) :
    (s.answer range).spelled = range := by
  cases s with
  | seek | skip | peekAt => cases hread
  | read | readFixed => rfl
  | readU8 =>
      obtain ⟨x, rfl⟩ := List.length_eq_one_iff.mp hlength
      exact congrArg (fun x => [x]) (Bytes.ofNat_toNat_singleton x)
  | readU16 =>
      have hlength : range.length = 2 := hlength
      have hlt : Bytes.toNat range < Bytes.bound 2 := hlength ▸ Bytes.toNat_lt_bound range
      show Bytes.ofNat 2 (UInt16.ofNat (Bytes.toNat range)).toNat = range
      rw [UInt16.toNat_ofNat_of_lt' hlt]
      exact hlength ▸ Bytes.ofNat_toNat range
  | readU32 =>
      have hlength : range.length = 4 := hlength
      have hlt : Bytes.toNat range < Bytes.bound 4 := hlength ▸ Bytes.toNat_lt_bound range
      show Bytes.ofNat 4 (UInt32.ofNat (Bytes.toNat range)).toNat = range
      rw [UInt32.toNat_ofNat_of_lt' hlt]
      exact hlength ▸ Bytes.ofNat_toNat range

/-- A read takes its bytes off the front of what remains. -/
theorem Steps.spelledBy_append {outcome : Except Truncated ReadAnswer} (hread : s.IsRead)
    (h : Steps c s outcome d) : spelledBy outcome ++ d.remaining = c.remaining := by
  cases h with
  | past => rfl
  | fits hfits hbytes hoffset =>
      rw [hread.advances.origin_eq] at hfits ⊢
      have hlength : ((c.bytes.drop c.offset).take s.length).length = s.length := by
        rw [List.length_take, List.length_drop]
        omega
      rw [spelledBy, spelled_answer hread hlength, remaining, hbytes, hoffset,
        hread.advances.target_eq, ← List.drop_drop, List.take_append_drop]
      rfl

/-- Reads that follow each other, with what remains after them, give all
bytes that remained before. -/
theorem spelled_run (hreads : ∀ s ∈ steps, s.IsRead) (c : Cursor) :
    ((steps.mapM step).run c).1.flatMap spelledBy ++ ((steps.mapM step).run c).2.remaining
      = c.remaining := by
  induction steps generalizing c with
  | nil => rfl
  | cons s steps ih =>
      obtain ⟨hread, hrest⟩ := List.forall_mem_cons.mp hreads
      rw [run_cons, List.flatMap_cons, List.append_assoc, ih hrest]
      exact (steps_step c s).spelledBy_append hread

end Cursor

end SmartWallet
