import SmartWallet.Proofs.Bytes.CursorRun

set_option autoImplicit false

/-! # Reading with machine words

With machine words a reader makes the same steps as a cursor that counts in natural numbers, through
whole runs (`WordCursor.run_agrees`), so what the rules say of a cursor is true of it as well.

Two additions could overflow. The one that finds the end of a range is tested, and a range
whose end is no word does not fit, since the length is a word (`WordCursor.Agrees.peekAt`). The
one that moves the position on is not tested. It does not overflow because the same range was
found to fit just before, so that the new position is at most the length
(`WordCursor.refines_read`). This needs the position to be that of a cursor, and so it holds of
a step only together with all the steps before it. -/

namespace SmartWallet

/-! ## Sums of words -/

theorem toNat_add_of_lt {a b : UInt64} (h : a.toNat + b.toNat < UInt64.size) :
    (a + b).toNat = a.toNat + b.toNat := by
  rw [UInt64.toNat_add]
  exact Nat.mod_eq_of_lt h

theorem checkedAdd?_of_lt {a b : UInt64} (h : a.toNat + b.toNat < UInt64.size) :
    checkedAdd? a b = some (a + b) := if_pos h

namespace WordCursor

variable {w : WordCursor} {c : Cursor} {α β : Type}

/-- Both readers are at the same position of the same byte string. -/
structure Agrees (w : WordCursor) (c : Cursor) : Prop where
  bytes_eq : w.bytes = c.bytes
  offset_eq : w.offset.toNat = c.offset

/-- A computation with words does what one with a cursor does: it fails with the same report and
does not move, or has the same result at the same position. -/
def Refines (x : WordReader α) (y : Cursor → Except Truncated (α × Cursor)) : Prop :=
  ∀ w c, Agrees w c →
    (∃ t, y c = .error t ∧ x.run.run w = (.error (.truncated t), w))
      ∨ ∃ a d w', y c = .ok (a, d) ∧ x.run.run w = (.ok a, w') ∧ Agrees w' d

/-! ## Computations -/

theorem Refines.congr {x : WordReader α} {y y' : Cursor → Except Truncated (α × Cursor)}
    (h : Refines x y) (hy : ∀ c, y' c = y c) : Refines x y' := by
  intro w c hagrees
  rw [hy]
  exact h w c hagrees

theorem run_bind_of_ok {x : WordReader α} {f : α → WordReader β} {a : α} {w w' : WordCursor}
    (h : x.run.run w = (.ok a, w')) : (x >>= f).run.run w = (f a).run.run w' := by
  rw [ExceptT.run_bind, StateT.run_bind, h]
  rfl

theorem run_bind_of_error {x : WordReader α} {f : α → WordReader β} {e : ReadFault}
    {w w' : WordCursor} (h : x.run.run w = (.error e, w')) :
    (x >>= f).run.run w = (.error e, w') := by
  rw [ExceptT.run_bind, StateT.run_bind, h]
  rfl

theorem get_run (w : WordCursor) : (get : WordReader WordCursor).run.run w = (.ok w, w) := rfl

theorem liftM_run (x : Except ReadFault α) (w : WordCursor) :
    (liftM x : WordReader α).run.run w = (x, w) := rfl

theorem Refines.map {x : WordReader α} {y : Cursor → Except Truncated (α × Cursor)} (f : α → β)
    (h : Refines x y) : Refines (f <$> x) fun c => (fun r => (f r.1, r.2)) <$> y c := by
  intro w c hagrees
  dsimp only
  rw [map_eq_pure_bind]
  rcases h w c hagrees with ⟨t, hy, hx⟩ | ⟨a, d, w', hy, hx, hagrees'⟩
  · rw [hy]
    exact .inl ⟨t, rfl, run_bind_of_error hx⟩
  · rw [hy]
    exact .inr ⟨f a, d, w', rfl, run_bind_of_ok hx, hagrees'⟩

/-! ## Ranges -/

theorem toNat_size (w : WordCursor) : w.size.toNat = w.bytes.length :=
  UInt64.toNat_ofNat_of_lt' w.length_lt

theorem Agrees.truncatedAt (h : Agrees w c) (offset len : UInt64) :
    w.truncatedAt offset len = .truncated (c.truncatedAt offset.toNat len.toNat) := by
  rw [WordCursor.truncatedAt, toNat_size, h.bytes_eq]
  rfl

/-- A range whose end is no word does not fit either, since the length is a word. -/
theorem Agrees.peekAt (h : Agrees w c) (offset len : UInt64) :
    w.peekAt offset len = (c.peekAt offset.toNat len.toNat).mapError .truncated := by
  have hlength := w.length_lt
  rw [h.bytes_eq] at hlength
  unfold WordCursor.peekAt Cursor.peekAt
  by_cases hword : offset.toNat + len.toNat < UInt64.size
  · rw [checkedAdd?_of_lt hword]
    dsimp only
    have hstop := toNat_add_of_lt hword
    have horder : offset ≤ offset + len := by
      rw [UInt64.le_iff_toNat_le, hstop]
      exact Nat.le_add_right _ _
    by_cases hfits : offset.toNat + len.toNat ≤ c.bytes.length
    · have hwithin : offset + len ≤ w.size := by
        rwa [UInt64.le_iff_toNat_le, hstop, toNat_size, h.bytes_eq]
      rw [if_pos ⟨horder, hwithin⟩, if_pos hfits, UInt64.toNat_sub_of_le _ _ horder, hstop,
        Nat.add_sub_cancel_left, h.bytes_eq]
      rfl
    · have hpast : ¬ (offset ≤ offset + len ∧ offset + len ≤ w.size) := by
        rintro ⟨-, hwithin⟩
        rw [UInt64.le_iff_toNat_le, hstop, toNat_size, h.bytes_eq] at hwithin
        exact hfits hwithin
      rw [if_neg hpast, if_neg hfits, h.truncatedAt]
      rfl
  -- the cursor has no such bound, but its bytes end before it
  · have hnone : checkedAdd? offset len = none := if_neg hword
    rw [hnone, if_neg (by omega), h.truncatedAt]
    rfl

/-! ## Steps -/

theorem seek_run (w : WordCursor) (offset : UInt64) : (seek offset).run.run w
    = if w.size < offset then (.error (w.truncatedAt offset 0), w)
      else (.ok (), { w with offset }) := by
  by_cases h : w.size < offset
  · show (ExceptT.run (if w.size < offset then _ else _ : WordReader Unit)).run w = _
    rw [if_pos h, if_pos h]
    rfl
  · show (ExceptT.run (if w.size < offset then _ else _ : WordReader Unit)).run w = _
    rw [if_neg h, if_neg h]
    rfl

theorem refines_seek (offset : UInt64) :
    Refines (seek offset) fun c => (fun d => ((), d)) <$> c.seek offset.toNat := by
  intro w c h
  dsimp only
  rw [seek_run]
  have hsize : w.size < offset ↔ ¬ offset.toNat ≤ c.bytes.length := by
    rw [UInt64.lt_iff_toNat_lt, toNat_size, h.bytes_eq, Nat.not_le]
  by_cases hfits : offset.toNat ≤ c.bytes.length
  · rw [Cursor.seek_of_fits hfits, if_neg (mt hsize.mp (not_not_intro hfits))]
    exact .inr ⟨(), _, _, rfl, rfl, ⟨h.bytes_eq, rfl⟩⟩
  · rw [Cursor.seek_of_past hfits, if_pos (hsize.mpr hfits), h.truncatedAt]
    exact .inl ⟨_, rfl, rfl⟩

theorem read_run_of_error {len : UInt64} {e : ReadFault} (h : w.peekAt w.offset len = .error e) :
    (read len).run.run w = (.error e, w) := by
  have hpeek : (liftM (w.peekAt w.offset len) : WordReader Bytes).run.run w = (.error e, w) := by
    rw [liftM_run, h]
  rw [read, run_bind_of_ok (get_run w), run_bind_of_error hpeek]

theorem read_run_of_ok {len next : UInt64} {b : Bytes} (h : w.peekAt w.offset len = .ok b)
    (hnext : checkedAdd? w.offset len = some next) :
    (read len).run.run w = (.ok b, { w with offset := next }) := by
  have hpeek : (liftM (w.peekAt w.offset len) : WordReader Bytes).run.run w = (.ok b, w) := by
    rw [liftM_run, h]
  rw [read, run_bind_of_ok (get_run w), run_bind_of_ok hpeek]
  simp only [hnext]
  rfl

/-- A position that is moved on is at most the length, so it is a word. -/
theorem refines_read (len : UInt64) : Refines (read len) fun c => c.read len.toNat := by
  intro w c h
  have hpeek := h.peekAt w.offset len
  rw [h.offset_eq] at hpeek
  by_cases hfits : c.offset + len.toNat ≤ c.bytes.length
  · have hword : w.offset.toNat + len.toNat < UInt64.size := by
      rw [h.offset_eq]
      exact Nat.lt_of_le_of_lt hfits (h.bytes_eq ▸ w.length_lt)
    rw [Cursor.peekAt_of_fits hfits] at hpeek
    have hrun := read_run_of_ok hpeek (checkedAdd?_of_lt hword)
    refine .inr ⟨_, _, _, Cursor.read_of_fits hfits, hrun, h.bytes_eq, ?_⟩
    show (w.offset + len).toNat = c.offset + len.toNat
    rw [toNat_add_of_lt hword, h.offset_eq]
  · rw [Cursor.peekAt_of_past hfits] at hpeek
    exact .inl ⟨_, Cursor.read_of_past hfits, read_run_of_error hpeek⟩

/-- What is read is as long as the place to which it is copied. -/
theorem refines_readFixed (n : UInt64) : Refines (readFixed n) fun c => c.readFixed n.toNat := by
  intro w c h
  have hsame := (Cursor.read_eq_map_readFixed c n.toNat).symm
  rcases refines_read n w c h with ⟨t, hread, hrun⟩ | ⟨b, d, w', hread, hrun, hagrees⟩
  · exact .inl ⟨t, map_eq_error_iff.mp (hsame.trans hread), run_bind_of_error hrun⟩
  · obtain ⟨⟨x, d'⟩, hfixed, hx⟩ := map_eq_ok_iff.mp (hsame.trans hread)
    obtain ⟨rfl, rfl⟩ := Prod.mk.inj hx
    refine .inr ⟨x, _, w', hfixed, ?_, hagrees⟩
    rw [readFixed, run_bind_of_ok hrun, FixedBytes.ofList?_toList]
    rfl

/-- Something made of a read of fixed length. -/
theorem refines_map_readFixed (f : Bytes → α) (n : UInt64) :
    Refines ((fun b => f b.toList) <$> readFixed n) fun c =>
      (fun r => (f r.1, r.2)) <$> c.read n.toNat :=
  ((refines_readFixed n).map fun b => f b.toList).congr fun c =>
    (Cursor.map_readFixed f c n.toNat).symm

theorem step_peekAt_run (w : WordCursor) (offset len : UInt64) :
    (step (.peekAt offset len)).run w = ((w.peekAt offset len).map ReadAnswer.data, w) := by
  show (ExceptT.run ((liftM (w.peekAt offset len) : WordReader Bytes) >>= _)).run w = _
  cases w.peekAt offset len <;> rfl

theorem refines_peekAt (offset len : UInt64) :
    Refines (ExceptT.mk (step (.peekAt offset len))) fun c => c.attempt (.peekAt offset len) := by
  intro w c h
  have hrun := step_peekAt_run w offset len
  rw [h.peekAt] at hrun
  dsimp only [Cursor.attempt]
  cases hpeek : c.peekAt offset.toNat len.toNat with
  | error t =>
      rw [hpeek] at hrun
      exact .inl ⟨t, rfl, hrun⟩
  | ok b =>
      rw [hpeek] at hrun
      exact .inr ⟨.data b, c, w, rfl, hrun, h⟩

theorem refines_step (s : ReadStep) : Refines (ExceptT.mk (step s)) fun c => c.attempt s := by
  cases s with
  | seek offset =>
      refine ((refines_seek offset).map fun _ => ReadAnswer.moved).congr fun c => ?_
      exact (Functor.map_map (fun d => ((), d)) (fun r => (ReadAnswer.moved, r.2)) _).symm
  | peekAt offset len => exact refines_peekAt offset len
  | skip len =>
      refine (((refines_read len).map fun _ => ()).map fun _ => ReadAnswer.moved).congr fun c => ?_
      rw [Cursor.attempt_eq_map_read (s := .skip len) trivial]
      exact (Functor.map_map (fun r : Bytes × Cursor => ((), r.2))
        (fun r => (ReadAnswer.moved, r.2)) _).symm
  | read len => exact (refines_read len).map ReadAnswer.data
  | readFixed n =>
      exact (refines_map_readFixed ReadAnswer.data n).congr fun c =>
        Cursor.attempt_eq_map_read (s := .readFixed n) trivial c
  | readU8 =>
      exact (refines_map_readFixed (fun b => UInt8.ofNat (Bytes.toNat b)) 1).map ReadAnswer.u8
  | readU16 =>
      exact (refines_map_readFixed (fun b => UInt16.ofNat (Bytes.toNat b)) 2).map ReadAnswer.u16
  | readU32 =>
      exact (refines_map_readFixed (fun b => UInt32.ofNat (Bytes.toNat b)) 4).map ReadAnswer.u32

theorem step_agrees (h : Agrees w c) (s : ReadStep) :
    ((step s).run w).1 = ((Cursor.step s).run c).1.mapError .truncated
      ∧ Agrees ((step s).run w).2 ((Cursor.step s).run c).2 := by
  rcases refines_step s w c h with ⟨t, hattempt, hrun⟩ | ⟨a, d, w', hattempt, hrun, hagrees⟩
  · have hrun : (step s).run w = (.error (.truncated t), w) := hrun
    rw [hrun, Cursor.step_run_of_error hattempt]
    exact ⟨rfl, h⟩
  · have hrun : (step s).run w = (.ok a, w') := hrun
    rw [hrun, Cursor.step_run_of_ok hattempt]
    exact ⟨rfl, hagrees⟩

/-! ## Runs -/

/-- Readers at the same position answer alike through whole runs, and are at the same position after
them. -/
theorem run_agrees (h : Agrees w c) (steps : List ReadStep) :
    ((steps.mapM step).run w).1
        = ((steps.mapM Cursor.step).run c).1.map (Except.mapError .truncated)
      ∧ Agrees ((steps.mapM step).run w).2 ((steps.mapM Cursor.step).run c).2 := by
  induction steps generalizing w c with
  | nil => exact ⟨rfl, h⟩
  | cons s steps ih =>
      obtain ⟨hanswer, hagrees⟩ := step_agrees h s
      obtain ⟨hanswers, hend⟩ := ih hagrees
      have hrun : (step s).run w = (((step s).run w).1, ((step s).run w).2) := rfl
      rw [mapM_run_cons hrun, Cursor.run_cons, List.map_cons, hanswer, hanswers]
      exact ⟨rfl, hend⟩

/-- Whatever steps are made, with machine words they are made without a fault and with the same
outcomes, and the position stays within the byte string. A next step does what the rules say,
whatever it is; and reads that follow take adjacent parts of what remains. -/
theorem run_in_bounds {b : Bytes} (hb : b.length < UInt64.size) (steps : List ReadStep) :
    let run := (steps.mapM Cursor.step).run (.start b)
    let wordRun := (steps.mapM step).run (.start b hb)
    (wordRun.1 = run.1.map (Except.mapError .truncated)
      ∧ wordRun.2.bytes = b ∧ wordRun.2.offset.toNat = run.2.offset)
    ∧ (run.2.bytes = b ∧ run.2.offset ≤ b.length)
    ∧ (∀ s outcome d, (Cursor.step s).run run.2 = (outcome, d) ↔ Cursor.Steps run.2 s outcome d)
    ∧ ∀ reads : List ReadStep, (∀ s ∈ reads, s.IsRead) →
      let readRun := (reads.mapM Cursor.step).run run.2
      readRun.1.flatMap spelledBy ++ readRun.2.remaining = run.2.remaining := by
  intro run wordRun
  have hagrees : Agrees (.start b hb) (.start b) := ⟨rfl, rfl⟩
  obtain ⟨houtcomes, hend⟩ := run_agrees hagrees steps
  have hbytes : run.2.bytes = b := Cursor.bytes_run steps (.start b)
  refine ⟨⟨houtcomes, hend.bytes_eq.trans hbytes, hend.offset_eq⟩, ⟨hbytes, ?_⟩, ?_, ?_⟩
  · exact hbytes ▸ run.2.offset_le
  · exact fun s outcome d => Cursor.step_eq_iff
  · exact fun reads hreads => Cursor.spelled_run hreads run.2

def sampleReadBytes : Bytes := [1, 2, 3, 4, 5]

/-- A read, and then ranges that do not fit: one whose end is no word, one that starts at the
position, and a position past the end. -/
def sampleReadSteps : List ReadStep :=
  [.readU16, .peekAt 18446744073709551615 2, .skip 18446744073709551615, .seek 6]

/-- Reads in a row, of which the second does not fit. -/
def sampleReads : List ReadStep := [.readU8, .read 5, .readFixed 1]

theorem run_in_bounds_sample : ∃ hb : sampleReadBytes.length < UInt64.size,
    let c := ((sampleReadSteps.mapM Cursor.step).run (.start sampleReadBytes)).2
    ((sampleReadSteps.mapM step).run (.start sampleReadBytes hb)).1
        = [.ok (.u16 258), .error (.truncated ⟨18446744073709551615, 2, 0⟩),
          .error (.truncated ⟨2, 18446744073709551615, 3⟩), .error (.truncated ⟨6, 0, 0⟩)]
      ∧ ((sampleReadSteps.mapM step).run (.start sampleReadBytes hb)).2.offset.toNat = 2
      ∧ (∀ s ∈ sampleReads, s.IsRead)
      ∧ ((sampleReads.mapM Cursor.step).run c).1.flatMap spelledBy
        ++ ((sampleReads.mapM Cursor.step).run c).2.remaining = [3, 4, 5] := by
  have hb : sampleReadBytes.length < UInt64.size := by decide
  have hreads : ∀ s ∈ sampleReads, s.IsRead := by simp [sampleReads, ReadStep.IsRead]
  obtain ⟨⟨houtcomes, -, hoffset⟩, -, -, htaken⟩ := run_in_bounds hb sampleReadSteps
  exact ⟨hb, houtcomes, hoffset, hreads, htaken sampleReads hreads⟩

end WordCursor

end SmartWallet
