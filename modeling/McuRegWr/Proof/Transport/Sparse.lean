import McuRegWr.Proof.Checksum.Bitwise
import McuRegWr.Proof.Transport.Burst

/-!
# Sparse errors in a read response

A flipped bit adds one mark to what the register ends with: the bits of the checksum field add the
marks that are still single bits, each bit of the data one that has moved on further. The byte order
of the field does not matter, since it is only which single bit a mark is. Two marks are different
within the period of the register, and an odd number of marks has odd weight.
-/

namespace McuRegWr

open Base Prog ShiftRegister

/-- The number of bits an error flips. -/
def flips (err : List UInt8) : Nat := (err.map fun b => weight b.toBitVec).sum

/-- The marks of an error in the data and the checksum behind it. -/
def errorMarks (reg_cnt : Nat) (err : List UInt8) : List Nat :=
  bitsOf (wordAt err reg_cnt).toBitVec ++
    (((err.take reg_cnt).map UInt8.toBitVec).foldl (trail 16) [])

theorem weight_wordAt (err : List UInt8) (off : Nat) : weight (wordAt err off).toBitVec =
    weight (err.getD off 0).toBitVec + weight (err.getD (off + 1) 0).toBitVec := by
  generalize ha : err.getD off 0 = a
  generalize hb : err.getD (off + 1) 0 = b
  have hword : (wordAt err off).toBitVec = a.toBitVec ++ b.toBitVec := by
    have hlta := a.toNat_lt
    have hltb := b.toNat_lt
    apply BitVec.eq_of_toNat_eq
    rw [wordAt, ha, hb, BitVec.toNat_append, ← Nat.shiftLeft_add_eq_or_of_lt b.toBitVec.isLt,
      Nat.shiftLeft_eq, UInt16.toNat_toBitVec, UInt16.toNat_ofNat', Nat.mod_eq_of_lt (by omega)]
    rfl
  rw [hword, weight_append]

theorem length_errorMarks {n : Nat} {err : List UInt8} (hlen : err.length = n + 2) :
    (errorMarks n err).length = flips err := by
  have hsplit : err = err.take n ++ [err.getD n 0, err.getD (n + 1) 0] := by
    conv_lhs => rw [← List.take_append_drop n err]
    rw [List.drop_eq_getElem_cons (by omega), List.drop_eq_getElem_cons (by omega),
      List.drop_of_length_le (by omega), List.getD_eq_getElem?_getD,
      List.getElem?_eq_getElem (by omega), List.getD_eq_getElem?_getD,
      List.getElem?_eq_getElem (by omega)]
    rfl
  have hflips : flips err = ((err.take n).map fun b => weight b.toBitVec).sum +
      (weight (err.getD n 0).toBitVec + weight (err.getD (n + 1) 0).toBitVec) := by
    conv_lhs => rw [hsplit]
    rw [flips, List.map_append, List.sum_append]
    rfl
  have hdata : (((err.take n).map UInt8.toBitVec).foldl (trail 16) []).length =
      ((err.take n).map fun b => weight b.toBitVec).sum := by
    rw [← Function.comp_def weight, ← List.map_map]
    exact (trail_bounds 8 _).2.2
  have hword : (bitsOf (wordAt err n).toBitVec).length = _ := weight_wordAt err n
  rw [errorMarks, List.length_append, hword, hdata, hflips, Nat.add_comm]

/-- All marks are different, and none has moved further than the bits of the frame. -/
theorem errorMarks_bounds (n : Nat) (err : List UInt8) :
    (errorMarks n err).Nodup ∧ ∀ e ∈ errorMarks n err, e < 16 + 8 * n := by
  obtain ⟨hnodup, hbounds, -⟩ := trail_bounds 8 ((err.take n).map UInt8.toBitVec)
  rw [List.length_map, List.length_take] at hbounds
  have hword : ∀ e ∈ bitsOf (wordAt err n).toBitVec, e < 16 := fun e he => (mem_bitsOf.mp he).1
  constructor
  · refine (nodup_bitsOf _).append hnodup fun e he he' => ?_
    have := hword e he
    have := (hbounds e he').1
    omega
  · intro e he
    rcases List.mem_append.mp he with he | he
    · have := hword e he
      omega
    · have := (hbounds e he).2
      omega

/-- A corrupted frame is accepted exactly if the marks of the error cancel. -/
theorem crcMatches_iff_marked {reg_addr reg_cnt : UInt16} {payload err : List UInt8}
    (hlen : payload.length = reg_cnt.toNat) (herr : err.length = reg_cnt.toNat + 2) :
    CrcMatches reg_addr reg_cnt (corrupted (readFrame reg_addr reg_cnt payload) err) ↔
      marked crcPoly (errorMarks reg_cnt.toNat err) = 0#16 := by
  rw [crcMatches_corrupted hlen herr, errorMarks, marked_append, marked_bitsOf, ← toBitVec_crcRun,
    BitVec.xor_eq_zero_iff, UInt16.toBitVec_inj]
  exact eq_comm

/-- Two marks, or an odd number of them, do not cancel. -/
theorem marked_errorMarks_ne_zero {n : Nat} {err : List UInt8} (hlen : err.length = n + 2)
    (hn : n ≤ 1022) (hflips : flips err = 2 ∨ flips err % 2 = 1) :
    marked crcPoly (errorMarks n err) ≠ 0#16 := by
  have hcount := length_errorMarks hlen
  rcases hflips with htwo | hodd
  · obtain ⟨hnodup, hbounds⟩ := errorMarks_bounds n err
    obtain ⟨e, e', hpair⟩ := List.length_eq_two.mp (hcount.trans htwo)
    rw [hpair] at hnodup hbounds ⊢
    have he := hbounds e (by simp)
    have he' := hbounds e' (by simp)
    rw [marked_cons, marked_cons]
    show mark crcPoly e ^^^ (mark crcPoly e' ^^^ 0#16) ≠ 0#16
    rw [BitVec.xor_zero]
    have hne : e ≠ e' := by
      rintro rfl
      simp at hnodup
    apply mark_xor_mark_ne_zero crcPoly hne
    · rw [crc_period]
      omega
    · rw [crc_period]
      omega
  · intro hzero
    have hweight := weight_marked crcPoly (by decide) (by decide) (errorMarks n err)
    rw [hzero, hcount, hodd] at hweight
    exact absurd hweight (by decide)

/-- An answer in which two bits are flipped, or an odd number of bits, is refused and leaves the
caller's buffer. -/
theorem SpiReg.read_sparse (h : SpiRegHandle) (reg_addr reg_cnt : UInt16) (reg_data : List UInt8)
    (timeout : UInt32) (payload err : List UInt8) (hcnt : reg_cnt.toNat ≤ 1022)
    (hlen : payload.length = reg_cnt.toNat) (herr : err.length = reg_cnt.toNat + 2)
    (hflips : flips err = 2 ∨ flips err % 2 = 1) (t : List SysI.Event) (ret : Int)
    (reg_data' rx : List UInt8)
    (hrun : Runs (SpiReg.read (some h) reg_addr reg_cnt reg_data timeout) t (ret, reg_data'))
    (hans : Answered t rx)
    (hrx : rx.take (reg_cnt.toNat + 2) = corrupted (readFrame reg_addr reg_cnt payload) err) :
    ¬ CrcMatches reg_addr reg_cnt rx ∧ ret = -3 ∧ reg_data' = reg_data := by
  have hmiss : ¬ CrcMatches reg_addr reg_cnt rx := by
    have hmarks := (@crcMatches_iff_marked reg_addr _ _ _ hlen herr).not.mpr
      (marked_errorMarks_ne_zero herr hcnt hflips)
    rwa [← hrx, CrcMatches, wordAt_take (le_refl _), frameCrc_take _ _ _ (Nat.le_add_right _ _)]
      at hmarks
  exact ⟨hmiss, refused_of_mismatch hcnt hrun hans hmiss⟩

/-- Two bits flipped, one of the data and one of the checksum. -/
theorem SpiReg.read_sparse_online_cnt :
    ∃ t rx, Runs onlineCntRead t (-3, [0x00]) ∧ Answered t rx ∧
      rx.take 3 = corrupted (readFrame 0x1011 1 [0x2a]) [0x01, 0x00, 0x80] ∧
      ¬ CrcMatches 0x1011 1 rx := by
  have heval : onlineCntRead.eval (ackingMcu [0x2b, 0x98, 0xc4]) () = some ((-3, [0x00]), ()) := by
    decide +kernel
  have hans : Answered (onlineCntRead.traceOf (ackingMcu [0x2b, 0x98, 0xc4]) ())
      [0x2b, 0x98, 0xc4, 0xff, 0xff, 0xff, 0xff, 0xff] :=
    onlineCntRead_answered (by decide +kernel) (by decide +kernel)
  have hrx : [0x2b, 0x98, 0xc4, 0xff, 0xff, 0xff, 0xff, 0xff].take 3 =
      corrupted (readFrame 0x1011 1 [0x2a]) [0x01, 0x00, 0x80] := by decide +kernel
  exact ⟨_, _, runs_traceOf heval, hans, hrx, (SpiReg.read_sparse ⟨3, 4, 5⟩ 0x1011 1 [0x00] 100
    [0x2a] [0x01, 0x00, 0x80] (by decide) rfl rfl (.inl (by decide)) _ _ _ _ (runs_traceOf heval)
    hans hrx).1⟩

end McuRegWr
