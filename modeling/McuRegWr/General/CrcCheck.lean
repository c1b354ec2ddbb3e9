import Mathlib.Data.BitVec
import McuRegWr.Base.LinearFold

/-!
# The checksum

`crc16` of `crc_check.c`: two table steps a byte, low nibble first. The table is linear, so the
whole checksum is a linear fold, and what the rest of the development knows about it are the facts
of `crcFold` below. -/

namespace McuRegWr

open Base

def crcTalbeAbs : List UInt16 := [
  0x0000, 0xCC01, 0xD801, 0x1400, 0xF001, 0x3C00, 0x2800, 0xE401,
  0xA001, 0x6C00, 0x7800, 0xB401, 0x5000, 0x9C01, 0x8801, 0x4400]

/-- One round of the loop of `crc16`. -/
def crc16Byte (crc_val : UInt16) (ch : UInt8) : UInt16 :=
  let crc_val := crcTalbeAbs.getD ((ch.toUInt16 ^^^ crc_val) &&& 15).toNat 0 ^^^ (crc_val >>> 4)
  crcTalbeAbs.getD (((ch >>> 4).toUInt16 ^^^ crc_val) &&& 15).toNat 0 ^^^ (crc_val >>> 4)

def crc16 (init_val : UInt16) (msg : List UInt8) (msg_len : UInt16) : UInt16 :=
  (msg.take msg_len.toNat).foldl crc16Byte init_val

example : crc16 0xffff [0x31, 0x32, 0x33, 0x34, 0x35, 0x36, 0x37, 0x38, 0x39] 9 = 0x4B37 := by
  decide +kernel

/-! ### The table step -/

/-- The table entry of the low nibble of a word. -/
def crcEntry (x : UInt16) : UInt16 := crcTalbeAbs.getD (x &&& 15).toNat 0

def crcNibble (crc_val x : UInt16) : UInt16 := crcEntry (x ^^^ crc_val) ^^^ (crc_val >>> 4)

theorem crc16Byte_eq (crc_val : UInt16) (ch : UInt8) :
    crc16Byte crc_val ch = crcNibble (crcNibble crc_val ch.toUInt16) (ch >>> 4).toUInt16 := rfl

theorem crcTable_xor : ∀ i j : BitVec 4, crcTalbeAbs.getD (i ^^^ j).toNat 0 =
    crcTalbeAbs.getD i.toNat 0 ^^^ crcTalbeAbs.getD j.toNat 0 := by
  decide

theorem crcEntry_eq (x : UInt16) :
    crcEntry x = crcTalbeAbs.getD (x.toBitVec.setWidth 4).toNat 0 := by
  have hmask : (x &&& 15).toNat = (x.toBitVec.setWidth 4).toNat := by
    rw [UInt16.toNat_and, BitVec.toNat_setWidth]
    exact Nat.and_two_pow_sub_one_eq_mod x.toNat 4
  rw [crcEntry, hmask]

theorem crcEntry_xor (x y : UInt16) : crcEntry (x ^^^ y) = crcEntry x ^^^ crcEntry y := by
  simp only [crcEntry_eq, UInt16.toBitVec_xor, BitVec.setWidth_xor, crcTable_xor]

theorem crcNibble_xor (c d x y : UInt16) :
    crcNibble (c ^^^ d) (x ^^^ y) = crcNibble c x ^^^ crcNibble d y := by
  simp only [crcNibble, crcEntry_xor, UInt16.shiftRight_xor]
  ac_rfl

/-- Only the zero nibble has a table entry with a clear top nibble, and a shifted word has one. -/
theorem crcTable_top : ∀ i : BitVec 4, (crcTalbeAbs.getD i.toNat 0).toNat < 4096 → i = 0 := by
  decide

theorem eq_zero_of_crcNibble (c : UInt16) (h : crcNibble c 0 = 0) : c = 0 := by
  have hentry : crcEntry c = c >>> 4 := by
    rw [crcNibble, UInt16.zero_xor] at h
    exact UInt16.xor_eq_zero_iff.mp h
  have hshift : (c >>> 4).toNat = c.toNat / 16 := by
    simp [UInt16.toNat_shiftRight, Nat.shiftRight_eq_div_pow]
  have hc := c.toNat_lt
  have hlow : c.toBitVec.setWidth 4 = 0 := by
    apply crcTable_top
    rw [← crcEntry_eq, hentry, hshift]
    omega
  have hhigh : (c >>> 4).toNat = 0 := by
    rw [← hentry, crcEntry_eq, hlow]
    rfl
  have hmod : c.toNat % 16 = 0 := by
    have := congrArg BitVec.toNat hlow
    simpa using this
  apply UInt16.toNat_inj.mp
  change c.toNat = 0
  omega

/-! ### The byte step -/

theorem crc16Byte_xor (c d : UInt16) (a b : UInt8) :
    crc16Byte (c ^^^ d) (a ^^^ b) = crc16Byte c a ^^^ crc16Byte d b := by
  have hlow : (a ^^^ b).toUInt16 = a.toUInt16 ^^^ b.toUInt16 := UInt8.toUInt16_xor a b
  have hhigh : ((a ^^^ b) >>> 4).toUInt16 = (a >>> 4).toUInt16 ^^^ (b >>> 4).toUInt16 := by
    rw [UInt8.shiftRight_xor, UInt8.toUInt16_xor]
  simp only [crc16Byte_eq, hlow, hhigh, crcNibble_xor]

theorem crc16Byte_zero : crc16Byte 0 0 = 0 := by decide

theorem eq_zero_of_crc16Byte (c : UInt16) (h : crc16Byte c 0 = 0) : c = 0 := by
  rw [crc16Byte_eq] at h
  exact eq_zero_of_crcNibble c (eq_zero_of_crcNibble _ h)

/-- The checksum as a linear fold over the bytes. -/
def crcFold : LinearStep UInt16 UInt8 where
  step := crc16Byte
  zeroState := 0
  zeroSymbol := 0
  step_xor := crc16Byte_xor
  step_zero := crc16Byte_zero
  eq_zero_of_step := eq_zero_of_crc16Byte

theorem crc16_eq_run (init_val : UInt16) (msg : List UInt8) (msg_len : UInt16) :
    crc16 init_val msg msg_len = crcFold.run init_val (msg.take msg_len.toNat) := rfl

/-- A byte enters a step as an exclusive or into the low half of the register. -/
theorem crc16Byte_absorb (c : UInt16) (ch : UInt8) :
    crc16Byte c ch = crc16Byte (c ^^^ ch.toUInt16) 0 := by
  have hsplit : crc16Byte (c ^^^ ch.toUInt16) (0 ^^^ 0) =
      crc16Byte c 0 ^^^ crc16Byte ch.toUInt16 0 := crc16Byte_xor _ _ _ _
  have hwhole : crc16Byte (c ^^^ 0) (0 ^^^ ch) = crc16Byte c 0 ^^^ crc16Byte 0 ch :=
    crc16Byte_xor _ _ _ _
  have hbyte : crc16Byte ch.toUInt16 0 = crc16Byte 0 ch := by
    have hall : ∀ b : BitVec 8, crc16Byte (UInt8.ofBitVec b).toUInt16 0 =
        crc16Byte 0 (UInt8.ofBitVec b) := by decide +kernel
    exact hall ch.toBitVec
  simp only [UInt16.xor_zero, UInt8.zero_xor] at hsplit hwhole
  rw [hwhole, hsplit, hbyte]

/-- The checksum of one byte from a clear register. -/
abbrev crcOfByte (a : UInt8) : UInt16 := crc16Byte 0 a

theorem crcOfByte_high (a : UInt8) (h : (crcOfByte a).toNat < 256) : a = 0 := by
  have hall : ∀ b : BitVec 8, (crcOfByte (UInt8.ofBitVec b)).toNat < 256 → b = 0 := by
    decide +kernel
  exact UInt8.toBitVec_inj.mp (hall a.toBitVec h)

theorem crcPair_eq_zero {a b : UInt8} (h : crc16Byte (crcOfByte a) b = 0) : a = 0 ∧ b = 0 := by
  rw [crc16Byte_absorb] at h
  have hxor := UInt16.xor_eq_zero_iff.mp (eq_zero_of_crc16Byte _ h)
  have ha : a = 0 := by
    apply crcOfByte_high
    rw [hxor]
    exact b.toNat_lt
  subst ha
  refine ⟨rfl, UInt8.toNat_inj.mp ?_⟩
  have := congrArg UInt16.toNat hxor
  simpa [crcOfByte, crc16Byte_zero] using this.symm

end McuRegWr
