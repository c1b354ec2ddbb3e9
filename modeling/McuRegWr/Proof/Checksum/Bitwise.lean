import Mathlib.Tactic.NormNum.Prime
import McuRegWr.Base.ShiftRegister
import McuRegWr.General.CrcCheck

/-!
# The checksum, bit by bit

What the table of `crc16` stands for: a shift register of 16 bits that a byte enters low bit first.
The code moves it four bits at a time, and a table entry is what four moves make of a nibble.
-/

namespace McuRegWr

open Base ShiftRegister

/-- One move of the register: `0xA001` is taken in if the bit shifted out was 1. -/
def crcShift (crc_val : UInt16) : UInt16 :=
  if crc_val &&& 1 = 1 then (crc_val >>> 1) ^^^ 0xA001 else crc_val >>> 1

def crcBitwiseByte (crc_val : UInt16) (ch : UInt8) : UInt16 :=
  crcShift^[8] (crc_val ^^^ ch.toUInt16)

/-- The reflected checksum, as it is defined. -/
def crcBitwise (init_val : UInt16) (msg : List UInt8) : UInt16 := msg.foldl crcBitwiseByte init_val

abbrev crcPoly : BitVec 16 := 0xA001

/-! ### Bits -/

theorem toBitVec_crcShift (c : UInt16) : (crcShift c).toBitVec = shift crcPoly c.toBitVec := by
  have hlow : c &&& 1 = 1 ↔ c.toBitVec.getLsbD 0 := by
    have hbit : c.toBitVec.getLsbD 0 = decide (c.toNat % 2 = 1) := Nat.testBit_zero c.toNat
    rw [hbit, decide_eq_true_iff, ← UInt16.toNat_inj, UInt16.toNat_and, UInt16.toNat_one,
      Nat.and_one_is_mod]
  rw [crcShift, shift]
  by_cases h : c &&& 1 = 1
  · rw [if_pos h, if_pos (hlow.mp h)]
    rfl
  · rw [if_neg h, if_neg (mt hlow.mpr h)]
    rfl

theorem toBitVec_crcBitwiseByte (c : UInt16) (ch : UInt8) :
    (crcBitwiseByte c ch).toBitVec = feed crcPoly c.toBitVec ch.toBitVec := by
  have hmoves (n : Nat) (d : UInt16) :
      (crcShift^[n] d).toBitVec = (shift crcPoly)^[n] d.toBitVec := by
    induction n with
    | zero => rfl
    | succ n ih =>
        rw [Function.iterate_succ_apply', Function.iterate_succ_apply', toBitVec_crcShift, ih]
  exact hmoves 8 (c ^^^ ch.toUInt16)

/-! ### Nibbles -/

theorem crcTable_eq_moves : ∀ i : BitVec 4,
    (crcTalbeAbs.getD i.toNat 0).toBitVec = (shift crcPoly)^[4] (i.setWidth 16) := by
  decide

theorem moves_four (c : BitVec 16) : (shift crcPoly)^[4] c =
    (crcTalbeAbs.getD (c.setWidth 4).toNat 0).toBitVec ^^^ (c >>> 4) := by
  have hsplit : c = (c.setWidth 4).setWidth 16 ^^^ ((c >>> 4) <<< 4) := by
    apply BitVec.eq_of_getLsbD_eq
    intro i hi
    simp only [BitVec.getLsbD_xor, BitVec.getLsbD_setWidth, BitVec.getLsbD_shiftLeft,
      BitVec.getLsbD_ushiftRight]
    by_cases hlow : i < 4
    · simp [hlow, hi]
    · simp [hlow, hi, show 4 + (i - 4) = i by omega]
  have hclear : ∀ i < 4, ((c >>> 4) <<< 4).getLsbD i = false := by
    intro i hi
    rw [BitVec.getLsbD_shiftLeft, decide_eq_true hi, Bool.not_true, Bool.and_false,
      Bool.false_and]
  have hback : ((c >>> 4) <<< 4) >>> 4 = c >>> 4 := by
    apply BitVec.eq_of_getLsbD_eq
    intro i hi
    simp only [BitVec.getLsbD_ushiftRight, BitVec.getLsbD_shiftLeft]
    by_cases hin : 4 + i < 16
    · simp [hin]
    · rw [BitVec.getLsbD_of_ge c (4 + i) (by omega)]
      simp [hin]
  calc (shift crcPoly)^[4] c
      = (shift crcPoly)^[4] ((c.setWidth 4).setWidth 16) ^^^
          (shift crcPoly)^[4] ((c >>> 4) <<< 4) := by
        rw [← moves_xor, ← hsplit]
    _ = _ := by
        rw [moves_of_low_clear _ hclear, hback, crcTable_eq_moves]

theorem toBitVec_crcNibble (c x : UInt16) : (crcNibble c x).toBitVec =
    (crcTalbeAbs.getD ((c ^^^ x).toBitVec.setWidth 4).toNat 0).toBitVec ^^^ (c.toBitVec >>> 4) := by
  rw [crcNibble, crcEntry_eq, UInt16.xor_comm x c]
  rfl

theorem toBitVec_crc16Byte (c : UInt16) (ch : UInt8) :
    (crc16Byte c ch).toBitVec = feed crcPoly c.toBitVec ch.toBitVec := by
  let x : BitVec 16 := ch.toBitVec.setWidth 16
  have hx : x >>> (4 + 4) = 0#16 := by
    apply BitVec.eq_of_getLsbD_eq
    intro i hi
    simp only [x, BitVec.getLsbD_ushiftRight, BitVec.getLsbD_setWidth]
    rw [BitVec.getLsbD_of_ge ch.toBitVec _ (by omega)]
    simp
  have hlow : (crcNibble c ch.toUInt16).toBitVec ^^^ (x >>> 4) =
      (shift crcPoly)^[4] (c.toBitVec ^^^ x) := by
    rw [moves_four, toBitVec_crcNibble, BitVec.ushiftRight_xor_distrib, ← BitVec.xor_assoc]
    rfl
  have hhigh : ((ch >>> 4).toUInt16).toBitVec = x >>> 4 := by
    apply BitVec.eq_of_toNat_eq
    have hlt := ch.toNat_lt
    rw [UInt16.toNat_toBitVec, UInt8.toNat_toUInt16, UInt8.toNat_shiftRight,
      BitVec.toNat_ushiftRight, BitVec.toNat_setWidth, UInt8.toNat_toBitVec,
      Nat.mod_eq_of_lt (show ch.toNat < 2 ^ 16 by omega)]
    rfl
  calc (crc16Byte c ch).toBitVec
      = (shift crcPoly)^[4] ((crcNibble c ch.toUInt16).toBitVec ^^^ (x >>> 4)) := by
        rw [moves_four, crc16Byte_eq, toBitVec_crcNibble, UInt16.toBitVec_xor, hhigh,
          BitVec.ushiftRight_xor_distrib, ← BitVec.shiftRight_add, hx, BitVec.xor_zero]
    _ = (shift crcPoly)^[4] ((shift crcPoly)^[4] (c.toBitVec ^^^ x)) := by
        rw [hlow]
    _ = feed crcPoly c.toBitVec ch.toBitVec := rfl

/-- The checksum of a message is the one computed bit by bit. -/
theorem crc16_eq_crcBitwise (init_val : UInt16) (msg : List UInt8) (msg_len : UInt16) :
    crc16 init_val msg msg_len = crcBitwise init_val (msg.take msg_len.toNat) := by
  have hbyte : crc16Byte = crcBitwiseByte := by
    funext c ch
    apply UInt16.toBitVec_inj.mp
    rw [toBitVec_crc16Byte, toBitVec_crcBitwiseByte]
  rw [crc16, crcBitwise, hbyte]

/-- What `crc16` returns for a message is the checksum computed bit by bit. -/
theorem crc16_bitwise (init_val : UInt16) (msg : List UInt8) (hlen : msg.length ≤ 65535) :
    crc16 init_val msg (UInt16.ofNat msg.length) = crcBitwise init_val msg := by
  have hcount : (UInt16.ofNat msg.length).toNat = msg.length := by
    rw [UInt16.toNat_ofNat', Nat.mod_eq_of_lt (by omega)]
  rw [crc16_eq_crcBitwise, hcount, List.take_length]

theorem crc16_bitwise_check :
    crc16 0xffff [0x31, 0x32, 0x33] 3 = crcBitwise 0xffff [0x31, 0x32, 0x33] :=
  crc16_bitwise 0xffff [0x31, 0x32, 0x33] (by decide)

theorem toBitVec_crcRun (msg : List UInt8) : (crcFold.run 0 msg).toBitVec =
    marked crcPoly ((msg.map UInt8.toBitVec).foldl (trail 16) []) := by
  rw [← run_marked, List.foldl_map]
  show (msg.foldl crc16Byte 0).toBitVec = msg.foldl (fun c ch => feed crcPoly c ch.toBitVec) 0
  induction msg using List.reverseRecOn with
  | nil => rfl
  | append_singleton msg ch ih => rw [List.foldl_concat, List.foldl_concat, toBitVec_crc16Byte, ih]

/-! ### The period -/

/-- A move of the register as a number. -/
def crcMove (c : Nat) : Nat := if c % 2 = 1 then (c / 2) ^^^ 0xA001 else c / 2

/-- `n` moves. The state is matched on before the next one, so that a long run evaluates as it goes.
-/
def crcMoves : Nat → Nat → Nat
  | 0, c => c
  | n + 1, c =>
      match crcMove c with
      | 0 => 0
      | c' + 1 => crcMoves n (c' + 1)

theorem toNat_shift (c : BitVec 16) : (shift crcPoly c).toNat = crcMove c.toNat := by
  have hbit : c.getLsbD 0 = decide (c.toNat % 2 = 1) := Nat.testBit_zero c.toNat
  have hdown : (c >>> 1).toNat = c.toNat / 2 := by
    rw [BitVec.toNat_ushiftRight, Nat.shiftRight_one]
  rw [shift, crcMove, hbit]
  by_cases hodd : c.toNat % 2 = 1
  · rw [if_pos (decide_eq_true hodd), if_pos hodd, BitVec.toNat_xor, hdown]
    rfl
  · rw [if_neg (by rwa [decide_eq_true_iff]), if_neg hodd, hdown]

theorem toNat_moves (n : Nat) (c : BitVec 16) :
    ((shift crcPoly)^[n] c).toNat = crcMoves n c.toNat := by
  induction n generalizing c with
  | zero => rfl
  | succ n ih =>
      rw [Function.iterate_succ_apply, ih, toNat_shift, crcMoves]
      cases crcMove c.toNat with
      | zero =>
          cases n with
          | zero => rfl
          | succ n => rfl
      | succ c' => rfl

/-- The top bit comes back after `32767 = 7 * 31 * 151` moves, and after no proper part of them. -/
theorem crc_period : (shift crcPoly).minimalPeriod (BitVec.twoPow 16 15) = 32767 := by
  generalize hd : (shift crcPoly).minimalPeriod (BitVec.twoPow 16 15) = d
  have hback {n : Nat} : crcMoves n 0x8000 = 0x8000 ↔ d ∣ n := by
    rw [← hd, ← Function.isPeriodicPt_iff_minimalPeriod_dvd, Function.IsPeriodicPt,
      Function.IsFixedPt, ← BitVec.toNat_inj, toNat_moves]
    rfl
  obtain ⟨m, hm⟩ : d ∣ 32767 := hback.mp (by decide +kernel)
  have hpart {p n : Nat} (hp : 0 < p) (hn : p * n = 32767) (hmoves : crcMoves n 0x8000 ≠ 0x8000) :
      ¬ p ∣ m := by
    rintro ⟨l, rfl⟩
    apply hmoves (hback.mpr ⟨l, ?_⟩)
    apply Nat.eq_of_mul_eq_mul_left hp
    rw [hn, hm]
    ac_rfl
  by_cases hone : m = 1
  · rw [hm, hone, Nat.mul_one]
  · obtain ⟨p, hp, hpm⟩ := Nat.exists_prime_and_dvd hone
    have hfactor : p ∣ 7 * 31 * 151 := hpm.trans ⟨d, hm.trans (Nat.mul_comm d m)⟩
    rcases hp.dvd_mul.mp hfactor with h | h
    · rcases hp.dvd_mul.mp h with h | h
      · obtain rfl := (Nat.prime_dvd_prime_iff_eq hp (by norm_num)).mp h
        exact absurd hpm (hpart (n := 4681) (by decide) (by decide) (by decide +kernel))
      · obtain rfl := (Nat.prime_dvd_prime_iff_eq hp (by norm_num)).mp h
        exact absurd hpm (hpart (n := 1057) (by decide) (by decide) (by decide +kernel))
    · obtain rfl := (Nat.prime_dvd_prime_iff_eq hp (by norm_num)).mp h
      exact absurd hpm (hpart (n := 217) (by decide) (by decide) (by decide +kernel))

end McuRegWr
