import Mathlib.Data.BitVec
import McuRegWr.Base.LittleEndian

/-!
# Bits in memory

`Get_Bit` and `Set_Bit` of `bits.h`: a byte array is a string of bits, low bit first.
-/

namespace McuRegWr

open Base

def getBit (start : List UInt8) (bit_x : Nat) : UInt8 :=
  (start.getD (bit_x / 8) 0 >>> UInt8.ofNat (bit_x % 8)) &&& 1

def setBit (start : List UInt8) (bit_x : Nat) (val : Int) : List UInt8 :=
  start.set (bit_x / 8)
    ((start.getD (bit_x / 8) 0 &&& ~~~(1 <<< UInt8.ofNat (bit_x % 8))) |||
      ((if val ≠ 0 then 1 else 0) <<< UInt8.ofNat (bit_x % 8)))

/-- The bit an index names. -/
def bitAt (start : List UInt8) (i : Nat) : Bool := (start.getD (i / 8) 0).toNat.testBit (i % 8)

/-! ### One byte -/

theorem testBit_shift {s : Nat} (hs : s < 8) (b : UInt8) :
    (b >>> UInt8.ofNat s) &&& 1 = if b.toNat.testBit s then 1 else 0 := by
  have hcount : (UInt8.ofNat s).toNat % 8 = s := by
    rw [UInt8.toNat_ofNat']
    omega
  apply UInt8.toNat_inj.mp
  rw [UInt8.toNat_and, UInt8.toNat_shiftRight, hcount, UInt8.toNat_one, Nat.and_one_is_mod,
    Nat.shiftRight_eq_div_pow, Nat.testBit_eq_decide_div_mod_eq]
  by_cases hbit : b.toNat / 2 ^ s % 2 = 1
  · rw [hbit, if_pos (decide_eq_true rfl)]
    rfl
  · rw [if_neg (by simpa using hbit), (Nat.mod_two_eq_zero_or_one _).resolve_right hbit]
    rfl

theorem testBit_mask {s t : Nat} (hs : s < 8) (ht : t < 8) :
    ((1 : UInt8) <<< UInt8.ofNat s).toBitVec.getLsbD t = decide (t = s) := by
  have hall : ∀ s t : Fin 8, ((1 : UInt8) <<< UInt8.ofNat s.val).toBitVec.getLsbD t.val =
      decide (t.val = s.val) := by decide
  exact hall ⟨s, hs⟩ ⟨t, ht⟩

theorem testBit_put {s t : Nat} (hs : s < 8) (ht : t < 8) (b : UInt8) (val : Int) :
    ((b &&& ~~~(1 <<< UInt8.ofNat s)) |||
        ((if val ≠ 0 then 1 else 0) <<< UInt8.ofNat s)).toNat.testBit t =
      if t = s then decide (val ≠ 0) else b.toNat.testBit t := by
  have hmask := testBit_mask hs ht
  show ((b &&& ~~~(1 <<< UInt8.ofNat s)) |||
      ((if val ≠ 0 then 1 else 0) <<< UInt8.ofNat s)).toBitVec.getLsbD t =
    if t = s then decide (val ≠ 0) else b.toBitVec.getLsbD t
  rw [UInt8.toBitVec_or, UInt8.toBitVec_and, UInt8.toBitVec_not, BitVec.getLsbD_or,
    BitVec.getLsbD_and, BitVec.getLsbD_not, hmask]
  by_cases hval : val = 0
  · have hzero : ((0 : UInt8) <<< UInt8.ofNat s).toBitVec.getLsbD t = false := by simp
    simp only [hval, ne_eq, not_true_eq_false, if_false, hzero]
    grind
  · simp only [hval, ne_eq, not_false_eq_true, if_true, hmask]
    grind

/-! ### The array -/

theorem getBit_eq (start : List UInt8) (i : Nat) :
    getBit start i = if bitAt start i then 1 else 0 :=
  testBit_shift (Nat.mod_lt _ (by decide)) _

theorem bitAt_setBit {start : List UInt8} {i : Nat} (hi : i / 8 < start.length) (val : Int)
    (j : Nat) :
    bitAt (setBit start i val) j = if j = i then decide (val ≠ 0) else bitAt start j := by
  have hput := @testBit_put (i % 8) (j % 8) (Nat.mod_lt _ (by decide)) (Nat.mod_lt _ (by decide))
    (start.getD (i / 8) 0) val
  by_cases hbyte : j / 8 = i / 8
  · have hsame : j % 8 = i % 8 ↔ j = i := by omega
    have hget : (setBit start i val).getD (j / 8) 0 =
        ((start.getD (i / 8) 0 &&& ~~~(1 <<< UInt8.ofNat (i % 8))) |||
          ((if val ≠ 0 then 1 else 0) <<< UInt8.ofNat (i % 8))) := by
      rw [setBit, List.getD_eq_getElem?_getD, hbyte, List.getElem?_set_self hi, Option.getD_some]
    rw [bitAt, hget, hput, bitAt, hbyte]
    simp only [hsame]
  · have hne : j ≠ i := fun heq => hbyte (by rw [heq])
    have hget : (setBit start i val).getD (j / 8) 0 = start.getD (j / 8) 0 := by
      rw [setBit, List.getD_eq_getElem?_getD, List.getElem?_set_ne (Ne.symm hbyte),
        List.getD_eq_getElem?_getD]
    rw [bitAt, hget, if_neg hne, bitAt]

theorem length_setBit (start : List UInt8) (i : Nat) (val : Int) :
    (setBit start i val).length = start.length :=
  List.length_set

theorem getBit_setBit {start : List UInt8} {i : Nat} (hi : i < 8 * start.length) (val : Int)
    (j : Nat) :
    getBit (setBit start i val) j =
      if j = i then if val ≠ 0 then 1 else 0 else getBit start j := by
  rw [getBit_eq, getBit_eq, bitAt_setBit (by omega)]
  by_cases hj : j = i
  · simp only [if_pos hj, decide_eq_true_eq]
  · rw [if_neg hj, if_neg hj]

theorem setBit_getElem?_of_ne (start : List UInt8) {i k : Nat} (hk : k ≠ i / 8) (val : Int) :
    (setBit start i val)[k]? = start[k]? :=
  List.getElem?_set_ne (Ne.symm hk)

/-! ### Little-endian words -/

theorem testBit_ofLeBytes (bytes : List UInt8) (j : Nat) :
    (ofLeBytes bytes).testBit j = bitAt bytes j := by
  induction bytes generalizing j with
  | nil => simp [ofLeBytes, bitAt]
  | cons b bs ih =>
      have hsplit : (ofLeBytes (b :: bs)).testBit j =
          if j < 8 then b.toNat.testBit j else (ofLeBytes bs).testBit (j - 8) := by
        rw [ofLeBytes, Nat.add_comm]
        exact Nat.testBit_two_pow_mul_add (ofLeBytes bs) b.toNat_lt j
      rw [hsplit]
      by_cases hj : j < 8
      · rw [if_pos hj, bitAt, Nat.div_eq_of_lt hj, Nat.mod_eq_of_lt hj]
        rfl
      · have hdiv : j / 8 = (j - 8) / 8 + 1 := by omega
        have hmod : j % 8 = (j - 8) % 8 := by omega
        rw [if_neg hj, ih, bitAt, bitAt, hdiv, hmod]
        rfl

end McuRegWr
