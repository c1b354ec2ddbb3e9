import McuRegWr.Base.LittleEndian

/-!
# Byte order in memory

The macros of `memctrl.h`, on a little-endian host: a value is stored in the host's order and its
bytes are then swapped in place, through three exclusive ors a pair. A buffer is the list of its
bytes, and a pointer into it is the list from there on.
-/

namespace McuRegWr

open Base

/-- One round of the loop of `_byte_order_change`. -/
def byteOrderChangeRound (len : Nat) (p : List UInt8) (i : Nat) : List UInt8 :=
  let p := p.set (len - i - 1) (p.getD (len - i - 1) 0 ^^^ p.getD i 0)
  let p := p.set i (p.getD i 0 ^^^ p.getD (len - i - 1) 0)
  p.set (len - i - 1) (p.getD (len - i - 1) 0 ^^^ p.getD i 0)

def byteOrderChange (ptr : List UInt8) (len : Nat) : List UInt8 :=
  (List.range (len / 2)).foldl (byteOrderChangeRound len) ptr

/-- Bytes stored at an offset of a buffer. -/
def storeAt (buf : List UInt8) (off : Nat) (bytes : List UInt8) : List UInt8 :=
  buf.take off ++ bytes ++ buf.drop (off + bytes.length)

theorem length_storeAt {buf bytes : List UInt8} {off : Nat} (h : off + bytes.length ≤ buf.length) :
    (storeAt buf off bytes).length = buf.length := by
  simp only [storeAt, List.length_append, List.length_take, List.length_drop]
  omega

/-- A variable that is overwritten whole. -/
theorem storeAt_zero_full {buf bytes : List UInt8} (h : buf.length = bytes.length) :
    storeAt buf 0 bytes = bytes := by
  rw [storeAt, List.take_zero, List.nil_append, Nat.zero_add, ← h, List.drop_length,
    List.append_nil]

/-- `SET_MEM_VAL_TYPE_SYSTEM_TO_BIG`: `bytes` are the value's bytes on the host. -/
def setMemValTypeSystemToBig (buf : List UInt8) (off : Nat) (bytes : List UInt8) : List UInt8 :=
  let buf := storeAt buf off bytes
  buf.take off ++ byteOrderChange (buf.drop off) bytes.length

/-- `SET_MEM_VAL_TYPE_BIG_TO_SYSTEM`: on this host the same swap. -/
def setMemValTypeBigToSystem (buf : List UInt8) (off : Nat) (bytes : List UInt8) : List UInt8 :=
  let buf := storeAt buf off bytes
  buf.take off ++ byteOrderChange (buf.drop off) bytes.length

/-- `GET_MEM_VAL` of a type of `size` bytes: its bytes on the host. -/
def getMemVal (buf : List UInt8) (off size : Nat) : List UInt8 := (buf.drop off).take size

/-! ### The swap reverses -/

theorem byteOrderChangeRound_length (len : Nat) (p : List UInt8) (i : Nat) :
    (byteOrderChangeRound len p i).length = p.length := by
  simp [byteOrderChangeRound]

theorem xor_swap_left (a b : UInt8) : b ^^^ (a ^^^ b) = a := by
  rw [UInt8.xor_comm a b, ← UInt8.xor_assoc, UInt8.xor_self, UInt8.zero_xor]

theorem xor_swap_right (a b : UInt8) : a ^^^ (a ^^^ b) = b := by
  rw [← UInt8.xor_assoc, UInt8.xor_self, UInt8.zero_xor]

/-- One round exchanges its two bytes. The indices differ, so no exclusive or meets itself. -/
theorem byteOrderChangeRound_eq {len i : Nat} {p : List UInt8} (hi : i < len / 2)
    (hlen : len ≤ p.length) :
    byteOrderChangeRound len p i =
      (p.set i (p.getD (len - i - 1) 0)).set (len - i - 1) (p.getD i 0) := by
  have hne : i ≠ len - i - 1 := by omega
  have hi' : i < p.length := by omega
  have hm : len - i - 1 < p.length := by omega
  simp only [byteOrderChangeRound, List.getD_eq_getElem?_getD, List.getElem?_set, List.length_set,
    hne, hne.symm, hi', hm, if_true, if_false, Option.getD_some, xor_swap_left]
  rw [List.set_comm _ _ hne, List.set_set, List.set_comm _ _ hne]
  congr 2
  rw [UInt8.xor_comm, xor_swap_right]

theorem byteOrderChangeRound_getD {len i : Nat} {p : List UInt8} (hi : i < len / 2)
    (hlen : len ≤ p.length) (j : Nat) :
    (byteOrderChangeRound len p i).getD j 0 =
      if j = i then p.getD (len - i - 1) 0
      else if j = len - i - 1 then p.getD i 0
      else p.getD j 0 := by
  rw [byteOrderChangeRound_eq hi hlen]
  grind

/-- The loop invariant: after `k` rounds the outer `k` bytes at either end are exchanged. -/
theorem byteOrderChange_rounds {len : Nat} {p : List UInt8} (hlen : len ≤ p.length) (k : Nat)
    (hk : k ≤ len / 2) :
    ((List.range k).foldl (byteOrderChangeRound len) p).length = p.length ∧
      ∀ j, ((List.range k).foldl (byteOrderChangeRound len) p).getD j 0 =
        if j < k ∨ len - k ≤ j ∧ j < len then p.getD (len - j - 1) 0 else p.getD j 0 := by
  induction k with
  | zero =>
      refine ⟨rfl, fun j => ?_⟩
      have : ¬ (j < 0 ∨ len - 0 ≤ j ∧ j < len) := by omega
      rw [if_neg this]
      rfl
  | succ k ih =>
      obtain ⟨hlength, hget⟩ := ih (by omega)
      have hround : k < len / 2 := by omega
      rw [List.range_succ, List.foldl_append, List.foldl_cons, List.foldl_nil]
      refine ⟨by rw [byteOrderChangeRound_length, hlength], fun j => ?_⟩
      rw [byteOrderChangeRound_getD hround (by omega), hget, hget, hget]
      grind

theorem byteOrderChange_eq {len : Nat} {ptr : List UInt8} (hlen : len ≤ ptr.length) :
    byteOrderChange ptr len = (ptr.take len).reverse ++ ptr.drop len := by
  obtain ⟨hlength, hget⟩ : (byteOrderChange ptr len).length = ptr.length ∧
      ∀ j, (byteOrderChange ptr len).getD j 0 =
        if j < len / 2 ∨ len - len / 2 ≤ j ∧ j < len then ptr.getD (len - j - 1) 0
        else ptr.getD j 0 := byteOrderChange_rounds hlen (len / 2) (le_refl _)
  apply List.ext_getElem
  · rw [hlength]
    simp [hlen]
  · intro j hj hj'
    have hval := hget j
    rw [List.getD_eq_getElem?_getD, List.getElem?_eq_getElem hj, Option.getD_some] at hval
    have hlast : (ptr.take len).length - 1 - j = len - j - 1 := by
      rw [List.length_take_of_le hlen]
      omega
    have hcount : (ptr.take len).reverse.length = len := by simp [hlen]
    rw [hval]
    by_cases hjlen : j < len
    · -- an odd length has a byte in the middle, which is its own mirror
      have hmirror : (if j < len / 2 ∨ len - len / 2 ≤ j ∧ j < len then ptr.getD (len - j - 1) 0
          else ptr.getD j 0) = ptr.getD (len - j - 1) 0 := by
        split
        · rfl
        · rw [show len - j - 1 = j by omega]
      rw [hmirror, List.getElem_append_left (by omega), List.getElem_reverse, List.getElem_take,
        List.getD_eq_getElem?_getD, List.getElem?_eq_getElem (by omega), Option.getD_some]
      simp only [hlast]
    · rw [if_neg (by omega), List.getElem_append_right (by omega), List.getElem_drop,
        List.getD_eq_getElem?_getD, List.getElem?_eq_getElem (by omega), Option.getD_some]
      simp only [hcount, show len + (j - len) = j by omega]

theorem setMemValTypeSystemToBig_eq {buf bytes : List UInt8} {off : Nat}
    (h : off + bytes.length ≤ buf.length) :
    setMemValTypeSystemToBig buf off bytes = storeAt buf off bytes.reverse := by
  have htake : (buf.take off).length = off := by
    rw [List.length_take]
    omega
  have hdrop : (storeAt buf off bytes).drop off = bytes ++ buf.drop (off + bytes.length) := by
    rw [storeAt, List.append_assoc, List.drop_append_of_le_length (by omega),
      List.drop_of_length_le (by omega), List.nil_append]
  have hhead : (storeAt buf off bytes).take off = buf.take off := by
    rw [storeAt, List.append_assoc, List.take_append_of_le_length (by omega),
      List.take_of_length_le (by omega)]
  rw [setMemValTypeSystemToBig, hdrop, hhead, byteOrderChange_eq (by simp)]
  simp [storeAt]

theorem storeAt_append {pre old rest bytes : List UInt8} (h : old.length = bytes.length) :
    storeAt (pre ++ (old ++ rest)) pre.length bytes = pre ++ (bytes ++ rest) := by
  have hdrop : (pre ++ (old ++ rest)).drop (pre.length + bytes.length) = rest := by
    rw [← h, ← List.drop_drop, List.drop_left, List.drop_left]
  rw [storeAt, List.take_left, hdrop, List.append_assoc]

theorem setMemValTypeSystemToBig_append {pre old rest bytes : List UInt8}
    (h : old.length = bytes.length) :
    setMemValTypeSystemToBig (pre ++ (old ++ rest)) pre.length bytes =
      pre ++ (bytes.reverse ++ rest) := by
  rw [setMemValTypeSystemToBig_eq (by simp [h]), storeAt_append (by simp [h])]

theorem setMemValTypeBigToSystem_eq {buf bytes : List UInt8} {off : Nat}
    (h : off + bytes.length ≤ buf.length) :
    setMemValTypeBigToSystem buf off bytes = storeAt buf off bytes.reverse :=
  setMemValTypeSystemToBig_eq h

end McuRegWr
