import McuRegWr.General.MemCtrl

/-!
# The swap undone

Reversal is its own inverse. So a value that was stored with its bytes swapped, and is then taken
from there and stored with its bytes swapped, is the host's value again.
-/

namespace McuRegWr

open Base

variable {buf bytes : List UInt8} {off len : Nat}

theorem byteOrderChange_twice {ptr : List UInt8} (hlen : len ≤ ptr.length) :
    byteOrderChange (byteOrderChange ptr len) len = ptr := by
  have hcount : (ptr.take len).reverse.length = len := by
    rw [List.length_reverse, List.length_take_of_le hlen]
  have hlen' : len ≤ (byteOrderChange ptr len).length := by
    rw [byteOrderChange_eq hlen, List.length_append, hcount]
    exact Nat.le_add_right _ _
  rw [byteOrderChange_eq hlen', byteOrderChange_eq hlen, List.take_append_of_le_length hcount.ge,
    List.take_of_length_le hcount.le, List.reverse_reverse, List.drop_append_of_le_length hcount.ge,
    List.drop_of_length_le hcount.le, List.nil_append, List.take_append_drop]

theorem getMemVal_storeAt (h : off + bytes.length ≤ buf.length) :
    getMemVal (storeAt buf off bytes) off bytes.length = bytes := by
  have hoff : (buf.take off).length = off := List.length_take_of_le (by omega)
  rw [getMemVal, storeAt, List.append_assoc, List.drop_append_of_le_length hoff.ge,
    List.drop_of_length_le hoff.le, List.nil_append, List.take_left]

theorem getMemVal_setMemValTypeSystemToBig (h : off + bytes.length ≤ buf.length) :
    getMemVal (setMemValTypeSystemToBig buf off bytes) off bytes.length = bytes.reverse := by
  have hstored := @getMemVal_storeAt buf bytes.reverse off (by rwa [List.length_reverse])
  rwa [List.length_reverse, ← setMemValTypeSystemToBig_eq h] at hstored

theorem getMemVal_setMemValTypeBigToSystem (h : off + bytes.length ≤ buf.length) :
    getMemVal (setMemValTypeBigToSystem buf off bytes) off bytes.length = bytes.reverse :=
  getMemVal_setMemValTypeSystemToBig h

/-- The swap reverses the first `len` bytes and leaves the later ones; made twice it does nothing;
and `SET_MEM_VAL_TYPE_BIG_TO_SYSTEM` makes of the bytes that `SET_MEM_VAL_TYPE_SYSTEM_TO_BIG` has
left of a value of `size` bytes that value again. -/
theorem byteOrderChange_exact {ptr : List UInt8} {len : Nat} (hlen : len ≤ ptr.length) :
    byteOrderChange ptr len = (ptr.take len).reverse ++ ptr.drop len ∧
    byteOrderChange (byteOrderChange ptr len) len = ptr ∧
    ∀ (size val : Nat) (big system : List UInt8) (off off' : Nat), val < 256 ^ size →
      off + size ≤ big.length → off' + size ≤ system.length →
      ofLeBytes (getMemVal (setMemValTypeBigToSystem system off'
        (getMemVal (setMemValTypeSystemToBig big off (leBytes size val)) off size)) off' size) =
          val := by
  refine ⟨byteOrderChange_eq hlen, byteOrderChange_twice hlen, ?_⟩
  intro size val big system off off' hval hbig hsystem
  have hsize : (leBytes size val).length = size := length_leBytes size val
  have hswapped : getMemVal (setMemValTypeSystemToBig big off (leBytes size val)) off size =
      (leBytes size val).reverse := by
    have hget := @getMemVal_setMemValTypeSystemToBig big (leBytes size val) off (by rwa [hsize])
    rwa [hsize] at hget
  have hback : getMemVal (setMemValTypeBigToSystem system off' (leBytes size val).reverse) off'
      size = leBytes size val := by
    have hget := @getMemVal_setMemValTypeBigToSystem system (leBytes size val).reverse off'
      (by rwa [List.length_reverse, hsize])
    rwa [List.length_reverse, hsize, List.reverse_reverse] at hget
  rw [hswapped, hback, ofLeBytes_leBytes_of_lt hval]

/-- Three of four bytes, and a value of two bytes at an offset. -/
theorem byteOrderChange_exact_three :
    byteOrderChange [1, 2, 3, 4] 3 = [3, 2, 1, 4] ∧
    ofLeBytes (getMemVal (setMemValTypeBigToSystem [0, 0] 0
      (getMemVal (setMemValTypeSystemToBig [7, 7, 7, 7] 1 (leBytes 2 0x1234)) 1 2)) 0 2) =
        0x1234 := by
  obtain ⟨hreverse, -, hundo⟩ :=
    byteOrderChange_exact (show 3 ≤ [(1 : UInt8), 2, 3, 4].length by decide)
  exact ⟨hreverse, hundo 2 0x1234 [7, 7, 7, 7] [0, 0] 1 0 (by decide) (by decide) (by decide)⟩

end McuRegWr
