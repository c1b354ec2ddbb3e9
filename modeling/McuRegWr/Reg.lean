import McuRegWr.Base.World
import McuRegWr.General.MemCtrl
import McuRegWr.Sys

/-!
# Register accesses and files

What the layers above the transport ask for. A register access either fails with a negative value or
moves exactly the bytes it names, which is what the transport guarantees of `SpiReg_Read` and
`SpiReg_Write`.
-/

namespace McuRegWr

open Base

inductive RegOp where
  | readReg (reg_addr reg_cnt : UInt16) (timeout : UInt32)
  | writeReg (reg_addr : UInt16) (reg_data : List UInt8) (timeout : UInt32)
  /-- `open(path, O_RDONLY)` -/
  | openFile (path : String)
  | readFile (fd : Int) (count : Nat)
  | closeFile (fd : Int)
  | usleep (usec : Nat)

@[reducible] def RegOp.Ans : RegOp → Type
  | .readReg _ reg_cnt _ => Except Fail {bytes : List UInt8 // bytes.length = reg_cnt.toNat}
  | .writeReg _ _ _ => Except Fail Unit
  | .openFile _ => Int
  | .readFile _ count => Except Fail {bytes : List UInt8 // bytes.length ≤ count}
  | .closeFile _ => Unit
  | .usleep _ => Unit

abbrev RegI : Iface := ⟨RegOp, RegOp.Ans⟩

namespace File

@[simp] def openRdonly (path : String) : Prog RegI Int := @Prog.req RegI (.openFile path)

@[simp] def read (fd : Int) (count : Nat) :
    Prog RegI (Except Fail {bytes : List UInt8 // bytes.length ≤ count}) :=
  @Prog.req RegI (.readFile fd count)

@[simp] def close (fd : Int) : Prog RegI Unit := @Prog.req RegI (.closeFile fd)

@[simp] def usleep (usec : Nat) : Prog RegI Unit := @Prog.req RegI (.usleep usec)

end File

namespace RVMcu

/-- `RVMcu_ReadReg`: the result and the caller's buffer. -/
def readReg (reg_addr : UInt16) (reg_data : List UInt8) (reg_cnt : UInt16) (timeout : UInt32) :
    Prog RegI (Int × List UInt8) := do
  match ← @Prog.req RegI (.readReg reg_addr reg_cnt timeout) with
  | .error code => return (code.val, reg_data)
  | .ok bytes => return (0, storeAt reg_data 0 bytes.val)

/-- `RVMcu_WriteReg` -/
def writeReg (reg_addr : UInt16) (reg_data : List UInt8) (reg_cnt : UInt16) (timeout : UInt32) :
    Prog RegI Int := do
  match ← @Prog.req RegI (.writeReg reg_addr (reg_data.take reg_cnt.toNat) timeout) with
  | .error code => return code.val
  | .ok _ => return 0

variable {P : RegOp → Prop} {reg_addr reg_cnt : UInt16} {reg_data : List UInt8} {timeout : UInt32}

theorem asks_readReg (h : P (.readReg reg_addr reg_cnt timeout)) :
    (readReg reg_addr reg_data reg_cnt timeout).Asks P := by
  refine ⟨h, fun r => ?_⟩
  cases r <;> trivial

theorem asks_writeReg (h : P (.writeReg reg_addr (reg_data.take reg_cnt.toNat) timeout)) :
    (writeReg reg_addr reg_data reg_cnt timeout).Asks P := by
  refine ⟨h, fun r => ?_⟩
  cases r <;> trivial

end RVMcu

/-- The host's value of four bytes. -/
def word32 (bytes : List UInt8) : UInt32 := UInt32.ofNat (ofLeBytes bytes)

/-- The host's bytes of a 32-bit value. -/
abbrev bytes32 (v : UInt32) : List UInt8 := leBytes 4 v.toNat

/-- The host's value of four bytes as an `int`. -/
def int32 (bytes : List UInt8) : Int := (word32 bytes).toBitVec.toInt

theorem toNat_word32 {bytes : List UInt8} (h : bytes.length = 4) :
    (word32 bytes).toNat = ofLeBytes bytes := by
  have hlt : ofLeBytes bytes < 2 ^ 32 := (ofLeBytes_lt bytes).trans_eq (by rw [h]; rfl)
  rw [word32, UInt32.toNat_ofNat', Nat.mod_eq_of_lt hlt]

theorem word32_bytes32 (v : UInt32) : word32 (bytes32 v) = v := by
  apply UInt32.toNat_inj.mp
  rw [toNat_word32 (length_leBytes _ _)]
  exact ofLeBytes_leBytes_of_lt v.toNat_lt

theorem storeAt_bytes32 {bytes : List UInt8} (h : bytes.length = 4) (v : UInt32) :
    storeAt (bytes32 v) 0 bytes = bytes := by
  have hdrop : (bytes32 v).drop (0 + bytes.length) = [] :=
    List.drop_of_length_le (by rw [length_leBytes]; omega)
  rw [storeAt, hdrop, List.append_nil]
  rfl

end McuRegWr
