import McuRegWr.Base.Numeral

/-!
# Hex dumps

`debug_phex`, which prints the bytes that a read of registers has brought.
-/

namespace McuRegWr

open Base CStr

def DEBUG_BUF_SIZE : Nat := 4096

/-- `"|0x%08x| "` -/
def phexLabel (y : Nat) : List UInt8 :=
  (ofAscii "|0x").val ++ padded 16 8 (y * 16) ++ (ofAscii "| ").val

/-- `"%02x "` -/
def phexByte (b : UInt8) : List UInt8 := padded 16 2 b.toNat ++ [0x20]

/-- The prints of a line with `x_n` bytes. A full line is printed by a loop of its own, without the
test. -/
def phexRow (start : List UInt8) (y x_n : Nat) : List (List UInt8) :=
  phexLabel y :: (List.range 16).map (fun x =>
    if x < x_n then phexByte (start.getD (y * 16 + x) 0) else (ofAscii "   ").val) ++
    [(ofAscii "|\r\n").val]

def phexRule : List UInt8 :=
  (ofAscii "--------------------------------------------------------------\r\n").val

/-- `debug_phex`: what each `_debug_nolock_printf` gives to `dbg_out_str`, in order. -/
def debugPhex (start : List UInt8) (len : Nat) : List (List UInt8) :=
  let y_n := len / 16
  let x_n := len % 16
  [(ofAscii "______________________________________________________________\r\n").val,
    (ofAscii "            | 0| 1| 2| 3| 4| 5| 6| 7| 8| 9| A| B| C| D| E| F||\r\n").val, phexRule] ++
    (List.range y_n).flatMap (fun y => phexRow start y 16) ++
    (if x_n ≠ 0 then phexRow start y_n x_n else []) ++ [phexRule]

end McuRegWr
