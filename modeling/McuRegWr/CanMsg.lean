import McuRegWr.General.Debug
import McuRegWr.Run

/-!
# Receiving CAN messages

`PCanMsg` and the endless loop of `fun_loop_receive_can_msg`, which prints every message it
receives.
-/

namespace McuRegWr

open Base

structure PCanMsg where
  can_id : UInt32
  can_data : List UInt8
  can_time : UInt16
  can_len : UInt8
  flag : UInt8
  deriving DecidableEq, Repr

namespace PCanMsg

/-- The message that some bytes begin with, on this host. -/
def ofBytes (bytes : List UInt8) : PCanMsg where
  can_id := word32 (bytes.take 4)
  can_data := (List.range 8).map fun i => bytes.getD (4 + i) 0
  can_time := UInt16.ofNat (ofLeBytes [bytes.getD 12 0, bytes.getD 13 0])
  can_len := bytes.getD 14 0
  flag := bytes.getD 15 0

/-- The eight arguments `can_data[0]` to `can_data[7]`. -/
def dataArgs (msg : PCanMsg) : List DbgArg := msg.can_data.map fun b => .int b.toNat

/-- The line printed with `is_can_print_asc`. -/
def ascLine (msg : PCanMsg) (rtime : Rat) : DbgLine :=
  dbgInforaw "%.6f 1 %08xx Rx d %d %02x %02x %02x %02x %02x %02x %02x %02x\n"
    (.real rtime :: .int msg.can_id.toNat :: .int msg.can_len.toNat :: msg.dataArgs)

/-- The line printed without. -/
def candumpLine (msg : PCanMsg) : DbgLine :=
  dbgInforaw " MCUCAN  %08x  [%d]  %02x %02x %02x %02x %02x %02x %02x %02x \n"
    (.int msg.can_id.toNat :: .int msg.can_len.toNat :: msg.dataArgs)

end PCanMsg

/-- The variables of `fun_loop_receive_can_msg`, and the lines it has printed. A `double` is its
value in exact arithmetic. -/
structure CanReceive where
  can_msg : List UInt8
  is_once : Bool
  last_rtime : UInt16
  rtime : Rat
  lines : List DbgLine

namespace CanReceive

/-- The variables before the first receive. `last_rtime` and `rtime` are not initialized. -/
def start (last_rtime : UInt16) (rtime : Rat) : CanReceive :=
  ⟨List.replicate (PCAN_MSG_SIZE.toNat * TEST_CAN_BUF_SIZE.toNat) 0, true, last_rtime, rtime, []⟩

/-- `can_msg[i]` -/
def msgAt (b : CanReceive) (i : Nat) : PCanMsg :=
  .ofBytes (b.can_msg.drop (PCAN_MSG_SIZE.toNat * i))

def print (b : CanReceive) (line : DbgLine) : CanReceive := { b with lines := b.lines ++ [line] }

/-- The body of the `for` loop. -/
def showMsg (is_can_print_asc : Bool) (b : CanReceive) (msg : PCanMsg) : CanReceive :=
  if is_can_print_asc then
    let rtime :=
      if b.is_once then 0
      else b.rtime + (((msg.can_time - b.last_rtime).toNat : Rat) / 1000 + 1 / 1000000)
    CanReceive.print { b with is_once := false, last_rtime := msg.can_time, rtime := rtime }
      (msg.ascLine rtime)
  else b.print msg.candumpLine

end CanReceive

/-- One round of `fun_loop_receive_can_msg`. -/
def canReceiveRound (is_can_print_asc : Bool) (b : CanReceive) :
    Prog RegI (CanReceive ⊕ Int) := do
  let (ret, can_msg) ← RVMcu.receiveCanMsgBlock b.can_msg TEST_CAN_BUF_SIZE 200
  let b := { b with can_msg := can_msg }
  if ret < 0 then
    return .inl (CanReceive.print b (dbgErrfl "fun_loop_receive_can_msg" 380
      "RVMcu_ReceiveCanMsgBlock error! ret = %d" [.int ret]))
  if ret = 0 then
    File.usleep 500
    return .inl b
  return .inl ((List.range ret.toNat).foldl (fun b i => b.showMsg is_can_print_asc (b.msgAt i)) b)

/-- `fun_loop_receive_can_msg` never returns: it is what it has done within any number of rounds. -/
def funLoopReceiveCanMsg (is_can_print_asc : Bool) (last_rtime : UInt16) (rtime : Rat)
    (fuel : Nat) : Prog RegI Int := do
  let _ ← RVMcu.cleanRxFifo 200
  Prog.loop (canReceiveRound is_can_print_asc) fuel (.start last_rtime rtime)

end McuRegWr
