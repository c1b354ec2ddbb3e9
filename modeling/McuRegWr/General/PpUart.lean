import McuRegWr.Sys

/-!
# The serial port

The calls of `pp_uart.c` the transport uses.
-/

namespace McuRegWr

open Base

namespace Uart

def write (fd : Int) (data : List UInt8) : Prog SysI Int := Sys.write fd data

def inClean (fd : Int) : Prog SysI Unit := Sys.tcflush fd

/-- One round of the loop of `uart_Read`. The state is what has been stored so far, and a round that
leaves returns the function's result beside it. -/
def readRound (fd : Int) (buf_size : Nat) (timeout : Int) (data_buf : List UInt8) :
    Prog SysI (List UInt8 ⊕ (Int × List UInt8)) := do
  if data_buf.length < buf_size then
    let fdset ← Sys.poll fd timeout
    if fdset.ret < 0 then return .inr (fdset.ret, data_buf)
    if fdset.ret = 0 then return .inr (data_buf.length, data_buf)
    if fdset.pollin then
      match ← Sys.read fd (buf_size - data_buf.length) with
      | .error rn => return .inr (rn.val, data_buf)
      | .ok bytes =>
          if bytes.val = [] then return .inr (data_buf.length, data_buf)
          return .inl (data_buf ++ bytes.val)
    else return .inr (data_buf.length, data_buf)
  else return .inr (data_buf.length, data_buf)

/-- `uart_Read`: the result and the bytes stored. Every round but the last stores a byte, so the
fuel is never used up. -/
def read (fd : Int) (buf_size : Nat) (timeout : Int) : Prog SysI (Int × List UInt8) :=
  Prog.loop (readRound fd buf_size timeout) (buf_size + 1) []

theorem read_one (fd timeout : Int) : read fd 1 timeout = (do
    let fdset ← Sys.poll fd timeout
    if fdset.ret < 0 then return (fdset.ret, [])
    if fdset.ret = 0 then return (0, [])
    if fdset.pollin then
      match ← Sys.read fd 1 with
      | .error rn => return (rn.val, [])
      | .ok bytes => return (bytes.val.length, bytes.val)
    else return (0, [])) := by
  simp only [read, Prog.loop, readRound, List.length_nil, Nat.zero_lt_one, if_true, Sys.poll,
    Sys.read, Prog.req_eq, Prog.ask_bind, Prog.done_bind]
  refine congrArg (@Prog.ask SysI _ _) (funext fun fdset => ?_)
  by_cases hneg : fdset.ret < 0
  · simp only [if_pos hneg, Prog.pure_eq, Prog.done_bind]
  by_cases hzero : fdset.ret = 0
  · simp only [if_neg hneg, if_pos hzero, Prog.pure_eq, Prog.done_bind, Int.ofNat_zero]
  by_cases hin : fdset.pollin = true
  · simp only [if_neg hneg, if_neg hzero, if_pos hin, Prog.ask_bind]
    refine congrArg (@Prog.ask SysI _ _) (funext fun ans => ?_)
    obtain rn | ⟨bytes, hsize⟩ := ans
    · rfl
    · cases bytes with
      | nil => rfl
      | cons b bs =>
          obtain rfl : bs = [] := by simpa using hsize
          rfl
  · simp only [if_neg hneg, if_neg hzero, if_neg hin, Prog.pure_eq, Prog.done_bind, Int.ofNat_zero]

end Uart

end McuRegWr
