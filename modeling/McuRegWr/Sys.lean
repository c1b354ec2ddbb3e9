import McuRegWr.Base.World

/-!
# The system calls of the transport

What `spi_reg.c` and `pp_uart.c` ask of the kernel. An answer carries what the call returns and what
it stores through its pointers, with the sizes the call guarantees.
-/

namespace McuRegWr

open Base

inductive FlockOp where
  | LOCK_EX
  | LOCK_UN
  deriving DecidableEq, Repr

/-- The answer of `poll` on one descriptor: its return value, and whether `POLLIN` is in `revents`.
-/
structure PollAns where
  ret : Int
  pollin : Bool


/-- The answer of a failed call: a negative value. -/
abbrev Fail : Type := {code : Int // code < 0}

/-- The answer of a transfer of `n` bytes: the return value of `ioctl` and the bytes received. -/
structure SpiAns (n : Nat) where
  ret : Int
  rx : List UInt8
  length_rx : rx.length = n

inductive SysOp where
  | mutexLock
  | mutexUnlock
  | flock (fd : Int) (operation : FlockOp)
  /-- `tcflush(fd, TCIFLUSH)` -/
  | tcflush (fd : Int)
  | write (fd : Int) (data : List UInt8)
  | poll (fd : Int) (timeout : Int)
  | read (fd : Int) (size : Nat)
  /-- `ioctl(fd, SPI_IOC_MESSAGE(1), ..)` -/
  | spiMessage (fd : Int) (tx : List UInt8)

@[reducible] def SysOp.Ans : SysOp → Type
  | .mutexLock => Unit
  | .mutexUnlock => Unit
  | .flock _ _ => Int
  | .tcflush _ => Unit
  | .write _ _ => Int
  | .poll _ _ => PollAns
  | .read _ size => Except Fail {bytes : List UInt8 // bytes.length ≤ size}
  | .spiMessage _ tx => SpiAns tx.length

abbrev SysI : Iface := ⟨SysOp, SysOp.Ans⟩

namespace Sys

@[simp] def mutexLock : Prog SysI Unit := @Prog.req SysI .mutexLock

@[simp] def mutexUnlock : Prog SysI Unit := @Prog.req SysI .mutexUnlock

@[simp] def flock (fd : Int) (operation : FlockOp) : Prog SysI Int :=
  @Prog.req SysI (.flock fd operation)

@[simp] def tcflush (fd : Int) : Prog SysI Unit := @Prog.req SysI (.tcflush fd)

@[simp] def write (fd : Int) (data : List UInt8) : Prog SysI Int := @Prog.req SysI (.write fd data)

@[simp] def poll (fd timeout : Int) : Prog SysI PollAns := @Prog.req SysI (.poll fd timeout)

@[simp] def read (fd : Int) (size : Nat) :
    Prog SysI (Except Fail {bytes : List UInt8 // bytes.length ≤ size}) :=
  @Prog.req SysI (.read fd size)

@[simp] def spiMessage (fd : Int) (tx : List UInt8) : Prog SysI (SpiAns tx.length) :=
  @Prog.req SysI (.spiMessage fd tx)

end Sys

end McuRegWr
