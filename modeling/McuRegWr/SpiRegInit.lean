import McuRegWr.General.PpUartOpen
import McuRegWr.SpiReg

/-!
# Setting up the transport

`SpiReg_Init` of `spi_reg.c`: the lock file, the SPI device with its four settings and the serial
port, taken one after the other and given back in the opposite order when one of them fails.
-/

namespace McuRegWr

open Base

def UART_SPEED : Nat := 115200

/-- The requests to the SPI device, with what they set. -/
inductive SpiIoc where
  | SPI_IOC_WR_MODE (mode : UInt8)
  | SPI_IOC_WR_LSB_FIRST (lsb_first : UInt8)
  | SPI_IOC_WR_BITS_PER_WORD (bits_per_word : UInt8)
  | SPI_IOC_WR_MAX_SPEED_HZ (spi_speed : UInt32)
  deriving DecidableEq, Repr

def SPI_MODE_3 : UInt8 := 3

inductive InitOp where
  | openPath (path : List Char) (flags : List OpenFlag)
  | close (fd : Int)
  | flock (fd : Int) (operation : FlockOp)
  | ioctl (fd : Int) (request : SpiIoc)
  | uartOpen (uart_name : List Char) (speed databits stopbits : Nat) (parity : Char)
  | mutexInit
  deriving DecidableEq

@[reducible] def InitOp.Ans : InitOp → Type
  | .openPath _ _ => Int
  | .close _ => Unit
  | .flock _ _ => Int
  | .ioctl _ _ => Int
  | .uartOpen _ _ _ _ _ => Int
  | .mutexInit => Unit

abbrev InitI : Iface := ⟨InitOp, InitOp.Ans⟩

namespace Init

@[simp] def openPath (path : List Char) (flags : List OpenFlag) : Prog InitI Int :=
  @Prog.req InitI (.openPath path flags)

@[simp] def close (fd : Int) : Prog InitI Unit := @Prog.req InitI (.close fd)

@[simp] def flock (fd : Int) (operation : FlockOp) : Prog InitI Int :=
  @Prog.req InitI (.flock fd operation)

@[simp] def ioctl (fd : Int) (request : SpiIoc) : Prog InitI Int :=
  @Prog.req InitI (.ioctl fd request)

@[simp] def uartOpen (uart_name : List Char) (speed databits stopbits : Nat) (parity : Char) :
    Prog InitI Int :=
  @Prog.req InitI (.uartOpen uart_name speed databits stopbits parity)

@[simp] def mutexInit : Prog InitI Unit := @Prog.req InitI .mutexInit

end Init

/-- The handle with the clock it was set up with, which the transport does not read. -/
structure SpiRegDevice extends SpiRegHandle where
  speed : UInt32

/-- `basename`: the last component of a path, and the path itself, which loses its trailing slashes.
-/
def basename (path : List Char) : List Char × List Char :=
  let kept := (path.reverse.dropWhile (· = '/')).reverse
  if path = [] then (['.'], path)
  else if kept = [] then (['/'], path)
  else ((kept.reverse.takeWhile (· ≠ '/')).reverse, kept)

/-- `lock_path`: no part is longer than 40 characters, so it ends within its 512 bytes. -/
def lockPath (spi_name uart_name : List Char) : List Char :=
  "/run/lock/".toList ++ spi_name.take 40 ++ "__".toList ++ uart_name.take 40 ++ ".lock".toList

namespace SpiReg

/-- From the label `open_spi_error` on. -/
def openSpiError (h : SpiRegDevice) (lock_fd ret : Int) : Prog InitI (Int × SpiRegDevice) := do
  let _ ← Init.flock h.lock_fd .LOCK_UN
  Init.close lock_fd
  return (ret, h)

/-- From the labels `uart_open_error` and `ioctl_error` on. -/
def ioctlError (h : SpiRegDevice) (lock_fd fd ret : Int) : Prog InitI (Int × SpiRegDevice) := do
  Init.close fd
  openSpiError h lock_fd ret

/-- `SpiReg_Init`, with the handle it leaves. -/
def init (h : SpiRegDevice) (spi_dev uart_dev : List Char) (spi_speed : UInt32) :
    Prog InitI (Int × SpiRegDevice) := do
  let mode := SPI_MODE_3
  let lsb_first := 0
  let bits_per_word := 8
  let lock_path := lockPath (basename spi_dev).1 (basename uart_dev).1
  -- `basename` cuts the trailing slashes of its argument
  let spi_dev := (basename spi_dev).2
  let uart_dev := (basename uart_dev).2
  let lock_fd ← Init.openPath lock_path [.O_CREAT, .O_RDWR, .O_CLOEXEC]
  if lock_fd < 0 then return (lock_fd, h)
  let h := { h with lock_fd := lock_fd }
  let ret ← Init.flock h.lock_fd .LOCK_EX
  if ret < 0 then
    Init.close lock_fd
    return (ret, h)
  let ret ← Init.openPath spi_dev [.O_RDWR, .O_CLOEXEC]
  if ret < 0 then openSpiError h lock_fd ret else
  let fd := ret
  let ret ← Init.ioctl fd (.SPI_IOC_WR_MODE mode)
  if ret < 0 then ioctlError h lock_fd fd ret else
  let ret ← Init.ioctl fd (.SPI_IOC_WR_LSB_FIRST lsb_first)
  if ret < 0 then ioctlError h lock_fd fd ret else
  let ret ← Init.ioctl fd (.SPI_IOC_WR_BITS_PER_WORD bits_per_word)
  if ret < 0 then ioctlError h lock_fd fd ret else
  let ret ← Init.ioctl fd (.SPI_IOC_WR_MAX_SPEED_HZ spi_speed)
  if ret < 0 then ioctlError h lock_fd fd ret else
  let h : SpiRegDevice := { fd := fd, lock_fd := lock_fd, uart_fd := 0, speed := spi_speed }
  let uart_fd ← Init.uartOpen uart_dev UART_SPEED 8 1 'N'
  let h := { h with uart_fd := uart_fd }
  if h.uart_fd < 0 then ioctlError h lock_fd fd ret else
  Init.mutexInit
  let _ ← Init.flock h.lock_fd .LOCK_UN
  return (0, h)

end SpiReg

def RVM_SPI_PATH : List Char := "/dev/spidev3.0".toList
def RVM_UART_PATH : List Char := "/dev/ttyS1".toList
def RVM_SPI_SPEED : UInt32 := 10000000

/-- `RVMcu_Init`: `h` is the static handle. -/
def RVMcu.init (h : SpiRegDevice) : Prog InitI (Int × SpiRegDevice) :=
  SpiReg.init h RVM_SPI_PATH RVM_UART_PATH RVM_SPI_SPEED

end McuRegWr
