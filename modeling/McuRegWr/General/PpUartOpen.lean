import McuRegWr.Base.FdTable
import McuRegWr.Base.World

/-!
# Opening the serial port

`uart_Open` of `pp_uart.c`, with the settings it makes. An answer of `tcgetattr` carries what is in
the caller's structure afterwards, also when the call failed: `_set_speed` goes on with it.
-/

namespace McuRegWr

open Base

/-- The flags of `open`. -/
inductive OpenFlag where
  | O_RDWR
  | O_CREAT
  | O_NOCTTY
  | O_NONBLOCK
  | O_CLOEXEC
  deriving DecidableEq, Repr

inductive Baud where
  | B1200
  | B2400
  | B4800
  | B9600
  | B19200
  | B38400
  | B57600
  | B115200
  | B230400
  | B460800
  | B576000
  | B921600
  | B1000000
  deriving DecidableEq, Repr

/-- The fields of `struct termios` that are set here. -/
structure Termios where
  c_iflag : UInt32
  c_oflag : UInt32
  c_cflag : UInt32
  c_lflag : UInt32
  c_ispeed : Baud
  c_ospeed : Baud

inductive TcQueue where
  | TCIFLUSH
  | TCIOFLUSH

structure TermiosAns where
  ret : Int
  opt : Termios

inductive TtyOp where
  | openPath (path : List Char) (flags : List OpenFlag)
  | close (fd : Int)
  | tcgetattr (fd : Int)
  /-- `tcsetattr(fd, TCSANOW, &opt)` -/
  | tcsetattr (fd : Int) (opt : Termios)
  | tcflush (fd : Int) (queue : TcQueue)

@[reducible] def TtyOp.Ans : TtyOp → Type
  | .openPath _ _ => Int
  | .close _ => Unit
  | .tcgetattr _ => TermiosAns
  | .tcsetattr _ _ => Int
  | .tcflush _ _ => Unit

abbrev TtyI : Iface := ⟨TtyOp, TtyOp.Ans⟩

namespace Tty

@[simp] def openPath (path : List Char) (flags : List OpenFlag) : Prog TtyI Int :=
  @Prog.req TtyI (.openPath path flags)

@[simp] def close (fd : Int) : Prog TtyI Unit := @Prog.req TtyI (.close fd)

@[simp] def tcgetattr (fd : Int) : Prog TtyI TermiosAns := @Prog.req TtyI (.tcgetattr fd)

@[simp] def tcsetattr (fd : Int) (opt : Termios) : Prog TtyI Int :=
  @Prog.req TtyI (.tcsetattr fd opt)

@[simp] def tcflush (fd : Int) (queue : TcQueue) : Prog TtyI Unit :=
  @Prog.req TtyI (.tcflush fd queue)

/-- What the calls do to the descriptors of the process. The settings of a port are not among them.
-/
def world : World TtyI FdTable
  | fds, .openPath _ _, fd, fds' => fds.Opens fd fds'
  | fds, .close fd, _, fds' => fds' = fds.set fd .closed
  | fds, .tcgetattr _, _, fds' => fds' = fds
  | fds, .tcsetattr _ _, _, fds' => fds' = fds
  | fds, .tcflush _ _, _, fds' => fds' = fds

end Tty

/-! ### The settings -/

def CSIZE : UInt32 := 0x30
def CS5 : UInt32 := 0x00
def CS6 : UInt32 := 0x10
def CS7 : UInt32 := 0x20
def CS8 : UInt32 := 0x30
def CSTOPB : UInt32 := 0x40
def PARENB : UInt32 := 0x100
def PARODD : UInt32 := 0x200
def IGNBRK : UInt32 := 0x1
def BRKINT : UInt32 := 0x2
def PARMRK : UInt32 := 0x8
def INPCK : UInt32 := 0x10
def ISTRIP : UInt32 := 0x20
def INLCR : UInt32 := 0x40
def IGNCR : UInt32 := 0x80
def ICRNL : UInt32 := 0x100
def IXON : UInt32 := 0x400
def IXANY : UInt32 := 0x800
def IXOFF : UInt32 := 0x1000
def OPOST : UInt32 := 0x1
def ONLCR : UInt32 := 0x4
def OCRNL : UInt32 := 0x8
def ONOCR : UInt32 := 0x10
def ONLRET : UInt32 := 0x20
def ISIG : UInt32 := 0x1
def ICANON : UInt32 := 0x2
def ECHO : UInt32 := 0x8
def ECHOE : UInt32 := 0x10

/-- `baudRate_tab` and `speed_arr`, entry by entry. -/
def speedTab : List (Nat × Baud) :=
  [(1200, .B1200), (2400, .B2400), (4800, .B4800), (9600, .B9600), (19200, .B19200),
    (38400, .B38400), (57600, .B57600), (115200, .B115200), (230400, .B230400),
    (460800, .B460800), (576000, .B576000), (921600, .B921600), (1000000, .B1000000)]

namespace Uart

/-- The loop of `_set_speed` over what is left of the table. -/
def setSpeedFrom (fd : Int) (speed : Nat) (opt : Termios) : List (Nat × Baud) → Prog TtyI Int
  | [] => return -1
  | (baudRate, baud) :: rest => do
      if speed = baudRate then
        Tty.tcflush fd .TCIOFLUSH
        let opt := { opt with c_ispeed := baud, c_ospeed := baud }
        let status ← Tty.tcsetattr fd opt
        if status ≠ 0 then return -1
        return 0
      Tty.tcflush fd .TCIOFLUSH
      setSpeedFrom fd speed opt rest

def setSpeed (fd : Int) (speed : Nat) : Prog TtyI Int := do
  let opt ← Tty.tcgetattr fd
  setSpeedFrom fd speed opt.opt speedTab

/-- The `case`s of `_set_parity` for the number of data bits. -/
def databitsFlag (databits : Nat) : Option UInt32 :=
  if databits = 5 then some CS5
  else if databits = 6 then some CS6
  else if databits = 7 then some CS7
  else if databits = 8 then some CS8
  else none

/-- The `case`s for the parity. -/
def withParity (options : Termios) (parity : Char) : Option Termios :=
  if parity = 'n' ∨ parity = 'N' then
    some { options with
      c_cflag := options.c_cflag &&& ~~~PARENB, c_iflag := options.c_iflag &&& ~~~INPCK }
  else if parity = 'o' ∨ parity = 'O' then
    some { options with
      c_cflag := options.c_cflag ||| (PARODD ||| PARENB), c_iflag := options.c_iflag ||| INPCK }
  else if parity = 'e' ∨ parity = 'E' then
    some { options with
      c_cflag := (options.c_cflag ||| PARENB) &&& ~~~PARODD,
      c_iflag := options.c_iflag ||| INPCK }
  else none

/-- The `case`s for the stop bits. -/
def withStopbits (options : Termios) (stopbits : Nat) : Option Termios :=
  if stopbits = 1 then some { options with c_cflag := options.c_cflag &&& ~~~CSTOPB }
  else if stopbits = 2 then some { options with c_cflag := options.c_cflag ||| CSTOPB }
  else none

/-- Raw mode. -/
def withRaw (options : Termios) : Termios :=
  { options with
    c_lflag := options.c_lflag &&& ~~~(ICANON ||| ECHO ||| ECHOE ||| ISIG)
    c_oflag := options.c_oflag &&& ~~~(OPOST ||| ONLCR ||| OCRNL ||| ONOCR ||| ONLRET)
    c_iflag := options.c_iflag &&& ~~~(IGNBRK ||| BRKINT ||| PARMRK ||| ISTRIP ||| INLCR ||| IXON |||
      IXOFF ||| IXANY ||| ICRNL ||| IGNCR) }

/-- The three `switch`es of `_set_parity`: each leaves with an error where it has no `case`. -/
def parityOptions (options : Termios) (databits stopbits : Nat) (parity : Char) :
    Option Termios := do
  let options := { options with c_cflag := options.c_cflag &&& ~~~CSIZE }
  let flag ← databitsFlag databits
  let options := { options with c_cflag := options.c_cflag ||| flag }
  let options ← withParity options parity
  withStopbits options stopbits

def setParity (fd : Int) (databits stopbits : Nat) (parity : Char) : Prog TtyI Int := do
  let ans ← Tty.tcgetattr fd
  if ans.ret ≠ 0 then return -1
  match parityOptions ans.opt databits stopbits parity with
  | none => return -1
  | some options =>
      Tty.tcflush fd .TCIFLUSH
      let ret ← Tty.tcsetattr fd (withRaw options)
      if ret ≠ 0 then return -1
      return 0

/-- `uart_Open` -/
def openPort (uart_name : List Char) (speed databits stopbits : Nat) (parity : Char) :
    Prog TtyI Int := do
  let uart_fd ← Tty.openPath uart_name [.O_RDWR, .O_NOCTTY, .O_NONBLOCK, .O_CLOEXEC]
  if uart_fd < 0 then return -1
  let ret ← setSpeed uart_fd speed
  if ret ≠ 0 then
    Tty.close uart_fd
    return -1
  let ret ← setParity uart_fd databits stopbits parity
  if ret ≠ 0 then
    Tty.close uart_fd
    return -1
  return uart_fd

end Uart

end McuRegWr
