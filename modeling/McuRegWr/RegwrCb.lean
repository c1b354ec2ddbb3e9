import McuRegWr.Reg

/-!
# Ring buffers behind registers

The client side of `regwr_cb.c`. A ring of the MCU is driven by a block of registers: one reads its
level, one its free space, one moves data out and one moves data in.
-/

namespace McuRegWr

open Base

def CBREG_CMD_GET_SIZE : UInt16 := 0x00
def CBREG_CMD_GET_FREESIZE : UInt16 := 0x01
def CBREG_CMD_READ : UInt16 := 0x02
def CBREG_CMD_WRITE : UInt16 := 0x03
def CBREG_CMD_CLEAN : UInt16 := 0x04
def CBREG_CMD_READAIR : UInt16 := 0x05
def CBREG_CMD_PEEP : UInt16 := 0x06

/-- The two function pointers of a handle. -/
structure RegWrCbHandle (I : Iface) where
  write_reg : UInt16 → List UInt8 → UInt16 → UInt32 → Prog I Int
  read_reg : UInt16 → List UInt8 → UInt16 → UInt32 → Prog I (Int × List UInt8)

namespace RegWrCb

variable {I : Iface} (h : RegWrCbHandle I) (cb_addr : UInt16)

/-- The body of `RegWrCb_Size` and `RegWrCb_FreeSize`, which read different registers. -/
def level (cmd : UInt16) (timeout : UInt32) : Prog I Int := do
  let (ret, size) ← h.read_reg (cb_addr + cmd) (bytes32 0) 4 timeout
  if ret < 0 then return ret
  return int32 size

def size (timeout : UInt32) : Prog I Int := level h cb_addr CBREG_CMD_GET_SIZE timeout

def freeSize (timeout : UInt32) : Prog I Int := level h cb_addr CBREG_CMD_GET_FREESIZE timeout

/-- The lesser of a 16-bit length and a positive `int`, as the code computes it. -/
def clamp (len : UInt16) (ret : Int) : UInt16 :=
  if (len.toNat : Int) > ret then UInt16.ofNat ret.toNat else len

/-- The body of `RegWrCb_Read` and `RegWrCb_Peep`. -/
def readBy (cmd : UInt16) (buf : List UInt8) (buf_size timeout : UInt32) :
    Prog I (Int × List UInt8) := do
  let r_len := buf_size.toUInt16
  let ret ← size h cb_addr timeout
  if ret < 0 then return (ret, buf)
  if ret = 0 then return (0, buf)
  let r_len := clamp r_len ret
  let (ret, buf) ← h.read_reg (cb_addr + cmd) buf r_len timeout
  if ret < 0 then return (ret, buf)
  return (r_len.toNat, buf)

def read (buf : List UInt8) (buf_size timeout : UInt32) : Prog I (Int × List UInt8) :=
  readBy h cb_addr CBREG_CMD_READ buf buf_size timeout

def peep (buf : List UInt8) (buf_size timeout : UInt32) : Prog I (Int × List UInt8) :=
  readBy h cb_addr CBREG_CMD_PEEP buf buf_size timeout

/-- The number of whole grains of `gran_size` in `ret` bytes, at most `num`: computed in `uint32_t`
and kept in a `uint16_t`. -/
def grains (ret : Int) (gran_size : UInt32) (num : UInt16) : UInt16 :=
  let whole := UInt32.ofNat ret.toNat / gran_size
  if whole > num.toUInt32 then num else whole.toUInt16

def granRead (data : List UInt8) (gran_size nmemb timeout : UInt32) :
    Prog I (Int × List UInt8) := do
  let r_num := nmemb.toUInt16
  let ret ← size h cb_addr timeout
  if ret < 0 then return (ret, data)
  let r_num := grains ret gran_size r_num
  if r_num = 0 then return (0, data)
  let r_len := (r_num.toUInt32 * gran_size).toUInt16
  let (ret, data) ← h.read_reg (cb_addr + CBREG_CMD_READ) data r_len timeout
  if ret < 0 then return (ret, data)
  return (r_num.toNat, data)

def write (data : List UInt8) (data_size timeout : UInt32) : Prog I Int := do
  let w_len := data_size.toUInt16
  let ret ← freeSize h cb_addr timeout
  if ret < 0 then return ret
  if ret = 0 then return 0
  let w_len := clamp w_len ret
  let ret ← h.write_reg (cb_addr + CBREG_CMD_WRITE) data w_len timeout
  if ret < 0 then return ret
  return w_len.toNat

def granWrite (data : List UInt8) (gran_size nmemb timeout : UInt32) : Prog I Int := do
  let w_num := nmemb.toUInt16
  let ret ← freeSize h cb_addr timeout
  if ret < 0 then return ret
  let w_num := grains ret gran_size w_num
  if w_num = 0 then return 0
  let w_len := (w_num.toUInt32 * gran_size).toUInt16
  let ret ← h.write_reg (cb_addr + CBREG_CMD_WRITE) data w_len timeout
  if ret < 0 then return ret
  return w_num.toNat

def clean (timeout : UInt32) : Prog I Int := do
  let ret ← h.write_reg (cb_addr + CBREG_CMD_CLEAN) [0x00] 1 timeout
  if ret < 0 then return ret
  return 0

def readAir (read_size timeout : UInt32) : Prog I Int := do
  let r_len := read_size.toUInt16.toUInt32
  let ret ← size h cb_addr timeout
  if ret < 0 then return ret
  if ret = 0 then return 0
  let r_len := if r_len > UInt32.ofNat ret.toNat then UInt32.ofNat ret.toNat else r_len
  let ret ← h.write_reg (cb_addr + CBREG_CMD_READAIR) (bytes32 r_len) 4 timeout
  if ret < 0 then return ret
  return r_len.toNat

end RegWrCb

end McuRegWr
