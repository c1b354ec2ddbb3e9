import McuRegWr.General.CrcCheck
import McuRegWr.General.MemCtrl
import McuRegWr.General.PpUart

/-!
# Registers over the serial port and the SPI bus

The transport of `spi_reg.c`: a start byte over the serial port, a command frame and a data frame
over SPI, each acknowledged by one byte. Both buffers of the handle are filled with `0xff` before
anything else, so they carry nothing from one call to the next and are locals here.
-/

namespace McuRegWr

open Base

def SPI_RT_MSG_MAX_SIZE : Nat := 1024

def SPI_CMD_READ_REG : UInt8 := 0x03
def SPI_CMD_WRITE_REG : UInt8 := 0x06
/-- `'A'` -/
def SPI_ACK : UInt8 := 65
/-- `'S'` -/
def SPI_CMD_START : UInt8 := 83

def SPI_CMD_LEN : Nat := 8
def CMD_1BYTE_OFFSET : Nat := 0
def CMD_WR_ADDR_2BYTE_OFFSET : Nat := 1
def CMD_WR_LEN_2BYTE_OFFSET : Nat := 3
def CMD_WR_CMD_LEN : UInt16 := 5
def WR_CRC_LEN : Nat := 2
def WR_DATA_ALIGN_BYTE : Nat := 8

structure SpiRegHandle where
  fd : Int
  lock_fd : Int
  uart_fd : Int

/-- The host's bytes of a 16-bit value. -/
abbrev bytes16 (v : UInt16) : List UInt8 := leBytes 2 v.toNat

/-- `_TransferSpi`, with the receive buffer it leaves. -/
def transferSpi (h : SpiRegHandle) (tx_buf rx_buf : List UInt8) (length : Nat) :
    Prog SysI (Int × List UInt8) := do
  let transfer ← Sys.spiMessage h.fd (tx_buf.take length)
  return (transfer.ret, storeAt rx_buf 0 transfer.rx)

/-- The `(int)timeout` of the calls to `uart_Read`. -/
def timeoutInt (timeout : UInt32) : Int := timeout.toBitVec.toInt

def gotoStartCmd (h : SpiRegHandle) (timeout : UInt32) : Prog SysI Int := do
  let ch := SPI_CMD_START
  Uart.inClean h.uart_fd
  let ret ← Uart.write h.uart_fd [ch]
  if ret ≠ 1 then return -1
  let (ret, buf) ← Uart.read h.uart_fd 1 (timeoutInt timeout)
  if ret ≤ 0 then return -1
  if buf.headD ch ≠ SPI_ACK then return -1
  Uart.inClean h.uart_fd
  return 0

def waitAck (h : SpiRegHandle) (timeout : UInt32) : Prog SysI Int := do
  let ch := 0x00
  let (ret, buf) ← Uart.read h.uart_fd 1 (timeoutInt timeout)
  if ret ≠ 1 ∨ buf.headD ch ≠ SPI_ACK then return -1
  Uart.inClean h.uart_fd
  return 0

/-- The transmit buffer with the command written into it. -/
def commandBuf (cmd : UInt8) (reg_addr reg_cnt : UInt16) : List UInt8 :=
  let tx_buf := List.replicate SPI_RT_MSG_MAX_SIZE 0xff
  let tx_buf := setMemValTypeSystemToBig tx_buf CMD_1BYTE_OFFSET [cmd]
  let tx_buf := setMemValTypeSystemToBig tx_buf CMD_WR_ADDR_2BYTE_OFFSET (bytes16 reg_addr)
  setMemValTypeSystemToBig tx_buf CMD_WR_LEN_2BYTE_OFFSET (bytes16 reg_cnt)

/-- `fill_len`: the padding of a data frame whose bytes end at `trans_length`. -/
def fillLen (trans_length : Nat) : Nat :=
  (WR_DATA_ALIGN_BYTE - trans_length % WR_DATA_ALIGN_BYTE) % WR_DATA_ALIGN_BYTE

namespace SpiReg

/-- `SpiReg_Read` between its locks: the result and the caller's buffer. -/
def readBody (h : SpiRegHandle) (reg_addr reg_cnt : UInt16) (reg_data : List UInt8)
    (timeout : UInt32) : Prog SysI (Int × List UInt8) := do
  let rx_buf := List.replicate SPI_RT_MSG_MAX_SIZE 0xff
  let tx_buf := commandBuf SPI_CMD_READ_REG reg_addr reg_cnt
  let crc16_val := crc16 0xffff tx_buf CMD_WR_CMD_LEN
  let ret ← gotoStartCmd h timeout
  if ret < 0 then return (-2, reg_data)
  let (ret, rx_buf) ← transferSpi h tx_buf rx_buf SPI_CMD_LEN
  if ret < 0 then return (ret, reg_data)
  let ret ← waitAck h timeout
  if ret < 0 then return (-2, reg_data)
  let trans_length := reg_cnt.toNat + WR_CRC_LEN
  let trans_length := trans_length + fillLen trans_length
  let (ret, rx_buf) ← transferSpi h tx_buf rx_buf trans_length
  if ret < 0 then return (ret, reg_data)
  let ret ← waitAck h timeout
  if ret < 0 then return (-2, reg_data)
  let crc16_val := crc16 crc16_val rx_buf reg_cnt
  let read_crc16_val :=
    setMemValTypeBigToSystem (bytes16 0x0000) 0 (getMemVal rx_buf reg_cnt.toNat 2)
  if UInt16.ofNat (ofLeBytes read_crc16_val) = crc16_val then
    return (0, storeAt reg_data 0 (rx_buf.take reg_cnt.toNat))
  else
    return (-3, reg_data)

/-- `SpiReg_Write` between its locks. -/
def writeBody (h : SpiRegHandle) (reg_addr reg_cnt : UInt16) (reg_data : List UInt8)
    (timeout : UInt32) : Prog SysI Int := do
  let rx_buf := List.replicate SPI_RT_MSG_MAX_SIZE 0xff
  let tx_buf := commandBuf SPI_CMD_WRITE_REG reg_addr reg_cnt
  let crc16_val := crc16 0xffff tx_buf CMD_WR_CMD_LEN
  let ret ← gotoStartCmd h timeout
  if ret < 0 then return -2
  let (ret, rx_buf) ← transferSpi h tx_buf rx_buf SPI_CMD_LEN
  if ret < 0 then return ret
  let ret ← waitAck h timeout
  if ret < 0 then return -2
  let crc16_val := crc16 crc16_val reg_data reg_cnt
  let tx_buf := storeAt tx_buf 0 (reg_data.take reg_cnt.toNat)
  let tx_buf := setMemValTypeSystemToBig tx_buf reg_cnt.toNat (bytes16 crc16_val)
  let trans_length := reg_cnt.toNat + WR_CRC_LEN
  let fill_len := fillLen trans_length
  let tx_buf := storeAt tx_buf trans_length (List.replicate fill_len 0xff)
  let trans_length := trans_length + fill_len
  let (ret, _) ← transferSpi h tx_buf rx_buf trans_length
  if ret < 0 then return ret
  let ret ← waitAck h timeout
  if ret < 0 then return -2
  return ret

/-- The locks every register access is made under, and its `out` label. -/
def locked {α : Type} (h : SpiRegHandle) (refused : Int → α) (body : Prog SysI α) :
    Prog SysI α := do
  Sys.mutexLock
  let ret ← Sys.flock h.lock_fd .LOCK_EX
  if ret < 0 then
    Sys.mutexUnlock
    return refused ret
  let result ← body
  let _ ← Sys.flock h.lock_fd .LOCK_UN
  Sys.mutexUnlock
  return result

def read (h : Option SpiRegHandle) (reg_addr reg_cnt : UInt16) (reg_data : List UInt8)
    (timeout : UInt32) : Prog SysI (Int × List UInt8) :=
  match h with
  | none => return (-1, reg_data)
  | some h => locked h (fun ret => (ret, reg_data)) (readBody h reg_addr reg_cnt reg_data timeout)

def write (h : Option SpiRegHandle) (reg_addr reg_cnt : UInt16) (reg_data : List UInt8)
    (timeout : UInt32) : Prog SysI Int :=
  match h with
  | none => return -1
  | some h => locked h id (writeBody h reg_addr reg_cnt reg_data timeout)

end SpiReg

end McuRegWr
