import McuRegWr.Proof.Transport.Trace

/-!
# The frames of an access

What the transmit buffer and the checksums of `spi_reg.c` come to once the byte swaps are done:
a header of five bytes, big-endian fields, and padding to a multiple of eight.
-/

namespace McuRegWr

open Base

def hi (v : UInt16) : UInt8 := UInt8.ofNat (v.toNat / 256)
def lo (v : UInt16) : UInt8 := UInt8.ofNat v.toNat

/-- The bytes of a 16-bit value, high byte first. -/
def bigEndian (v : UInt16) : List UInt8 := [hi v, lo v]

/-- The big-endian 16-bit value at an offset. -/
def wordAt (bytes : List UInt8) (off : Nat) : UInt16 :=
  UInt16.ofNat ((bytes.getD off 0).toNat * 256 + (bytes.getD (off + 1) 0).toNat)

/-- The five bytes of a command that its checksum covers. -/
def header (cmd : UInt8) (reg_addr reg_cnt : UInt16) : List UInt8 :=
  cmd :: (bigEndian reg_addr ++ bigEndian reg_cnt)

theorem hi_lo (v : UInt16) : UInt16.ofNat ((hi v).toNat * 256 + (lo v).toNat) = v := by
  have hv := v.toNat_lt
  apply UInt16.toNat_inj.mp
  simp only [hi, lo, UInt8.toNat_ofNat', UInt16.toNat_ofNat']
  omega

theorem wordAt_bigEndian {bytes rest : List UInt8} (v : UInt16) :
    wordAt (bytes ++ (bigEndian v ++ rest)) bytes.length = v := by
  have hget (i : Nat) : (bytes ++ (bigEndian v ++ rest)).getD (bytes.length + i) 0 =
      (bigEndian v ++ rest).getD i 0 := by
    rw [List.getD_eq_getElem?_getD, List.getElem?_append_right (by omega), Nat.add_sub_cancel_left,
      List.getD_eq_getElem?_getD]
  rw [wordAt, hget 1]
  exact (congrArg (fun b : UInt8 => UInt16.ofNat (b.toNat * 256 + (lo v).toNat)) (hget 0)).trans
    (hi_lo v)

/-! ### The command -/

theorem commandBuf_eq (cmd : UInt8) (reg_addr reg_cnt : UInt16) :
    commandBuf cmd reg_addr reg_cnt =
      header cmd reg_addr reg_cnt ++ List.replicate 1019 0xff := by
  let fill (n : Nat) : List UInt8 := List.replicate n 0xff
  have hcmd : setMemValTypeSystemToBig (fill 1024) CMD_1BYTE_OFFSET [cmd] = cmd :: fill 1023 :=
    @setMemValTypeSystemToBig_append [] [0xff] (fill 1023) [cmd] rfl
  have haddr : setMemValTypeSystemToBig (cmd :: fill 1023) CMD_WR_ADDR_2BYTE_OFFSET
      (bytes16 reg_addr) = cmd :: (bigEndian reg_addr ++ fill 1021) :=
    @setMemValTypeSystemToBig_append [cmd] [0xff, 0xff] (fill 1021) (bytes16 reg_addr) rfl
  have hcnt : setMemValTypeSystemToBig (cmd :: (bigEndian reg_addr ++ fill 1021))
      CMD_WR_LEN_2BYTE_OFFSET (bytes16 reg_cnt) = header cmd reg_addr reg_cnt ++ fill 1019 :=
    @setMemValTypeSystemToBig_append (cmd :: bigEndian reg_addr) [0xff, 0xff] (fill 1019)
      (bytes16 reg_cnt) rfl
  show setMemValTypeSystemToBig (setMemValTypeSystemToBig (setMemValTypeSystemToBig (fill 1024) _ _)
    _ _) _ _ = _
  rw [hcmd, haddr, hcnt]

@[simp] theorem length_commandBuf (cmd : UInt8) (reg_addr reg_cnt : UInt16) :
    (commandBuf cmd reg_addr reg_cnt).length = SPI_RT_MSG_MAX_SIZE := by
  rw [commandBuf_eq, List.length_append, List.length_replicate]
  rfl

theorem commandBuf_take (cmd : UInt8) (reg_addr reg_cnt : UInt16) :
    (commandBuf cmd reg_addr reg_cnt).take SPI_CMD_LEN =
      header cmd reg_addr reg_cnt ++ [0xff, 0xff, 0xff] := by
  rw [commandBuf_eq]
  rfl

theorem crc16_commandBuf (cmd : UInt8) (reg_addr reg_cnt : UInt16) :
    crc16 0xffff (commandBuf cmd reg_addr reg_cnt) CMD_WR_CMD_LEN =
      crc16 0xffff (header cmd reg_addr reg_cnt) CMD_WR_CMD_LEN := by
  rw [commandBuf_eq]
  rfl

/-! ### The length of a data frame -/

theorem transLength_dvd (reg_cnt : UInt16) : WR_DATA_ALIGN_BYTE ∣ transLength reg_cnt := by
  simp only [transLength, fillLen, WR_DATA_ALIGN_BYTE, WR_CRC_LEN]
  omega

theorem le_transLength (reg_cnt : UInt16) : reg_cnt.toNat + WR_CRC_LEN ≤ transLength reg_cnt := by
  simp only [transLength]
  omega

theorem transLength_least (reg_cnt : UInt16) {n : Nat} (hdvd : WR_DATA_ALIGN_BYTE ∣ n)
    (hle : reg_cnt.toNat + WR_CRC_LEN ≤ n) : transLength reg_cnt ≤ n := by
  simp only [transLength, fillLen, WR_DATA_ALIGN_BYTE, WR_CRC_LEN] at *
  omega

theorem transLength_le {reg_cnt : UInt16} (hcnt : reg_cnt.toNat ≤ 1022) :
    transLength reg_cnt ≤ SPI_RT_MSG_MAX_SIZE :=
  transLength_least reg_cnt (by decide) (by simp only [WR_CRC_LEN, SPI_RT_MSG_MAX_SIZE]; omega)

/-! ### The checksum behind the data -/

/-- The checksum over a header and then over data. -/
def frameCrc (cmd : UInt8) (reg_addr reg_cnt : UInt16) (data : List UInt8) : UInt16 :=
  crc16 (crc16 0xffff (header cmd reg_addr reg_cnt) CMD_WR_CMD_LEN) data reg_cnt

theorem readCrc_eq (reg_addr reg_cnt : UInt16) (rx_buf : List UInt8) :
    readCrc reg_addr reg_cnt rx_buf = frameCrc SPI_CMD_READ_REG reg_addr reg_cnt rx_buf := by
  rw [readCrc, crc16_commandBuf]
  rfl

theorem writeCrc_eq (reg_addr reg_cnt : UInt16) (reg_data : List UInt8) :
    writeCrc reg_addr reg_cnt reg_data = frameCrc SPI_CMD_WRITE_REG reg_addr reg_cnt reg_data := by
  rw [writeCrc, crc16_commandBuf]
  rfl

theorem frameCrc_take (cmd : UInt8) (reg_addr reg_cnt : UInt16) {data : List UInt8} {n : Nat}
    (hn : reg_cnt.toNat ≤ n) :
    frameCrc cmd reg_addr reg_cnt (data.take n) = frameCrc cmd reg_addr reg_cnt data := by
  simp only [frameCrc, crc16, List.take_take, Nat.min_eq_left hn]

theorem getD_take {bytes : List UInt8} {i n : Nat} (h : i < n) :
    (bytes.take n).getD i 0 = bytes.getD i 0 := by
  rw [List.getD_eq_getElem?_getD, List.getElem?_take_of_lt h, List.getD_eq_getElem?_getD]

theorem wordAt_take {bytes : List UInt8} {off n : Nat} (h : off + 2 ≤ n) :
    wordAt (bytes.take n) off = wordAt bytes off := by
  rw [wordAt, wordAt, getD_take (by omega), getD_take (by omega)]

/-- The swap of the received word: a read compares with the big-endian word behind the data. -/
theorem readCrcFound_eq {reg_cnt : UInt16} {rx_buf : List UInt8}
    (h : reg_cnt.toNat + 2 ≤ rx_buf.length) :
    readCrcFound reg_cnt rx_buf = wordAt rx_buf reg_cnt.toNat := by
  have hword : getMemVal rx_buf reg_cnt.toNat 2 =
      [rx_buf.getD reg_cnt.toNat 0, rx_buf.getD (reg_cnt.toNat + 1) 0] := by
    rw [getMemVal, List.drop_eq_getElem_cons (by omega), List.drop_eq_getElem_cons (by omega)]
    simp only [List.take_succ_cons, List.take_zero, List.getD_eq_getElem?_getD]
    rw [List.getElem?_eq_getElem, List.getElem?_eq_getElem]
    rfl
  rw [readCrcFound, hword, setMemValTypeBigToSystem_eq (by simp [bytes16, leBytes]), wordAt]
  congr 1
  simp [storeAt, bytes16, leBytes, ofLeBytes]
  omega

end McuRegWr
