import McuRegWr.Proof.Transport.Read

/-!
# What a write sends

The two frames of a successful `SpiReg_Write`, and a receiver that takes them apart again. The
receiver is the MCU's side of the format: it checks the checksum the way a read does.
-/

namespace McuRegWr

open Base Prog

/-- The bytes of a frame, if a phase sent one. -/
def frameOf : Phase → List (List UInt8)
  | .moved tx _ _ => [tx]
  | _ => []

def framesSent (t : List SysI.Event) : List (List UInt8) := (phases t).flatMap frameOf

theorem Exchanged.framesSent {tx_cmd tx_data rx : List UInt8} {t : List SysI.Event}
    (h : Exchanged tx_cmd tx_data t rx) : framesSent t = [tx_cmd, tx_data] := by
  obtain ⟨ret₁, rx₁, ret₂, _, _, hphases⟩ := h
  rw [McuRegWr.framesSent, hphases]
  rfl

/-! ### The data frame -/

/-- The data frame of a write: the payload, its checksum and the padding. -/
def dataFrame (reg_addr reg_cnt : UInt16) (payload : List UInt8) : List UInt8 :=
  payload ++ bigEndian (frameCrc SPI_CMD_WRITE_REG reg_addr reg_cnt payload) ++
    List.replicate (fillLen (reg_cnt.toNat + WR_CRC_LEN)) 0xff

theorem length_dataFrame {reg_addr reg_cnt : UInt16} {payload : List UInt8}
    (h : payload.length = reg_cnt.toNat) :
    (dataFrame reg_addr reg_cnt payload).length = transLength reg_cnt := by
  rw [dataFrame, List.length_append, List.length_append, List.length_replicate, h]
  rfl

/-- A buffer cut into pieces of given lengths. -/
theorem exists_pieces (buf : List UInt8) {n m k : Nat} (h : n + m + k ≤ buf.length) :
    ∃ a b c d, buf = a ++ (b ++ (c ++ d)) ∧ a.length = n ∧ b.length = m ∧ c.length = k := by
  refine ⟨buf.take n, (buf.drop n).take m, ((buf.drop n).drop m).take k,
    ((buf.drop n).drop m).drop k, ?_, ?_, ?_, ?_⟩
  · rw [List.take_append_drop, List.take_append_drop, List.take_append_drop]
  · rw [List.length_take]
    omega
  · rw [List.length_take, List.length_drop]
    omega
  · rw [List.length_take, List.length_drop, List.length_drop]
    omega

/-- The buffer is written three times over: data, checksum, padding. -/
theorem writeBuf_take {reg_addr reg_cnt : UInt16} {payload : List UInt8}
    (hcnt : reg_cnt.toNat ≤ 1022) (hlen : payload.length = reg_cnt.toNat) :
    (writeBuf reg_addr reg_cnt payload).take (transLength reg_cnt) =
      dataFrame reg_addr reg_cnt payload := by
  have hfit : reg_cnt.toNat + 2 + fillLen (reg_cnt.toNat + WR_CRC_LEN) ≤
      (commandBuf SPI_CMD_WRITE_REG reg_addr reg_cnt).length := by
    rw [length_commandBuf]
    exact transLength_le hcnt
  obtain ⟨a, b, c, d, hbuf, ha, hb, hc⟩ := exists_pieces _ hfit
  have hpay : payload.take reg_cnt.toNat = payload := List.take_of_length_le (by omega)
  let crc := writeCrc reg_addr reg_cnt payload
  have hdata : storeAt (a ++ (b ++ (c ++ d))) 0 payload = payload ++ (b ++ (c ++ d)) :=
    @storeAt_append [] a (b ++ (c ++ d)) payload (by omega)
  have hcrc : setMemValTypeSystemToBig (payload ++ (b ++ (c ++ d))) reg_cnt.toNat (bytes16 crc) =
      payload ++ (bigEndian crc ++ (c ++ d)) := by
    rw [← hlen]
    exact setMemValTypeSystemToBig_append hb
  have hpad : storeAt (payload ++ (bigEndian crc ++ (c ++ d))) (reg_cnt.toNat + WR_CRC_LEN)
      (List.replicate (fillLen (reg_cnt.toNat + WR_CRC_LEN)) 0xff) =
      dataFrame reg_addr reg_cnt payload ++ d := by
    have hoff : reg_cnt.toNat + WR_CRC_LEN = (payload ++ bigEndian crc).length := by
      rw [List.length_append, hlen]
      rfl
    rw [← List.append_assoc, hoff, storeAt_append (by rw [List.length_replicate, hc, hoff]),
      dataFrame, ← hoff, ← writeCrc_eq, List.append_assoc _ _ d]
  have hwhole : writeBuf reg_addr reg_cnt payload = dataFrame reg_addr reg_cnt payload ++ d := by
    simp only [writeBuf, hbuf, hpay, hdata]
    rw [hcrc, hpad]
  rw [hwhole, ← length_dataFrame hlen, List.take_left]

/-! ### The receiver -/

/-- What a receiver of a write makes of its two frames. -/
def receiveWrite (tx_cmd tx_data : List UInt8) : Option (UInt16 × UInt16 × List UInt8) :=
  let reg_addr := wordAt tx_cmd CMD_WR_ADDR_2BYTE_OFFSET
  let reg_cnt := wordAt tx_cmd CMD_WR_LEN_2BYTE_OFFSET
  let crc16_val := crc16 (crc16 0xffff tx_cmd CMD_WR_CMD_LEN) tx_data reg_cnt
  if tx_cmd.headD 0 = SPI_CMD_WRITE_REG ∧ wordAt tx_data reg_cnt.toNat = crc16_val then
    some (reg_addr, reg_cnt, tx_data.take reg_cnt.toNat)
  else
    none

theorem wordAt_header_addr (cmd : UInt8) (reg_addr reg_cnt : UInt16) (rest : List UInt8) :
    wordAt (header cmd reg_addr reg_cnt ++ rest) CMD_WR_ADDR_2BYTE_OFFSET = reg_addr :=
  hi_lo reg_addr

theorem wordAt_header_cnt (cmd : UInt8) (reg_addr reg_cnt : UInt16) (rest : List UInt8) :
    wordAt (header cmd reg_addr reg_cnt ++ rest) CMD_WR_LEN_2BYTE_OFFSET = reg_cnt :=
  hi_lo reg_cnt

theorem receiveWrite_frames {reg_addr reg_cnt : UInt16} {payload : List UInt8}
    (hlen : payload.length = reg_cnt.toNat) :
    receiveWrite (header SPI_CMD_WRITE_REG reg_addr reg_cnt ++ [0xff, 0xff, 0xff])
      (dataFrame reg_addr reg_cnt payload) = some (reg_addr, reg_cnt, payload) := by
  have htake : (dataFrame reg_addr reg_cnt payload).take reg_cnt.toNat = payload := by
    rw [dataFrame, List.append_assoc, ← hlen, List.take_left]
  have hword : wordAt (dataFrame reg_addr reg_cnt payload) reg_cnt.toNat =
      frameCrc SPI_CMD_WRITE_REG reg_addr reg_cnt payload := by
    rw [dataFrame, List.append_assoc, ← hlen]
    exact wordAt_bigEndian _
  have hcrc : crc16 (crc16 0xffff (header SPI_CMD_WRITE_REG reg_addr reg_cnt ++
      [0xff, 0xff, 0xff]) CMD_WR_CMD_LEN) (dataFrame reg_addr reg_cnt payload) reg_cnt =
      frameCrc SPI_CMD_WRITE_REG reg_addr reg_cnt payload := by
    have hprefix := @frameCrc_take SPI_CMD_WRITE_REG reg_addr reg_cnt
      (dataFrame reg_addr reg_cnt payload) reg_cnt.toNat (le_refl _)
    rw [htake] at hprefix
    exact hprefix.symm
  simp only [receiveWrite, wordAt_header_addr, wordAt_header_cnt, hcrc, hword, htake]
  exact if_pos ⟨rfl, trivial⟩

/-! ### A whole call -/

theorem runs_write {h : SpiRegHandle} {reg_addr reg_cnt : UInt16} {reg_data : List UInt8}
    {timeout : UInt32} {t : List SysI.Event} {ret : Int}
    (hrun : Runs (SpiReg.write (some h) reg_addr reg_cnt reg_data timeout) t ret) :
    ret < 0 ∧ (∀ rx, ¬ Answered t rx) ∨ ret = 0 ∧ ∃ rx, Answered t rx ∧ framesSent t =
      [(commandBuf SPI_CMD_WRITE_REG reg_addr reg_cnt).take SPI_CMD_LEN,
        (writeBuf reg_addr reg_cnt reg_data).take (transLength reg_cnt)] := by
  obtain ⟨lock, hcase⟩ := runs_locked hrun
  rcases hcase with ⟨hlock, rfl, rfl⟩ | ⟨hlock, u, unlock, rfl, hbody⟩
  · exact .inl ⟨hlock, not_answered_refused h hlock⟩
  rw [writeBody_eq] at hbody
  obtain ⟨res, t₁, t₂, rfl, hex, run⟩ := runs_bind.mp hbody
  obtain ⟨hquiet, hres⟩ := runs_exchange hex
  cases res with
  | error ret' =>
      obtain ⟨rfl, rfl⟩ := runs_pure.mp run
      rw [List.append_nil]
      refine .inl ⟨hres.1, fun rx hans => ?_⟩
      obtain ⟨cmd, data, hex⟩ := (answered_locked hlock hquiet).mp hans
      exact hres.2 cmd data rx hex
  | ok pair =>
      obtain ⟨ret', rx_buf⟩ := pair
      obtain ⟨rfl, rfl⟩ := runs_pure.mp run
      obtain ⟨rfl, rx, hex, -, -⟩ := hres
      rw [List.append_nil]
      refine .inr ⟨rfl, rx, (answered_locked hlock hquiet).mpr ⟨_, _, hex⟩, ?_⟩
      rw [framesSent, phases_lockedTrace]
      exact hex.framesSent

/-- When no step fails a write sends its header and a data frame of the least length that fits, and
a receiver recovers the address, the count and the payload from them. -/
theorem SpiReg.write_framing (h : SpiRegHandle) (reg_addr reg_cnt : UInt16) (payload : List UInt8)
    (timeout : UInt32) (hcnt : reg_cnt.toNat ≤ 1022) (hlen : payload.length = reg_cnt.toNat)
    (t : List SysI.Event) (ret : Int)
    (hrun : Runs (SpiReg.write (some h) reg_addr reg_cnt payload timeout) t ret) :
    (ret = 0 ↔ ∃ rx, Answered t rx) ∧
    (ret = 0 → ∃ tx_cmd tx_data pad, framesSent t = [tx_cmd, tx_data] ∧
      tx_cmd = [0x06, hi reg_addr, lo reg_addr, hi reg_cnt, lo reg_cnt, 0xff, 0xff, 0xff] ∧
      tx_data = payload ++ bigEndian (crc16 (crc16 0xffff tx_cmd 5) payload reg_cnt) ++
        List.replicate pad 0xff ∧
      (8 ∣ tx_data.length ∧ reg_cnt.toNat + 2 ≤ tx_data.length ∧
        ∀ n, 8 ∣ n → reg_cnt.toNat + 2 ≤ n → tx_data.length ≤ n) ∧
      tx_data.length ≤ SPI_RT_MSG_MAX_SIZE ∧
      receiveWrite tx_cmd tx_data = some (reg_addr, reg_cnt, payload)) := by
  rcases runs_write hrun with ⟨hret, hans⟩ | ⟨rfl, rx, hans, hframes⟩
  · have hne : ret ≠ 0 := by omega
    exact ⟨⟨fun h0 => absurd h0 hne, fun ⟨rx, hrx⟩ => absurd hrx (hans rx)⟩,
      fun h0 => absurd h0 hne⟩
  refine ⟨⟨fun _ => ⟨rx, hans⟩, fun _ => rfl⟩, fun _ => ?_⟩
  rw [commandBuf_take, writeBuf_take hcnt hlen] at hframes
  refine ⟨_, _, fillLen (reg_cnt.toNat + WR_CRC_LEN), hframes, rfl, rfl, ?_, ?_,
    receiveWrite_frames hlen⟩
  · rw [length_dataFrame hlen]
    exact ⟨transLength_dvd reg_cnt, le_transLength reg_cnt, fun n => transLength_least reg_cnt⟩
  · rw [length_dataFrame hlen]
    exact transLength_le hcnt

theorem SpiReg.write_framing_dtc_map :
    ∃ t, Runs (SpiReg.write (some ⟨3, 4, 5⟩) 0x1014 3 [0x01, 0x02, 0x03] 100) t 0 ∧
      ∃ tx_cmd tx_data, framesSent t = [tx_cmd, tx_data] ∧
        receiveWrite tx_cmd tx_data = some (0x1014, 3, [0x01, 0x02, 0x03]) := by
  have heval : ((SpiReg.write (some ⟨3, 4, 5⟩) 0x1014 3 [0x01, 0x02, 0x03] 100).eval
      (ackingMcu []) ()) = some (0, ()) := by decide +kernel
  have hruns := runs_traceOf heval
  obtain ⟨tx_cmd, tx_data, -, hframes, -, -, -, -, hrecv⟩ :=
    (SpiReg.write_framing ⟨3, 4, 5⟩ 0x1014 3 [0x01, 0x02, 0x03] 100 (by decide) rfl _ 0 hruns).2 rfl
  exact ⟨_, hruns, tx_cmd, tx_data, hframes, hrecv⟩

end McuRegWr
