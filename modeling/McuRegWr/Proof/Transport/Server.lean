import McuRegWr.Proof.Business.RegFile
import McuRegWr.Proof.Transport.Mcu

/-!
# An MCU that always answers

One of the devices that the transport is made for, and the plainest: its registers compute what an
access brings and leaves, and it answers every call at once. It is an example, on which the theorems
about all such devices can be tried. -/

namespace McuRegWr

open Base Prog

/-- Registers that compute what an access brings and leaves. -/
structure Server (ρ : Type) where
  read : (reg_addr reg_cnt : UInt16) → ρ →
    {bytes : List UInt8 // bytes.length = reg_cnt.toNat} × ρ
  write : (reg_addr : UInt16) → (reg_data : List UInt8) → ρ → ρ

namespace Server

variable {ρ : Type} {S : Server ρ}

def registers (S : Server ρ) : Registers ρ where
  read reg_addr reg_cnt m bytes m' := S.read reg_addr reg_cnt m = (bytes, m')
  write reg_addr reg_data m m' := m' = S.write reg_addr reg_data m

/-- The bytes of a transfer that brings `bytes` first. -/
def reply (tx bytes : List UInt8) : SpiAns tx.length :=
  ⟨tx.length, (bytes ++ List.replicate tx.length 0xff).take tx.length, by simp⟩

theorem reply_ret (tx bytes : List UInt8) : 0 ≤ (reply tx bytes).ret := Int.natCast_nonneg _

theorem take_reply {tx bytes : List UInt8} (h : bytes.length ≤ tx.length) :
    (reply tx bytes).rx.take bytes.length = bytes := by
  simp [reply, List.take_take, h]

/-- What the MCU sends back for a frame, and where it stands then. -/
def transfer (S : Server ρ) (s : Mcu ρ) (tx : List UInt8) : SpiAns tx.length × Mcu ρ :=
  match s.mode with
  | .idle => (reply tx [], s)
  | .command =>
      (reply tx [],
        if tx.length = SPI_CMD_LEN then ⟨s.regs, .data tx, s.line ++ [SPI_ACK]⟩
        else { s with mode := .idle })
  | .data tx_cmd =>
      let reg_addr := wordAt tx_cmd CMD_WR_ADDR_2BYTE_OFFSET
      let reg_cnt := wordAt tx_cmd CMD_WR_LEN_2BYTE_OFFSET
      if tx_cmd.headD 0 = SPI_CMD_READ_REG ∧ reg_cnt.toNat + WR_CRC_LEN ≤ tx.length then
        let (bytes, m) := S.read reg_addr reg_cnt s.regs
        (reply tx (readFrame reg_addr reg_cnt bytes.val), ⟨m, .idle, s.line ++ [SPI_ACK]⟩)
      else
        match receiveWrite tx_cmd tx with
        | some (reg_addr, _, reg_data) =>
            (reply tx [], ⟨S.write reg_addr reg_data s.regs, .idle, s.line ++ [SPI_ACK]⟩)
        | none => (reply tx [], { s with mode := .idle })

/-- The MCU on a line without faults. -/
def mcu (S : Server ρ) (s : Mcu ρ) : (o : SysOp) → SysOp.Ans o × Mcu ρ
  | .mutexLock => ((), s)
  | .mutexUnlock => ((), s)
  | .flock _ _ => (0, s)
  | .tcflush _ => ((), { s with line := [] })
  | .write _ data =>
      (data.length,
        if data = [SPI_CMD_START] then ⟨s.regs, .command, s.line ++ [SPI_ACK]⟩ else s)
  | .poll _ _ => (if s.line = [] then ⟨0, false⟩ else ⟨1, true⟩, s)
  | .read _ size =>
      (.ok ⟨s.line.take size, List.length_take_le ..⟩, { s with line := s.line.drop size })
  | .spiMessage _ tx => S.transfer s tx

/-- The line it is at, as a world. -/
def line (S : Server ρ) : World SysI (Mcu ρ) := fun s o r s' => S.mcu s o = (r, s')

theorem length_readFrame {reg_addr reg_cnt : UInt16} {payload : List UInt8}
    (h : payload.length = reg_cnt.toNat) :
    (readFrame reg_addr reg_cnt payload).length = reg_cnt.toNat + 2 :=
  (List.length_append ..).trans (congrArg (· + 2) h)

variable {s : Mcu ρ} {tx : List UInt8}

theorem transfer_read {reg_addr reg_cnt : UInt16}
    (hmode : s.mode = .data (header SPI_CMD_READ_REG reg_addr reg_cnt ++ [0xff, 0xff, 0xff]))
    (hlen : reg_cnt.toNat + WR_CRC_LEN ≤ tx.length) :
    S.transfer s tx =
      (reply tx (readFrame reg_addr reg_cnt (S.read reg_addr reg_cnt s.regs).1.val),
        ⟨(S.read reg_addr reg_cnt s.regs).2, .idle, s.line ++ [SPI_ACK]⟩) := by
  rw [transfer, hmode]
  dsimp only
  rw [wordAt_header_addr, wordAt_header_cnt, if_pos ⟨rfl, hlen⟩]

theorem transfer_write {tx_cmd reg_data : List UInt8} {reg_addr reg_cnt : UInt16}
    (hmode : s.mode = .data tx_cmd)
    (hreceive : receiveWrite tx_cmd tx = some (reg_addr, reg_cnt, reg_data)) :
    S.transfer s tx =
      (reply tx [], ⟨S.write reg_addr reg_data s.regs, .idle, s.line ++ [SPI_ACK]⟩) := by
  have hcmd : tx_cmd.headD 0 ≠ SPI_CMD_READ_REG := by
    intro hread
    rw [receiveWrite, if_neg fun h => absurd (hread.symm.trans h.1) (by decide)] at hreceive
    cases hreceive
  rw [transfer, hmode]
  dsimp only
  rw [if_neg fun hread => hcmd hread.1, hreceive]

theorem take_reply_frame {reg_addr reg_cnt : UInt16}
    (hlen : reg_cnt.toNat + WR_CRC_LEN ≤ tx.length)
    (bytes : {bytes : List UInt8 // bytes.length = reg_cnt.toNat}) :
    (reply tx (readFrame reg_addr reg_cnt bytes.val)).rx.take (reg_cnt.toNat + 2) =
      readFrame reg_addr reg_cnt bytes.val := by
  have hframe := @length_readFrame reg_addr _ _ bytes.property
  rw [← hframe]
  exact take_reply (hframe.symm ▸ hlen)

/-- A frame is taken, or left without an acknowledge. -/
theorem takes_transfer (S : Server ρ) (s : Mcu ρ) (tx : List UInt8) :
    s.Refuses (S.transfer s tx).2 ∨
      S.registers.Takes tx s.mode s.regs (S.transfer s tx).1.rx (S.transfer s tx).2.mode
        (S.transfer s tx).2.regs ∧ s.line <+: (S.transfer s tx).2.line := by
  obtain ⟨regs, mode, line⟩ := s
  cases mode with
  | idle => exact .inl (.refl _)
  | command =>
      by_cases hlen : tx.length = SPI_CMD_LEN
      · simp only [transfer, if_pos hlen]
        exact .inr ⟨.command hlen, List.prefix_append _ _⟩
      · simp only [transfer, if_neg hlen]
        exact .inl (.idle _)
  | data tx_cmd =>
      simp only [transfer]
      split
      · rename_i hread
        let answer := S.read (wordAt tx_cmd CMD_WR_ADDR_2BYTE_OFFSET)
          (wordAt tx_cmd CMD_WR_LEN_2BYTE_OFFSET) regs
        have hframe := @length_readFrame (wordAt tx_cmd CMD_WR_ADDR_2BYTE_OFFSET) _ _
          answer.1.property
        refine .inr ⟨.read hread.1 rfl rfl rfl (.inl ?_), List.prefix_append _ _⟩
        rw [← hframe]
        exact take_reply (hframe.symm ▸ hread.2)
      · split
        · rename_i hreceive
          exact .inr ⟨.write hreceive rfl, List.prefix_append _ _⟩
        · exact .inl (.idle _)

/-- The MCU is one of those the transport is made for. -/
theorem world_mcu (s : Mcu ρ) (o : SysOp) :
    Mcu.world S.registers s o (S.mcu s o).1 (S.mcu s o).2 := by
  cases o with
  | write fd data =>
      by_cases hstart : data = [SPI_CMD_START]
      · simp only [mcu, if_pos hstart]
        exact .inr ⟨hstart, rfl, rfl, List.prefix_append _ _⟩
      · simp only [mcu, if_neg hstart]
        exact .inl (.refl s)
  | read fd size => exact ⟨_, (List.take_append_drop size s.line).symm, rfl⟩
  | spiMessage fd tx => exact S.takes_transfer s tx
  | _ => rfl

/-- Plain registers. -/
def regFile : Server RegFile where
  read reg_addr reg_cnt m := (⟨m.load reg_addr reg_cnt.toNat, RegFile.length_load _ _ _⟩, m)
  write reg_addr reg_data m := m.store reg_addr reg_data

end Server

end McuRegWr
