import McuRegWr.Proof.Transport.Burst
import McuRegWr.Proof.Transport.Shared

/-!
# An MCU at the other end

The peer that the handshake of `spi_reg.c` is made for: it acknowledges what it accepts, carries an
access out when the data frame arrives, and forgets whatever it was doing when a start byte comes.
Bytes and frames may get lost, damaged frames be refused, and an acknowledge come late, but not
after the next access has emptied the line. Behind such a line an access is done once and reported,
or it is reported failed and was done once or not at all.
-/

namespace McuRegWr

open Base Prog

/-- The registers of an MCU: what a read of them brings, and what an access makes of them. -/
structure Registers (ρ : Type) where
  read : (reg_addr reg_cnt : UInt16) → ρ → {bytes : List UInt8 // bytes.length = reg_cnt.toNat} →
    ρ → Prop
  write : (reg_addr : UInt16) → (reg_data : List UInt8) → ρ → ρ → Prop

/-- The accesses, carried out. -/
def Registers.world {ρ : Type} (R : Registers ρ) : World RegI ρ
  | m, .readReg reg_addr reg_cnt _, r, m' =>
      ∃ bytes, r = .ok bytes ∧ R.read reg_addr reg_cnt m bytes m'
  | m, .writeReg reg_addr reg_data _, r, m' => r = .ok () ∧ R.write reg_addr reg_data m m'
  | _, _, _, _ => False

/-- What the MCU waits for. -/
inductive Mode where
  | idle
  | command
  | data (tx_cmd : List UInt8)

structure Mcu (ρ : Type) where
  regs : ρ
  mode : Mode
  /-- The bytes it has sent and the host has not read. -/
  line : List UInt8

/-- What the MCU does with a frame that it accepts. The answer to a read may be damaged on the way,
which its checksum tells. -/
inductive Registers.Takes {ρ : Type} (R : Registers ρ) (tx : List UInt8) :
    Mode → ρ → List UInt8 → Mode → ρ → Prop where
  | command {m : ρ} {rx : List UInt8} (hlen : tx.length = SPI_CMD_LEN) :
      Takes R tx .command m rx (.data tx) m
  | read {tx_cmd rx : List UInt8} {reg_addr reg_cnt : UInt16} {m m' : ρ} {bytes : _}
      (hcmd : tx_cmd.headD 0 = SPI_CMD_READ_REG)
      (haddr : wordAt tx_cmd CMD_WR_ADDR_2BYTE_OFFSET = reg_addr)
      (hcnt : wordAt tx_cmd CMD_WR_LEN_2BYTE_OFFSET = reg_cnt)
      (hread : R.read reg_addr reg_cnt m bytes m')
      (hrx : rx.take (reg_cnt.toNat + 2) = readFrame reg_addr reg_cnt bytes.val ∨
        ¬ CrcMatches reg_addr reg_cnt rx) :
      Takes R tx (.data tx_cmd) m rx .idle m'
  | write {tx_cmd rx reg_data : List UInt8} {reg_addr reg_cnt : UInt16} {m m' : ρ}
      (hreceive : receiveWrite tx_cmd tx = some (reg_addr, reg_cnt, reg_data))
      (hwrite : R.write reg_addr reg_data m m') :
      Takes R tx (.data tx_cmd) m rx .idle m'

namespace Mcu

variable {ρ : Type} {R : Registers ρ} {s s' : Mcu ρ} {timeout : UInt32} {h : SpiRegHandle}

/-- Something is lost or refused. What the MCU sends then is no acknowledge. -/
def Refuses (s s' : Mcu ρ) : Prop :=
  s'.regs = s.regs ∧ (s'.mode = s.mode ∨ s'.mode = .idle) ∧
    ∃ noise, SPI_ACK ∉ noise ∧ s'.line = s.line ++ noise

theorem Refuses.refl (s : Mcu ρ) : s.Refuses s :=
  ⟨rfl, .inl rfl, [], List.not_mem_nil, (List.append_nil _).symm⟩

theorem Refuses.idle (s : Mcu ρ) : s.Refuses { s with mode := .idle } :=
  ⟨rfl, .inr rfl, [], List.not_mem_nil, (List.append_nil _).symm⟩

/-- What is late comes before the line is flushed again: only a frame or a start byte brings bytes.
-/
def world (R : Registers ρ) : World SysI (Mcu ρ)
  | s, .tcflush _, _, s' => s' = { s with line := [] }
  | s, .write _ data, _, s' => s.Refuses s' ∨
      data = [SPI_CMD_START] ∧ s'.regs = s.regs ∧ s'.mode = .command ∧ s.line <+: s'.line
  | s, .poll _ _, _, s' => s' = s
  | s, .read _ _, .ok bytes, s' => ∃ rest, s.line = bytes.val ++ rest ∧ s' = { s with line := rest }
  | s, .read _ _, .error _, s' => s' = s
  | s, .spiMessage _ tx, ans, s' => s.Refuses s' ∨
      R.Takes tx s.mode s.regs ans.rx s'.mode s'.regs ∧ s.line <+: s'.line
  | s, _, _, s' => s' = s

/-- Nothing is asked of the calls here. -/
abbrev anyCall : Mcu ρ → SysOp → Prop := fun _ _ => True

/-! ### The parts of an access -/

theorem wlp_read_one {fd timeout : Int} {Q : Int × List UInt8 → Mcu ρ → Prop}
    (hnone : ∀ ret ≤ 0, ∀ line, Q (ret, []) { s with line := line })
    (hone : ∀ b ∈ s.line, ∀ line, Q (1, [b]) { s with line := line }) :
    (Uart.read fd 1 timeout).wlp (world R) anyCall Q s := by
  rw [Uart.read_one]
  simp only [Sys.poll, Sys.read, req_eq, ask_bind, done_bind]
  refine ⟨trivial, fun fdset s₁ (hpoll : s₁ = s) => ?_⟩
  subst hpoll
  dsimp only
  split
  · rename_i hneg
    exact hnone _ (le_of_lt hneg) s₁.line
  split
  · exact hnone 0 (le_refl _) s₁.line
  split
  · refine ⟨trivial, fun ans s₂ hread => ?_⟩
    obtain rn | ⟨bytes, hsize⟩ := ans
    · obtain rfl : s₂ = s₁ := hread
      exact hnone _ (le_of_lt rn.property) s₂.line
    · obtain ⟨rest, hline, rfl⟩ := hread
      cases bytes with
      | nil => exact hnone 0 (le_refl _) rest
      | cons b bs =>
          obtain rfl : bs = [] := by simpa using hsize
          exact hone b (by rw [hline]; simp) rest
  · exact hnone 0 (le_refl _) s₁.line

/-- An acknowledge is waited for in vain, or was sent. -/
theorem wlp_waitAck {Q : Int → Mcu ρ → Prop}
    (hnone : ∀ line, Q (-1) { s with line := line })
    (hack : SPI_ACK ∈ s.line → Q 0 { s with line := [] }) :
    (waitAck h timeout).wlp (world R) anyCall Q s := by
  rw [waitAck, wlp_bind]
  apply wlp_read_one
  · intro ret hret line
    dsimp only
    rw [if_pos (.inl (by omega))]
    exact hnone line
  · intro b hb line
    dsimp only
    by_cases heq : b = SPI_ACK
    · subst heq
      rw [if_neg (by simp)]
      refine ⟨trivial, fun _ s₁ (hflush : s₁ = _) => ?_⟩
      rw [hflush]
      exact hack hb
    · rw [if_pos (.inr heq)]
      exact hnone line

/-- After the start byte is acknowledged the MCU waits for a command. -/
theorem wlp_gotoStartCmd {Q : Int → Mcu ρ → Prop}
    (hfail : ∀ mode line, Q (-1) ⟨s.regs, mode, line⟩) (hok : Q 0 ⟨s.regs, .command, []⟩) :
    (gotoStartCmd h timeout).wlp (world R) anyCall Q s := by
  simp only [gotoStartCmd, Uart.inClean, Uart.write, Sys.tcflush, Sys.write, req_eq, ask_bind,
    done_bind]
  refine ⟨trivial, fun _ s₁ (hflush : s₁ = _) => ⟨trivial, fun sent s₂ hsent => ?_⟩⟩
  subst hflush
  dsimp only
  have hregs : s₂.regs = s.regs := by
    rcases hsent with ⟨hregs, -⟩ | ⟨-, hregs, -⟩ <;> exact hregs
  have hack : SPI_ACK ∈ s₂.line → s₂.mode = .command := by
    intro hmem
    rcases hsent with ⟨-, -, noise, hnoise, hline⟩ | ⟨-, -, hmode, -⟩
    · rw [hline] at hmem
      exact absurd hmem hnoise
    · exact hmode
  rw [← hregs] at hfail hok
  split
  · exact hfail _ _
  rw [wlp_bind]
  apply wlp_read_one
  · intro ret hret line
    dsimp only
    rw [if_pos hret]
    exact hfail _ _
  · intro b hb line
    dsimp only
    rw [if_neg (show ¬ (1 : Int) ≤ 0 by decide)]
    by_cases heq : b = SPI_ACK
    · subst heq
      rw [if_neg (show ¬ [SPI_ACK].headD SPI_CMD_START ≠ SPI_ACK from not_not.mpr rfl)]
      refine ⟨trivial, fun _ s₃ (hflush : s₃ = _) => ?_⟩
      rw [hflush, hack hb]
      exact hok
    · rw [if_pos (show [b].headD SPI_CMD_START ≠ SPI_ACK from heq)]
      exact hfail _ _

theorem wlp_transferSpi {tx_buf rx_buf : List UInt8} {length : Nat}
    {Q : Int × List UInt8 → Mcu ρ → Prop}
    (hmoved : ∀ (ans : SpiAns (tx_buf.take length).length) s',
      world R s (.spiMessage h.fd (tx_buf.take length)) ans s' →
      Q (ans.ret, storeAt rx_buf 0 ans.rx) s') :
    (transferSpi h tx_buf rx_buf length).wlp (world R) anyCall Q s :=
  ⟨trivial, fun ans s' hans => hmoved ans s' hans⟩

/-- A frame whose acknowledge arrives was accepted. -/
theorem takes_of_ack {fd : Int} {tx : List UInt8} {ans : SpiAns tx.length}
    (hmoved : world R s (.spiMessage fd tx) ans s') (hline : s.line = [])
    (hack : SPI_ACK ∈ s'.line) :
    R.Takes tx s.mode s.regs ans.rx s'.mode s'.regs := by
  rcases hmoved with ⟨-, -, noise, hnoise, hline'⟩ | ⟨htakes, -⟩
  · rw [hline', hline] at hack
    exact absurd hack hnoise
  · exact htakes

/-- A frame that is not acknowledged was accepted or not. -/
theorem regs_of_moved {fd : Int} {tx : List UInt8} {ans : SpiAns tx.length}
    (hmoved : world R s (.spiMessage fd tx) ans s') :
    s'.regs = s.regs ∨ R.Takes tx s.mode s.regs ans.rx s'.mode s'.regs := by
  rcases hmoved with ⟨hregs, -⟩ | ⟨htakes, -⟩
  · exact .inl hregs
  · exact .inr htakes

theorem regs_of_command {tx rx : List UInt8} {m m' : ρ} {mode' : Mode}
    (htakes : R.Takes tx .command m rx mode' m') : mode' = .data tx ∧ m' = m := by
  cases htakes
  exact ⟨rfl, rfl⟩

/-- What an exchange leaves: the second frame has been accepted, as the data to the first, and when
the exchange fails perhaps not. -/
def Exchanged (R : Registers ρ) (tx_cmd tx_data : List UInt8) (m m' : ρ) :
    Except Int (Int × List UInt8) → Prop
  | .error ret => ret < 0 ∧
      (m' = m ∨ ∃ rx mode', R.Takes tx_data (.data tx_cmd) m rx mode' m')
  | .ok (ret, rx_buf) => 0 ≤ ret ∧ ∃ rx mode', R.Takes tx_data (.data tx_cmd) m rx mode' m' ∧
      rx.length = tx_data.length ∧ rx_buf.take rx.length = rx

theorem wlp_exchange (R : Registers ρ) (s : Mcu ρ) (tx_cmd tx_data : List UInt8) (length : Nat) :
    (exchange h timeout tx_cmd tx_data length).wlp (world R) anyCall (fun res s' =>
      Exchanged R (tx_cmd.take SPI_CMD_LEN) (tx_data.take length) s.regs s'.regs res) s := by
  rw [exchange, wlp_bind]
  apply wlp_gotoStartCmd
  · intro mode line
    exact ⟨by decide, .inl rfl⟩
  rw [if_neg (lt_irrefl (0 : Int)), wlp_bind]
  -- the command frame
  apply wlp_transferSpi
  intro ans₁ s₁ hmoved₁
  have hregs₁ : s₁.regs = s.regs := by
    rcases regs_of_moved hmoved₁ with hregs | htakes
    · exact hregs
    · exact (regs_of_command htakes).2
  dsimp only
  split
  · rename_i hneg
    exact ⟨hneg, .inl hregs₁⟩
  rw [wlp_bind]
  apply wlp_waitAck
  · intro line
    exact ⟨by decide, .inl hregs₁⟩
  intro hack₁
  have hmode₁ := (regs_of_command (takes_of_ack hmoved₁ rfl hack₁)).1
  rw [if_neg (lt_irrefl (0 : Int)), wlp_bind]
  -- the data frame
  apply wlp_transferSpi
  intro ans₂ s₂ hmoved₂
  have hdone : ∀ {ret : Int}, ret < 0 → Exchanged R (tx_cmd.take SPI_CMD_LEN)
      (tx_data.take length) s.regs s₂.regs (.error ret) := by
    intro ret hret
    refine ⟨hret, ?_⟩
    rcases regs_of_moved hmoved₂ with hregs | htakes
    · exact .inl (hregs.trans hregs₁)
    · rw [hmode₁, hregs₁] at htakes
      exact .inr ⟨_, _, htakes⟩
  dsimp only
  split
  · rename_i hneg
    exact hdone hneg
  rw [wlp_bind]
  apply wlp_waitAck
  · intro line
    exact hdone (by decide)
  intro hack₂
  have htakes := takes_of_ack hmoved₂ rfl hack₂
  rw [hmode₁, hregs₁] at htakes
  rw [if_neg (lt_irrefl (0 : Int))]
  exact ⟨le_refl _, _, _, htakes, ans₂.length_rx, take_storeAt_zero _ _⟩

/-! ### A whole access -/

theorem takes_read {reg_addr reg_cnt : UInt16} {tx rest rx : List UInt8} {m m' : ρ} {mode' : Mode}
    (htakes : R.Takes tx (.data (header SPI_CMD_READ_REG reg_addr reg_cnt ++ rest)) m rx mode' m') :
    ∃ bytes, R.read reg_addr reg_cnt m bytes m' ∧
      (rx.take (reg_cnt.toNat + 2) = readFrame reg_addr reg_cnt bytes.val ∨
        ¬ CrcMatches reg_addr reg_cnt rx) := by
  cases htakes with
  | read hcmd haddr hcnt hread hrx =>
      rw [wordAt_header_addr] at haddr
      rw [wordAt_header_cnt] at hcnt
      subst haddr hcnt
      exact ⟨_, hread, hrx⟩
  | write hreceive hwrite =>
      rw [receiveWrite, if_neg fun h => absurd h.1 (by simp [header, SPI_CMD_READ_REG,
        SPI_CMD_WRITE_REG])] at hreceive
      cases hreceive

theorem takes_write {reg_addr reg_cnt : UInt16} {payload rx : List UInt8} {m m' : ρ} {mode' : Mode}
    (hlen : payload.length = reg_cnt.toNat)
    (htakes : R.Takes (dataFrame reg_addr reg_cnt payload)
      (.data (header SPI_CMD_WRITE_REG reg_addr reg_cnt ++ [0xff, 0xff, 0xff])) m rx mode' m') :
    R.write reg_addr payload m m' := by
  cases htakes with
  | read hcmd => exact absurd hcmd (by simp [header, SPI_CMD_READ_REG, SPI_CMD_WRITE_REG])
  | write hreceive hwrite =>
      rw [receiveWrite_frames hlen] at hreceive
      obtain ⟨rfl, -, rfl⟩ : reg_addr = _ ∧ reg_cnt = _ ∧ payload = _ := by simpa using hreceive
      exact hwrite

end Mcu

/-- What is reported of an access that failed. -/
def RegOp.Failed : (o : RegOp) → RegOp.Ans o → Prop
  | .readReg _ _ _, .error _ => True
  | .writeReg _ _ _, .error _ => True
  | _, _ => False

/-- What fits the frames of the transport. -/
def RegOp.Fits : RegOp → Prop
  | .readReg _ reg_cnt _ => reg_cnt.toNat ≤ 1022
  | .writeReg _ reg_data _ => reg_data.length ≤ 1022
  | _ => True

namespace Mcu

open SpiReg

variable {ρ : Type} {R : Registers ρ} {h : SpiRegHandle}

theorem readAnswer_of_frame {reg_addr reg_cnt : UInt16} {rx rx_buf buf : List UInt8}
    {bytes : {bytes : List UInt8 // bytes.length = reg_cnt.toNat}}
    (hle : reg_cnt.toNat + 2 ≤ rx.length) (htake : rx_buf.take rx.length = rx)
    (hrx : rx.take (reg_cnt.toNat + 2) = readFrame reg_addr reg_cnt bytes.val) :
    readAnswer reg_cnt (0, storeAt buf 0 (rx_buf.take reg_cnt.toNat)) = .ok bytes := by
  have hbytes : rx_buf.take reg_cnt.toNat = bytes.val :=
    calc rx_buf.take reg_cnt.toNat = (rx_buf.take rx.length).take reg_cnt.toNat := by
          rw [List.take_take, Nat.min_eq_left (by omega)]
      _ = (rx.take (reg_cnt.toNat + 2)).take reg_cnt.toNat := by
          rw [htake, List.take_take, Nat.min_eq_left (by omega)]
      _ = bytes.val := by rw [hrx, readFrame, List.take_left' bytes.property]
  rw [readAnswer, dif_neg (lt_irrefl (0 : Int)), hbytes]
  refine congrArg Except.ok (Subtype.ext ?_)
  simp [storeAt, bytes.property]

theorem readAnswer_of_neg {reg_cnt : UInt16} {ret : Int} (hret : ret < 0) (buf : List UInt8) :
    readAnswer reg_cnt (ret, buf) = .error ⟨ret, hret⟩ :=
  dif_pos hret

theorem wlp_readBody (s : Mcu ρ) {reg_addr reg_cnt : UInt16} (buf : List UInt8) {timeout : UInt32}
    (hcnt : reg_cnt.toNat ≤ 1022) :
    (SpiReg.readBody h reg_addr reg_cnt buf timeout >>= fun res =>
        pure (readAnswer reg_cnt res)).wlp (world R) anyCall (fun r s' =>
      R.world.lossy RegOp.Failed s.regs (.readReg reg_addr reg_cnt timeout) r s'.regs) s := by
  have hfail : ∀ {ret : Int} {s' : Mcu ρ}, ret < 0 → (s'.regs = s.regs ∨ ∃ bytes,
      R.read reg_addr reg_cnt s.regs bytes s'.regs) → R.world.lossy RegOp.Failed s.regs
        (.readReg reg_addr reg_cnt timeout) (readAnswer reg_cnt (ret, buf)) s'.regs := by
    intro ret s' hret hdone
    rw [readAnswer_of_neg hret]
    refine .inr ⟨trivial, hdone.imp_right ?_⟩
    rintro ⟨bytes, hread⟩
    exact ⟨.ok bytes, bytes, rfl, hread⟩
  rw [readBody_eq, bind_assoc, wlp_bind]
  refine wlp_conseq (wlp_exchange R s _ _ _) fun res s' hres => ?_
  rw [commandBuf_take] at hres
  cases res with
  | error ret =>
      obtain ⟨hret, hdone⟩ := hres
      refine hfail hret (hdone.imp_right ?_)
      rintro ⟨rx, mode', htakes⟩
      obtain ⟨bytes, hread, -⟩ := takes_read htakes
      exact ⟨bytes, hread⟩
  | ok pair =>
      obtain ⟨ret, rx_buf⟩ := pair
      obtain ⟨-, rx, mode', htakes, hlen, htake⟩ := hres
      obtain ⟨bytes, hread, hrx⟩ := takes_read htakes
      rw [List.length_take, length_commandBuf, Nat.min_eq_left (transLength_le hcnt)] at hlen
      have hle := le_transLength reg_cnt
      rw [← hlen] at hle
      dsimp only
      split
      · rename_i hcrc
        rcases hrx with hrx | hmiss
        · refine .inl ⟨bytes, ?_, hread⟩
          exact readAnswer_of_frame hle htake hrx
        · exact absurd ((crc_matches_iff hle htake).mp hcrc) hmiss
      · exact hfail (by decide) (.inr ⟨bytes, hread⟩)

theorem wlp_writeBody (s : Mcu ρ) {reg_addr : UInt16} {reg_data : List UInt8} {timeout : UInt32}
    (hlen : reg_data.length ≤ 1022) :
    (SpiReg.writeBody h reg_addr (UInt16.ofNat reg_data.length) reg_data timeout >>= fun ret =>
        pure (writeAnswer ret)).wlp (world R) anyCall (fun r s' =>
      R.world.lossy RegOp.Failed s.regs (.writeReg reg_addr reg_data timeout) r s'.regs) s := by
  have hcnt : reg_data.length = (UInt16.ofNat reg_data.length).toNat := by
    rw [UInt16.toNat_ofNat']
    omega
  have hfail : ∀ {ret : Int} {s' : Mcu ρ}, ret < 0 → (s'.regs = s.regs ∨
      R.write reg_addr reg_data s.regs s'.regs) → R.world.lossy RegOp.Failed s.regs
        (.writeReg reg_addr reg_data timeout) (writeAnswer ret) s'.regs := by
    intro ret s' hret hdone
    have hanswer : writeAnswer ret = .error ⟨ret, hret⟩ := dif_pos hret
    rw [hanswer]
    exact .inr ⟨trivial, hdone.imp_right fun hwrite => ⟨.ok (), rfl, hwrite⟩⟩
  rw [writeBody_eq, bind_assoc, wlp_bind]
  refine wlp_conseq (wlp_exchange R s _ _ _) fun res s' hres => ?_
  rw [commandBuf_take, writeBuf_take (by omega) hcnt] at hres
  cases res with
  | error ret =>
      obtain ⟨hret, hdone⟩ := hres
      refine hfail hret (hdone.imp_right ?_)
      rintro ⟨rx, mode', htakes⟩
      exact takes_write hcnt htakes
  | ok pair =>
      obtain ⟨ret, rx_buf⟩ := pair
      obtain ⟨hret, rx, mode', htakes, -⟩ := hres
      exact .inl ⟨dif_neg (not_lt.mpr hret), takes_write hcnt htakes⟩

end Mcu

end McuRegWr
