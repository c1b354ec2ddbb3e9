import McuRegWr.Base.Alone
import McuRegWr.Base.View
import McuRegWr.Proof.Transport.Server

/-!
# A line without faults

The transport relies on an MCU that acknowledges a start byte and the frames that follow it, and on
a line that neither loses a byte nor damages it. What the MCU does with an access is its own affair.
On such a line a program of accesses cannot be told from one on the registers themselves.
-/

namespace McuRegWr

open Base Prog

namespace Mcu

variable {ρ φ α : Type} {R : Registers ρ} {W : World SysI (Mcu ρ)} {s s' : Mcu ρ}
  {h : SpiRegHandle} {timeout : UInt32}

/-- The command frame of a read or a write. -/
abbrev commandFrame (cmd : UInt8) (reg_addr reg_cnt : UInt16) : List UInt8 :=
  header cmd reg_addr reg_cnt ++ [0xff, 0xff, 0xff]

/-- Of all that may happen on a line, what does happen on one without faults. -/
structure Faultless (R : Registers ρ) (W : World SysI (Mcu ρ)) : Prop where
  within {s s' : Mcu ρ} {o : SysOp} {r : SysOp.Ans o} (call : W s o r s') : world R s o r s'
  answers : W.Answers
  /-- A start byte is acknowledged. -/
  start {s s' : Mcu ρ} {fd n : Int} (call : W s (.write fd [SPI_CMD_START]) n s') :
    n = 1 ∧ s'.mode = .command ∧ s'.line = s.line ++ [SPI_ACK]
  /-- What has come can be read. -/
  ready {s s' : Mcu ρ} {fd timeout : Int} {fdset : PollAns} (call : W s (.poll fd timeout) fdset s')
    (hline : s.line ≠ []) : 0 < fdset.ret ∧ fdset.pollin = true
  bytes {s s' : Mcu ρ} {fd : Int} {ans : _} (call : W s (.read fd 1) ans s') (hline : s.line ≠ []) :
    ∃ b, ans = .ok ⟨[b], le_refl 1⟩
  /-- The frames are acknowledged, and what a read brings arrives as it was sent. -/
  command {s s' : Mcu ρ} {fd : Int} {tx : List UInt8} {ans : SpiAns tx.length}
    (call : W s (.spiMessage fd tx) ans s') (hmode : s.mode = .command)
    (hlen : tx.length = SPI_CMD_LEN) :
    0 ≤ ans.ret ∧ s'.mode = .data tx ∧ s'.line = s.line ++ [SPI_ACK]
  read {s s' : Mcu ρ} {fd : Int} {tx : List UInt8} {ans : SpiAns tx.length}
    (call : W s (.spiMessage fd tx) ans s') {reg_addr reg_cnt : UInt16}
    (hmode : s.mode = .data (commandFrame SPI_CMD_READ_REG reg_addr reg_cnt))
    (hlen : reg_cnt.toNat + WR_CRC_LEN ≤ tx.length) :
    0 ≤ ans.ret ∧ s'.line = s.line ++ [SPI_ACK] ∧ ∃ bytes,
      R.read reg_addr reg_cnt s.regs bytes s'.regs ∧
        ans.rx.take (reg_cnt.toNat + 2) = readFrame reg_addr reg_cnt bytes.val
  write {s s' : Mcu ρ} {fd : Int} {tx tx_cmd : List UInt8} {ans : SpiAns tx.length}
    (call : W s (.spiMessage fd tx) ans s') (hmode : s.mode = .data tx_cmd)
    {reg_addr reg_cnt : UInt16} {reg_data : List UInt8}
    (hreceive : receiveWrite tx_cmd tx = some (reg_addr, reg_cnt, reg_data)) :
    0 ≤ ans.ret ∧ s'.line = s.line ++ [SPI_ACK] ∧ R.write reg_addr reg_data s.regs s'.regs
  /-- Nothing that the registers may do is kept from the host. -/
  offer_read {s : Mcu ρ} {reg_addr reg_cnt : UInt16}
    (hmode : s.mode = .data (commandFrame SPI_CMD_READ_REG reg_addr reg_cnt)) {m' : ρ} {bytes : _}
    (hread : R.read reg_addr reg_cnt s.regs bytes m') (fd : Int) {tx : List UInt8}
    (hlen : reg_cnt.toNat + WR_CRC_LEN ≤ tx.length) : ∃ ans s', W s (.spiMessage fd tx) ans s' ∧
      s'.regs = m' ∧ ans.rx.take (reg_cnt.toNat + 2) = readFrame reg_addr reg_cnt bytes.val
  offer_write {s : Mcu ρ} {tx tx_cmd : List UInt8} (hmode : s.mode = .data tx_cmd)
    {reg_addr reg_cnt : UInt16} {reg_data : List UInt8}
    (hreceive : receiveWrite tx_cmd tx = some (reg_addr, reg_cnt, reg_data)) {m' : ρ}
    (hwrite : R.write reg_addr reg_data s.regs m') (fd : Int) :
    ∃ ans s', W s (.spiMessage fd tx) ans s' ∧ s'.regs = m'

theorem faultless_server (S : Server ρ) : Faultless S.registers S.line where
  within {s s' o r} call := by
    have hworld := S.world_mcu s o
    rw [show S.mcu s o = (r, s') from call] at hworld
    exact hworld
  answers s o := ⟨_, _, rfl⟩
  start {s s' fd n} call := by
    obtain ⟨rfl, rfl⟩ := Prod.mk.inj call
    rw [if_pos rfl]
    exact ⟨rfl, rfl, rfl⟩
  ready {s s' fd timeout fdset} call hline := by
    obtain ⟨rfl, rfl⟩ := Prod.mk.inj call
    rw [if_neg hline]
    exact ⟨Int.one_pos, rfl⟩
  bytes {s s' fd ans} call hline := by
    obtain ⟨rfl, rfl⟩ := Prod.mk.inj call
    obtain ⟨b, rest, hcons⟩ := List.exists_cons_of_ne_nil hline
    exact ⟨b, congrArg Except.ok (Subtype.ext (congrArg (List.take 1) hcons))⟩
  command {s s' fd tx ans} call hmode hlen := by
    have call : S.transfer s tx = (ans, s') := call
    rw [Server.transfer, hmode] at call
    dsimp only at call
    rw [if_pos hlen] at call
    obtain ⟨rfl, rfl⟩ := Prod.mk.inj call
    exact ⟨Server.reply_ret _ _, rfl, rfl⟩
  read {s s' fd tx ans} call {reg_addr reg_cnt} hmode hlen := by
    have call : S.transfer s tx = (ans, s') := call
    rw [Server.transfer_read hmode hlen] at call
    obtain ⟨rfl, rfl⟩ := Prod.mk.inj call
    exact ⟨Server.reply_ret _ _, rfl, _, rfl, Server.take_reply_frame hlen _⟩
  write {s s' fd tx tx_cmd ans} call hmode {reg_addr reg_cnt reg_data} hreceive := by
    have call : S.transfer s tx = (ans, s') := call
    rw [Server.transfer_write hmode hreceive] at call
    obtain ⟨rfl, rfl⟩ := Prod.mk.inj call
    exact ⟨Server.reply_ret _ _, rfl, rfl⟩
  offer_read {s reg_addr reg_cnt} hmode {m' bytes} hread fd {tx} hlen := by
    refine ⟨_, _, Server.transfer_read hmode hlen, congrArg Prod.snd hread, ?_⟩
    rw [Server.take_reply_frame hlen, show S.read reg_addr reg_cnt s.regs = (bytes, m') from hread]
  offer_write {s tx tx_cmd} hmode {reg_addr reg_cnt reg_data} hreceive {m'} hwrite fd :=
    ⟨_, _, Server.transfer_write hmode hreceive, Eq.symm hwrite⟩

/-! ### The parts of an access -/

theorem ends_ack (hW : Faultless R W) (hline : s.line = [SPI_ACK]) (fd timeout : Int) :
    (Uart.read fd 1 timeout).Ends W s fun res s' =>
      res = (1, [SPI_ACK]) ∧ s' = { s with line := [] } := by
  have hsome : s.line ≠ [] := by simp [hline]
  rw [Uart.read_one]
  simp only [Sys.poll, Sys.read, req_eq, ask_bind, done_bind]
  refine ⟨hW.answers s _, fun fdset s₁ hpoll => ?_⟩
  obtain rfl : s₁ = s := hW.within hpoll
  obtain ⟨hret, hin⟩ := hW.ready hpoll hsome
  dsimp only
  rw [if_neg (not_lt.mpr hret.le), if_neg hret.ne', if_pos hin]
  refine ⟨hW.answers s₁ _, fun ans s₂ hread => ?_⟩
  obtain ⟨b, rfl⟩ := hW.bytes hread hsome
  obtain ⟨rest, hbytes, hleft⟩ := hW.within hread
  obtain ⟨rfl, rfl⟩ := List.cons.inj (hline.symm.trans hbytes)
  exact ⟨rfl, hleft⟩

theorem ends_inClean (hW : Faultless R W) (fd : Int) :
    (Uart.inClean fd).Ends W s fun _ s' => s' = { s with line := [] } :=
  ⟨hW.answers s _, fun _ _ hflush => hW.within hflush⟩

theorem ends_start (hW : Faultless R W) (hline : s.line = []) (fd : Int) :
    (Uart.write fd [SPI_CMD_START]).Ends W s fun n s' =>
      n = 1 ∧ s' = ⟨s.regs, .command, [SPI_ACK]⟩ := by
  refine ⟨hW.answers s _, fun n s' hstart => ?_⟩
  obtain ⟨rfl, hmode, hsent⟩ := hW.start hstart
  have hregs : s'.regs = s.regs := by
    rcases hW.within hstart with ⟨hregs, -⟩ | ⟨-, hregs, -⟩ <;> exact hregs
  obtain ⟨regs, mode, line⟩ := s'
  dsimp only at hregs hmode hsent
  rw [hline] at hsent
  subst hregs hmode hsent
  exact ⟨rfl, rfl⟩

theorem ends_transferSpi (hW : Faultless R W) {tx_buf rx_buf : List UInt8} {length : Nat}
    {Q : Int × List UInt8 → Mcu ρ → Prop}
    (hmoved : ∀ (ans : SpiAns (tx_buf.take length).length) s',
      W s (.spiMessage h.fd (tx_buf.take length)) ans s' →
      Q (ans.ret, storeAt rx_buf 0 ans.rx) s') :
    (transferSpi h tx_buf rx_buf length).Ends W s Q :=
  ⟨hW.answers s _, fun ans s' hans => hmoved ans s' hans⟩

theorem ends_waitAck (hW : Faultless R W) (hline : s.line = [SPI_ACK]) :
    (waitAck h timeout).Ends W s fun ret s' => ret = 0 ∧ s' = { s with line := [] } := by
  rw [waitAck]
  refine (ends_ack hW hline _ _).bind fun res s₁ hend => ?_
  obtain ⟨rfl, rfl⟩ := hend
  dsimp only
  rw [if_neg (by simp)]
  refine (ends_inClean hW _).bind fun _ s₂ hs₂ => ?_
  subst hs₂
  exact ⟨rfl, rfl⟩

theorem ends_gotoStartCmd (hW : Faultless R W) (s : Mcu ρ) :
    (gotoStartCmd h timeout).Ends W s fun ret s' => ret = 0 ∧ s' = ⟨s.regs, .command, []⟩ := by
  rw [gotoStartCmd]
  refine (ends_inClean hW _).bind fun _ s₁ hs₁ => ?_
  subst hs₁
  refine (ends_start hW rfl _).bind fun n s₂ hend => ?_
  obtain ⟨rfl, rfl⟩ := hend
  rw [if_neg (not_not.mpr rfl)]
  refine (ends_ack hW rfl _ _).bind fun res s₃ hend => ?_
  obtain ⟨rfl, rfl⟩ := hend
  dsimp only
  rw [if_neg (show ¬ (1 : Int) ≤ 0 by decide),
    if_neg (show ¬ [SPI_ACK].headD SPI_CMD_START ≠ SPI_ACK from not_not.mpr rfl)]
  refine (ends_inClean hW _).bind fun _ s₄ hs₄ => ?_
  subst hs₄
  exact ⟨rfl, rfl⟩

theorem command_moved (hW : Faultless R W) {m : ρ} {fd : Int} {tx : List UInt8}
    {ans : SpiAns tx.length} (hlen : tx.length = SPI_CMD_LEN)
    (call : W ⟨m, .command, []⟩ (.spiMessage fd tx) ans s') :
    0 ≤ ans.ret ∧ s' = ⟨m, .data tx, [SPI_ACK]⟩ := by
  obtain ⟨hret, hmode, hline⟩ := hW.command call rfl hlen
  have hregs : s'.regs = m := by
    rcases regs_of_moved (hW.within call) with hregs | htakes
    · exact hregs
    · exact (regs_of_command htakes).2
  obtain ⟨regs, mode, line⟩ := s'
  dsimp only at hregs hmode hline
  subst hregs hmode hline
  exact ⟨hret, rfl⟩

section

variable {tx_cmd tx_data : List UInt8} {length : Nat}

/-- An exchange comes to an end as its data frame does. -/
theorem ends_exchange (hW : Faultless R W) (s : Mcu ρ)
    (hcmd : (tx_cmd.take SPI_CMD_LEN).length = SPI_CMD_LEN) {P : List UInt8 → ρ → Prop}
    (hdata : ∀ (ans : SpiAns (tx_data.take length).length) s',
      W ⟨s.regs, .data (tx_cmd.take SPI_CMD_LEN), []⟩ (.spiMessage h.fd (tx_data.take length)) ans
        s' → 0 ≤ ans.ret ∧ s'.line = [SPI_ACK] ∧ P ans.rx s'.regs) :
    (exchange h timeout tx_cmd tx_data length).Ends W s fun res s' =>
      ∃ rx rx_buf, res = .ok (0, rx_buf) ∧ rx.length = (tx_data.take length).length ∧
        rx_buf.take rx.length = rx ∧ P rx s'.regs := by
  rw [exchange]
  refine (ends_gotoStartCmd hW s).bind fun ret s₁ hend => ?_
  obtain ⟨rfl, rfl⟩ := hend
  rw [if_neg (lt_irrefl (0 : Int))]
  apply Ends.bind (ends_transferSpi hW (Q := fun res s' => 0 ≤ res.1 ∧
    s' = ⟨s.regs, .data (tx_cmd.take SPI_CMD_LEN), [SPI_ACK]⟩) fun ans₁ s₂ hmoved₁ =>
      command_moved hW hcmd hmoved₁)
  rintro ⟨ret₁, rx_buf⟩ s₂ ⟨hret₁, rfl⟩
  dsimp only
  rw [if_neg (not_lt.mpr hret₁)]
  refine (ends_waitAck hW rfl).bind fun ret s₃ hend => ?_
  obtain ⟨rfl, rfl⟩ := hend
  rw [if_neg (lt_irrefl (0 : Int))]
  apply Ends.bind (ends_transferSpi hW (Q := fun res s' => ∃ rx, 0 ≤ res.1 ∧
    rx.length = (tx_data.take length).length ∧ res.2.take rx.length = rx ∧
    s'.line = [SPI_ACK] ∧ P rx s'.regs) fun ans₂ s₄ hmoved₂ => ?_)
  · rintro ⟨ret₂, rx_buf⟩ s₄ ⟨rx, hret₂, hlen, htake, hline, hP⟩
    dsimp only
    rw [if_neg (not_lt.mpr hret₂)]
    refine (ends_waitAck hW hline).bind fun ret s₅ hend => ?_
    obtain ⟨rfl, rfl⟩ := hend
    rw [if_neg (lt_irrefl (0 : Int))]
    exact ⟨rx, rx_buf, rfl, hlen, htake, hP⟩
  · obtain ⟨hret₂, hline, hP⟩ := hdata ans₂ s₄ hmoved₂
    exact ⟨ans₂.rx, hret₂, ans₂.length_rx, take_storeAt_zero _ _, hline, hP⟩

theorem exec_transferSpi {tx_buf rx_buf : List UInt8} {length : Nat}
    {ans : SpiAns (tx_buf.take length).length}
    (hmoved : W s (.spiMessage h.fd (tx_buf.take length)) ans s') :
    Exec W (transferSpi h tx_buf rx_buf length) s (ans.ret, storeAt rx_buf 0 ans.rx) s' :=
  exec_ask.mpr ⟨ans, s', hmoved, .refl _ _⟩

theorem exec_exchange (hW : Faultless R W) (s : Mcu ρ)
    (hcmd : (tx_cmd.take SPI_CMD_LEN).length = SPI_CMD_LEN)
    {ans : SpiAns (tx_data.take length).length}
    (hmoved : W ⟨s.regs, .data (tx_cmd.take SPI_CMD_LEN), []⟩
      (.spiMessage h.fd (tx_data.take length)) ans s')
    (hret : 0 ≤ ans.ret) (hline : s'.line = [SPI_ACK]) :
    ∃ rx_buf s₁, Exec W (exchange h timeout tx_cmd tx_data length) s
      (.ok (0, storeAt rx_buf 0 ans.rx)) s₁ ∧ s₁.regs = s'.regs := by
  obtain ⟨_, _, hgoto, rfl, rfl⟩ := (@ends_gotoStartCmd _ _ _ h timeout hW s).exists_exec
  obtain ⟨ans₁, s₁, hmoved₁⟩ := hW.answers ⟨s.regs, .command, []⟩
    (.spiMessage h.fd (tx_cmd.take SPI_CMD_LEN))
  obtain ⟨hret₁, rfl⟩ := command_moved hW hcmd hmoved₁
  obtain ⟨_, _, hack₁, rfl, rfl⟩ := (@ends_waitAck _ _ _
    ⟨s.regs, .data (tx_cmd.take SPI_CMD_LEN), [SPI_ACK]⟩ h timeout hW rfl).exists_exec
  obtain ⟨_, _, hack₂, rfl, rfl⟩ := (@ends_waitAck _ _ _ _ h timeout hW hline).exists_exec
  let rx_buf := storeAt (List.replicate SPI_RT_MSG_MAX_SIZE 0xff) 0 ans₁.rx
  refine ⟨rx_buf, { s' with line := [] }, exec_bind.mpr ⟨0, _, hgoto, ?_⟩, rfl⟩
  rw [if_neg (lt_irrefl (0 : Int))]
  refine exec_bind.mpr ⟨_, _, exec_transferSpi hmoved₁, ?_⟩
  dsimp only
  rw [if_neg (not_lt.mpr hret₁)]
  refine exec_bind.mpr ⟨0, _, hack₁, ?_⟩
  rw [if_neg (lt_irrefl (0 : Int))]
  refine exec_bind.mpr ⟨_, _, exec_transferSpi hmoved, ?_⟩
  dsimp only
  rw [if_neg (not_lt.mpr hret)]
  refine exec_bind.mpr ⟨0, _, hack₂, ?_⟩
  rw [if_neg (lt_irrefl (0 : Int))]
  exact .refl _ _

end

/-! ### A whole access -/

/-- A frame that came whole carries the checksum that is expected of it. -/
theorem crcMatches_of_frame {reg_addr reg_cnt : UInt16} {rx payload : List UInt8}
    (hlen : payload.length = reg_cnt.toNat)
    (hrx : rx.take (reg_cnt.toNat + 2) = readFrame reg_addr reg_cnt payload) :
    CrcMatches reg_addr reg_cnt rx := by
  have hword : wordAt rx reg_cnt.toNat = frameCrc SPI_CMD_READ_REG reg_addr reg_cnt payload := by
    rw [← wordAt_take (le_refl (reg_cnt.toNat + 2)), hrx, readFrame, ← hlen,
      ← List.append_nil (bigEndian _)]
    exact wordAt_bigEndian _
  have hdata : frameCrc SPI_CMD_READ_REG reg_addr reg_cnt rx =
      frameCrc SPI_CMD_READ_REG reg_addr reg_cnt payload := by
    rw [← frameCrc_take _ _ _ (Nat.le_add_right reg_cnt.toNat 2), hrx, readFrame,
      ← frameCrc_take _ _ _ (le_refl reg_cnt.toNat), List.take_left' hlen]
  rw [CrcMatches, hword, hdata]

theorem le_readData {reg_addr reg_cnt : UInt16} (hcnt : reg_cnt.toNat ≤ 1022) :
    reg_cnt.toNat + WR_CRC_LEN ≤
      ((commandBuf SPI_CMD_READ_REG reg_addr reg_cnt).take (transLength reg_cnt)).length := by
  rw [List.length_take, length_commandBuf, Nat.min_eq_left (transLength_le hcnt)]
  exact le_transLength reg_cnt

section

variable {reg_addr reg_cnt : UInt16} {reg_data : List UInt8}

theorem exec_readAnswer {rx rx_buf buf : List UInt8}
    {bytes : {bytes : List UInt8 // bytes.length = reg_cnt.toNat}}
    (hle : reg_cnt.toNat + 2 ≤ rx.length) (htake : rx_buf.take rx.length = rx)
    (hrx : rx.take (reg_cnt.toNat + 2) = readFrame reg_addr reg_cnt bytes.val) :
    ((if readCrcFound reg_cnt rx_buf = readCrc reg_addr reg_cnt rx_buf then
        pure (0, storeAt buf 0 (rx_buf.take reg_cnt.toNat)) else pure (-3, buf) :
      Prog SysI (Int × List UInt8)) >>= fun res => pure (readAnswer reg_cnt res)) =
      pure (.ok bytes) := by
  have hcrc := (crc_matches_iff hle htake).mpr (crcMatches_of_frame bytes.property hrx)
  rw [if_pos hcrc, pure_bind, readAnswer_of_frame hle htake hrx]

/-- A read comes to an end as one of the registers does. -/
theorem ends_readBody (hW : Faultless R W) (s : Mcu ρ) (hcnt : reg_cnt.toNat ≤ 1022)
    (buf : List UInt8) :
    (SpiReg.readBody h reg_addr reg_cnt buf timeout >>= fun res =>
        pure (readAnswer reg_cnt res)).Ends W s fun r s' =>
      R.world s.regs (.readReg reg_addr reg_cnt timeout) r s'.regs := by
  rw [readBody_eq, bind_assoc]
  refine (ends_exchange hW s (by rw [commandBuf_take]; rfl)
    (P := fun rx m' => ∃ bytes, R.read reg_addr reg_cnt s.regs bytes m' ∧
      rx.take (reg_cnt.toNat + 2) = readFrame reg_addr reg_cnt bytes.val) ?_).bind ?_
  · intro ans s' hmoved
    exact hW.read hmoved (congrArg Mode.data (commandBuf_take _ _ _)) (le_readData hcnt)
  · rintro res s' ⟨rx, rx_buf, rfl, hlen, htake, bytes, hread, hrx⟩
    have hle : reg_cnt.toNat + 2 ≤ rx.length := hlen ▸ le_readData hcnt
    dsimp only
    rw [exec_readAnswer hle htake hrx]
    exact ⟨bytes, rfl, hread⟩

theorem exec_readBody (hW : Faultless R W) (s : Mcu ρ) (hcnt : reg_cnt.toNat ≤ 1022)
    (buf : List UInt8) {bytes : _} {m' : ρ} (hread : R.read reg_addr reg_cnt s.regs bytes m') :
    ∃ s', Exec W (SpiReg.readBody h reg_addr reg_cnt buf timeout >>= fun res =>
      pure (readAnswer reg_cnt res)) s (.ok bytes) s' ∧ s'.regs = m' := by
  let s₁ : Mcu ρ := ⟨s.regs, .data ((commandBuf SPI_CMD_READ_REG reg_addr reg_cnt).take
    SPI_CMD_LEN), []⟩
  have hmode : s₁.mode = .data (commandFrame SPI_CMD_READ_REG reg_addr reg_cnt) :=
    congrArg Mode.data (commandBuf_take _ _ _)
  have hlen := @le_readData reg_addr reg_cnt hcnt
  obtain ⟨ans, s₂, hmoved, rfl, hrx⟩ := hW.offer_read hmode hread h.fd hlen
  obtain ⟨hret, hline, -⟩ := hW.read hmoved hmode hlen
  obtain ⟨rx_buf, s₃, hrun, hregs⟩ := @exec_exchange ρ R W s₂ h timeout _ _ _ hW s
    (by rw [commandBuf_take]; rfl) ans hmoved hret hline
  refine ⟨s₃, ?_, hregs⟩
  rw [readBody_eq, bind_assoc]
  refine exec_bind.mpr ⟨_, _, hrun, ?_⟩
  dsimp only
  rw [exec_readAnswer (ans.length_rx.symm ▸ hlen) (take_storeAt_zero _ _) hrx]
  exact .refl _ _

theorem receiveWrite_data (hlen : reg_data.length ≤ 1022) :
    receiveWrite ((commandBuf SPI_CMD_WRITE_REG reg_addr (UInt16.ofNat reg_data.length)).take
        SPI_CMD_LEN)
      ((writeBuf reg_addr (UInt16.ofNat reg_data.length) reg_data).take
        (transLength (UInt16.ofNat reg_data.length))) =
      some (reg_addr, UInt16.ofNat reg_data.length, reg_data) := by
  have hcnt : reg_data.length = (UInt16.ofNat reg_data.length).toNat := by
    rw [UInt16.toNat_ofNat']
    omega
  rw [commandBuf_take, ← receiveWrite_frames hcnt, ← writeBuf_take (by omega) hcnt]

theorem ends_writeBody (hW : Faultless R W) (s : Mcu ρ) (hlen : reg_data.length ≤ 1022) :
    (SpiReg.writeBody h reg_addr (UInt16.ofNat reg_data.length) reg_data timeout >>= fun ret =>
        pure (writeAnswer ret)).Ends W s fun r s' =>
      R.world s.regs (.writeReg reg_addr reg_data timeout) r s'.regs := by
  rw [writeBody_eq, bind_assoc]
  refine (ends_exchange hW s (by rw [commandBuf_take]; rfl)
    (P := fun _ m' => R.write reg_addr reg_data s.regs m') ?_).bind ?_
  · intro ans s' hmoved
    exact hW.write hmoved rfl (receiveWrite_data hlen)
  · rintro res s' ⟨rx, rx_buf, rfl, -, -, hwrite⟩
    exact ⟨rfl, hwrite⟩

theorem exec_writeBody (hW : Faultless R W) (s : Mcu ρ) (hlen : reg_data.length ≤ 1022) {m' : ρ}
    (hwrite : R.write reg_addr reg_data s.regs m') :
    ∃ s', Exec W (SpiReg.writeBody h reg_addr (UInt16.ofNat reg_data.length) reg_data timeout >>=
      fun ret => pure (writeAnswer ret)) s (.ok ()) s' ∧ s'.regs = m' := by
  have hreceive := @receiveWrite_data reg_addr reg_data hlen
  let s₁ : Mcu ρ := ⟨s.regs, .data ((commandBuf SPI_CMD_WRITE_REG reg_addr
    (UInt16.ofNat reg_data.length)).take SPI_CMD_LEN), []⟩
  obtain ⟨ans, s₂, hmoved, rfl⟩ := hW.offer_write (s := s₁) rfl hreceive hwrite h.fd
  obtain ⟨hret, hline, -⟩ := hW.write hmoved rfl hreceive
  obtain ⟨rx_buf, s₃, hrun, hregs⟩ := @exec_exchange ρ R W s₂ h timeout _ _ _ hW s
    (by rw [commandBuf_take]; rfl) ans hmoved hret hline
  refine ⟨s₃, ?_, hregs⟩
  rw [writeBody_eq, bind_assoc]
  exact exec_bind.mpr ⟨_, _, hrun, .refl _ _⟩

end

/-! ### A program of accesses -/

variable {files : World FileI φ} {o : RegOp}

/-- What is seen of a line from above. -/
abbrev seen (s : Mcu ρ × φ) : ρ × φ := (s.1.regs, s.2)

/-- A section that comes to the answers of the registers, and can come to all of them. -/
theorem guarded_exact {refused : Int → RegOp.Ans o} {body : Prog SysI (RegOp.Ans o)}
    (ho : o.isAccess = true) (hends : ∀ s, body.Ends W s fun r s' => R.world s.regs o r s'.regs)
    (hexec : ∀ s r m', R.world s.regs o r m' → ∃ s', Exec W body s r s' ∧ s'.regs = m')
    (s : Mcu ρ × φ) (r : RegOp.Ans o) (t : ρ × φ) :
    (∃ s', Exec (Guard.alone W files) (Guard.guarded refused body) s r s' ∧ seen s' = t) ↔
      beside R.world files (seen s) o r t := by
  have haccess : ¬ o.isAccess = false := by simp [ho]
  rw [beside, dif_neg haccess]
  constructor
  · rintro ⟨s', run, rfl⟩
    obtain ⟨run, hrest⟩ := Guard.exec_alone.mp run
    exact ⟨(hends s.1).of_exec run, hrest⟩
  · rintro ⟨hworld, hrest⟩
    obtain ⟨x, run, hregs⟩ := hexec s.1 r t.1 hworld
    exact ⟨(x, t.2), Guard.exec_alone.mpr ⟨run, hrest⟩, Prod.ext hregs rfl⟩

/-- An access on the line is one of the registers. -/
theorem access_exact (hW : Faultless R W) (s : Mcu ρ × φ) (ho : o.Fits) (r : RegOp.Ans o)
    (t : ρ × φ) :
    (∃ s', Exec (Guard.alone W files) (SpiReg.access h o) s r s' ∧ seen s' = t) ↔
      beside R.world files (seen s) o r t := by
  cases o with
  | readReg reg_addr reg_cnt timeout =>
      rw [SpiReg.access_readReg]
      refine guarded_exact rfl (fun s => ends_readBody hW s ho _) ?_ s r t
      rintro s _ m' ⟨bytes, rfl, hread⟩
      exact exec_readBody hW s ho _ hread
  | writeReg reg_addr reg_data timeout =>
      rw [SpiReg.access_writeReg]
      refine guarded_exact rfl (fun s => ends_writeBody hW s ho) ?_ s r t
      rintro s _ m' ⟨rfl, hwrite⟩
      exact exec_writeBody hW s ho hwrite
  | _ =>
      constructor
      · rintro ⟨s', run, rfl⟩
        obtain ⟨_, _, hown, run⟩ := exec_ask.mp run
        obtain ⟨rfl, rfl⟩ := exec_done.mp run
        obtain ⟨hregs, hfile⟩ := hown
        exact ⟨congrArg Mcu.regs hregs, hfile⟩
      · rintro ⟨hregs, hfile⟩
        exact ⟨(s.1, t.2), exec_ask.mpr ⟨r, (s.1, t.2), ⟨rfl, hfile⟩, .refl _ _⟩,
          Prod.ext hregs.symm rfl⟩

theorem ends_access (hW : Faultless R W) (s : Mcu ρ × φ) (ho : o.Fits)
    (hsome : ∃ r t, beside R.world files (seen s) o r t) :
    (SpiReg.access h o).Ends (Guard.alone W files) s fun r s' =>
      beside R.world files (seen s) o r (seen s') := by
  cases o with
  | readReg reg_addr reg_cnt timeout =>
      rw [SpiReg.access_readReg]
      exact Guard.ends_alone (ends_readBody hW s.1 ho _)
  | writeReg reg_addr reg_data timeout =>
      rw [SpiReg.access_writeReg]
      exact Guard.ends_alone (ends_writeBody hW s.1 ho)
  | _ =>
      obtain ⟨r, t, -, hfile⟩ := hsome
      refine ⟨⟨r, (s.1, t.2), rfl, hfile⟩, fun r s' ⟨hregs, hfile⟩ => ?_⟩
      exact ⟨congrArg Mcu.regs hregs, hfile⟩

/-- On a line without faults, whatever has been left on it and whatever the MCU was waiting for, a
program of register accesses and files that makes them all by `SpiReg_Read` and `SpiReg_Write` does
what it does on the registers themselves, and nothing else. -/
theorem lower_transparent (hW : Faultless R W) (h : SpiRegHandle) {p : Prog RegI α}
    (hfits : p.Asks RegOp.Fits) (s : Mcu ρ) (y : φ) (a : α) (m : ρ) (y' : φ) :
    (∃ s' : Mcu ρ, Exec (Guard.alone W files) (p.lower (SpiReg.access h)) (s, y) a (s', y') ∧
      s'.regs = m) ↔ Exec (beside R.world files) p (s.regs, y) a (m, y') := by
  rw [← exec_lower seen (fun s o ho => access_exact hW s ho) hfits (s, y) a (m, y')]
  constructor
  · rintro ⟨s', run, rfl⟩
    exact ⟨(s', y'), run, rfl⟩
  · rintro ⟨⟨s', z⟩, run, heq⟩
    cases heq
    exact ⟨s', run, rfl⟩

/-- What is written can be read back, on a line where the MCU was left in the middle of an access.
-/
theorem lower_transparent_readBack : ∃ s' : Mcu RegFile,
    Exec (Guard.alone Server.regFile.line fun _ _ _ _ => False)
      ((RVMcu.writeReg 0x1010 [0x2a] 1 100 >>= fun _ => RVMcu.readReg 0x1010 [0x00] 1 100).lower
        (SpiReg.access ⟨3, 4, 5⟩))
      (⟨fun _ => 0, .data [0x06], [SPI_ACK]⟩, ()) (0, [0x2a]) (s', ()) ∧
      s'.regs = RegFile.store (fun _ => 0) 0x1010 [0x2a] := by
  have hwrite : (RVMcu.writeReg 0x1010 [0x2a] 1 100).Asks RegOp.Fits :=
    RVMcu.asks_writeReg (by simp [RegOp.Fits])
  have hread : (RVMcu.readReg 0x1010 [0x00] 1 100).Asks RegOp.Fits :=
    RVMcu.asks_readReg (by simp [RegOp.Fits])
  apply (lower_transparent (faultless_server _) _ (hwrite.bind fun _ => hread) _ _ _ _ _).mpr
  have wrote : beside Server.regFile.registers.world (fun _ _ _ _ => False) (fun _ => 0, ())
      (.writeReg 0x1010 [0x2a] 100) (.ok ()) (RegFile.store (fun _ => 0) 0x1010 [0x2a], ()) :=
    ⟨⟨rfl, rfl⟩, rfl⟩
  have back : beside Server.regFile.registers.world (fun _ _ _ _ => False)
      (RegFile.store (fun _ => 0) 0x1010 [0x2a], ()) (.readReg 0x1010 1 100) (.ok ⟨[0x2a], rfl⟩)
      (RegFile.store (fun _ => 0) 0x1010 [0x2a], ()) :=
    ⟨⟨_, rfl, rfl⟩, rfl⟩
  exact .ask wrote (.ask back (.refl _ _))

theorem refines_access (hW : Faultless R W) (h : SpiRegHandle) {p : Prog RegI α}
    (hfits : p.Asks RegOp.Fits) :
    (p.lower (SpiReg.access h)).Refines (Guard.alone W files) (beside R.world files) seen p :=
  refines_lower (fun s _ ho hsome => ends_access hW s ho hsome) hfits

theorem exists_answer (hW : Faultless R W) (m : ρ) {o : RegOp} (haccess : o.isAccess = true)
    (ho : o.Fits) : ∃ r m', R.world m o r m' := by
  cases o with
  | readReg reg_addr reg_cnt timeout =>
      obtain ⟨r, s', -, hworld⟩ :=
        (@ends_readBody _ _ _ ⟨0, 0, 0⟩ timeout _ _ hW ⟨m, .idle, []⟩ ho []).exists_exec
      exact ⟨r, s'.regs, hworld⟩
  | writeReg reg_addr reg_data timeout =>
      obtain ⟨r, s', -, hworld⟩ :=
        (@ends_writeBody _ _ _ ⟨0, 0, 0⟩ timeout _ _ hW ⟨m, .idle, []⟩ ho).exists_exec
      exact ⟨r, s'.regs, hworld⟩
  | _ => cases haccess

section

/-! ### An access, on the registers -/

variable {β : Type} {m : ρ} {y : φ} {Q : β → ρ × φ → Prop} {reg_addr cnt : UInt16}
  {data : List UInt8}

theorem ends_read (hW : Faultless R W) (hcnt : cnt.toNat ≤ 1022)
    {next : RegOp.Ans (.readReg reg_addr cnt timeout) → Prog RegI β}
    (h : ∀ bytes m', R.read reg_addr cnt m bytes m' →
      (next (.ok bytes)).Ends (beside R.world files) (m', y) Q) :
    (@Prog.ask RegI β (.readReg reg_addr cnt timeout) next).Ends (beside R.world files) (m, y)
      Q := by
  obtain ⟨r, m', hworld⟩ := exists_answer hW m (o := .readReg reg_addr cnt timeout) rfl hcnt
  refine ⟨⟨r, (m', y), hworld, rfl⟩, ?_⟩
  rintro r ⟨m', y'⟩ ⟨⟨bytes, hr, hread⟩, hy⟩
  subst hr hy
  exact h bytes m' hread

theorem ends_write (hW : Faultless R W) (hlen : data.length ≤ 1022)
    {next : RegOp.Ans (.writeReg reg_addr data timeout) → Prog RegI β}
    (h : ∀ m', R.write reg_addr data m m' →
      (next (.ok ())).Ends (beside R.world files) (m', y) Q) :
    (@Prog.ask RegI β (.writeReg reg_addr data timeout) next).Ends (beside R.world files) (m, y)
      Q := by
  obtain ⟨r, m', hworld⟩ := exists_answer hW m (o := .writeReg reg_addr data timeout) rfl hlen
  refine ⟨⟨r, (m', y), hworld, rfl⟩, ?_⟩
  rintro r ⟨m', y'⟩ ⟨⟨hr, hwrite⟩, hy⟩
  subst hr hy
  exact h m' hwrite

theorem ends_readReg_bind (hW : Faultless R W) (hcnt : cnt.toNat ≤ 1022)
    {k : Int × List UInt8 → Prog RegI β}
    (hk : ∀ bytes m', R.read reg_addr cnt m bytes m' →
      (k (0, storeAt data 0 bytes.val)).Ends (beside R.world files) (m', y) Q) :
    (RVMcu.readReg reg_addr data cnt timeout >>= k).Ends (beside R.world files) (m, y) Q :=
  ends_read hW hcnt hk

theorem ends_writeReg_bind (hW : Faultless R W) (hlen : (data.take cnt.toNat).length ≤ 1022)
    {k : Int → Prog RegI β}
    (hk : ∀ m', R.write reg_addr (data.take cnt.toNat) m m' →
      (k 0).Ends (beside R.world files) (m', y) Q) :
    (RVMcu.writeReg reg_addr data cnt timeout >>= k).Ends (beside R.world files) (m, y) Q :=
  ends_write hW hlen hk

end

end Mcu

end McuRegWr
