import McuRegWr.SpiReg

/-!
# What a register access leaves in its trace

The readings of a trace that the results about one access are stated in: what was sent, received and
transferred, in order, and the locks. The five steps both accesses make between their locks are one
program, `exchange`, and `runs_exchange` is all the accesses need of it.
-/

namespace McuRegWr

open Base Prog

/-! ### Reading a trace -/

/-- What passes between the host and the MCU. -/
inductive Phase where
  | sent (data : List UInt8) (ret : Int)
  | got (ch : UInt8)
  | moved (tx : List UInt8) (ret : Int) (rx : List UInt8)
  deriving DecidableEq

def phase : SysI.Event → List Phase
  | ⟨.write _ data, ret⟩ => [.sent data ret]
  | ⟨.read _ _, .ok bytes⟩ => bytes.val.map .got
  | ⟨.spiMessage _ tx, ans⟩ => [.moved tx ans.ret ans.rx]
  | _ => []

/-- The result of an attempt to take the file lock. -/
def flocked : SysI.Event → List Int
  | ⟨.flock _ .LOCK_EX, ret⟩ => [ret]
  | _ => []

def phases (t : List SysI.Event) : List Phase := t.flatMap phase
def flocks (t : List SysI.Event) : List Int := t.flatMap flocked

@[simp] theorem phases_append (t u : List SysI.Event) : phases (t ++ u) = phases t ++ phases u :=
  List.flatMap_append

@[simp] theorem flocks_append (t u : List SysI.Event) : flocks (t ++ u) = flocks t ++ flocks u :=
  List.flatMap_append

/-- Which of the two locks of a handle are held. -/
structure Locks where
  mutex : Bool
  file : Bool
  deriving DecidableEq

/-- The locks after an event. Releasing a lock that is not held, or taking one twice, is `none`. -/
def Locks.step (l : Locks) : SysI.Event → Option Locks
  | ⟨.mutexLock, _⟩ => if l.mutex then none else some { l with mutex := true }
  | ⟨.mutexUnlock, _⟩ => if l.mutex then some { l with mutex := false } else none
  | ⟨.flock _ .LOCK_EX, ret⟩ =>
      if ret < 0 then some l else if l.file then none else some { l with file := true }
  | ⟨.flock _ .LOCK_UN, _⟩ => if l.file then some { l with file := false } else none
  | _ => some l

/-- The locks after the events of a trace. -/
def Locks.after : Locks → List SysI.Event → Option Locks
  | l, [] => some l
  | l, e :: t => (l.step e).bind fun l => l.after t

theorem Locks.after_append (l : Locks) (t u : List SysI.Event) :
    l.after (t ++ u) = (l.after t).bind fun l => l.after u := by
  induction t generalizing l with
  | nil => rfl
  | cons e t ih =>
      rw [List.cons_append, after, after]
      cases l.step e with
      | none => rfl
      | some l' => exact ih l'

/-- An event that has nothing to do with the locks. -/
structure Unlocked (e : SysI.Event) : Prop where
  step : ∀ l : Locks, l.step e = some l
  flocked : flocked e = []

theorem Locks.after_unlocked {t : List SysI.Event} (h : ∀ e ∈ t, Unlocked e) (l : Locks) :
    l.after t = some l := by
  induction t with
  | nil => rfl
  | cons e t ih =>
      rw [after, (h e List.mem_cons_self).step l]
      exact ih fun e he => h e (List.mem_cons_of_mem _ he)

theorem flocks_unlocked {t : List SysI.Event} (h : ∀ e ∈ t, Unlocked e) : flocks t = [] :=
  List.flatMap_eq_nil_iff.mpr fun e he => (h e he).flocked

/-- What a part of an access adds to a trace: some phases, and nothing about the locks. -/
structure Part (t : List SysI.Event) (ps : List Phase) : Prop where
  phases : phases t = ps
  unlocked : ∀ e ∈ t, Unlocked e

theorem Part.append {t u : List SysI.Event} {ps qs : List Phase} (h : Part t ps)
    (h' : Part u qs) : Part (t ++ u) (ps ++ qs) where
  phases := by rw [phases_append, h.phases, h'.phases]
  unlocked := fun e he => (List.mem_append.mp he).elim (h.unlocked e) (h'.unlocked e)

theorem Part.single {e : SysI.Event} (h : Unlocked e) : Part [e] (phase e) where
  phases := List.flatMap_singleton ..
  unlocked := by
    intro e' he
    rwa [List.mem_singleton.mp he]

theorem part_tcflush (fd : Int) (r : Unit) : Part [⟨.tcflush fd, r⟩] [] :=
  Part.single ⟨fun _ => rfl, rfl⟩

theorem part_write (fd : Int) (data : List UInt8) (ret : Int) :
    Part [⟨.write fd data, ret⟩] [.sent data ret] :=
  Part.single ⟨fun _ => rfl, rfl⟩

theorem part_poll (fd timeout : Int) (ans : PollAns) : Part [⟨.poll fd timeout, ans⟩] [] :=
  Part.single ⟨fun _ => rfl, rfl⟩

theorem part_read_error (fd : Int) (size : Nat) (rn : Fail) :
    Part [⟨.read fd size, .error rn⟩] [] :=
  Part.single ⟨fun _ => rfl, rfl⟩

theorem part_read (fd : Int) (size : Nat) (bytes : {bytes : List UInt8 // bytes.length ≤ size}) :
    Part [⟨.read fd size, .ok bytes⟩] (bytes.val.map .got) :=
  Part.single ⟨fun _ => rfl, rfl⟩

theorem part_spiMessage (fd : Int) (tx : List UInt8) (ans : SpiAns tx.length) :
    Part [⟨.spiMessage fd tx, ans⟩] [.moved tx ans.ret ans.rx] :=
  Part.single ⟨fun _ => rfl, rfl⟩

/-! ### Waiting for an acknowledge -/

theorem runs_read_one {fd timeout ret : Int} {buf : List UInt8} {t : List SysI.Event}
    (hrun : Runs (Uart.read fd 1 timeout) t (ret, buf)) :
    Part t (buf.map .got) ∧ (ret ≤ 0 ∧ buf = [] ∨ ret = 1 ∧ ∃ b, buf = [b]) := by
  rw [Uart.read_one] at hrun
  simp only [Sys.poll, Sys.read, req_eq, ask_bind, done_bind, runs_ask] at hrun
  obtain ⟨fdset, t', rfl, run⟩ := hrun
  have hpart := part_poll fd timeout fdset
  by_cases hneg : fdset.ret < 0
  · rw [if_pos hneg, runs_pure] at run
    obtain ⟨rfl, heq⟩ := run
    obtain ⟨rfl, rfl⟩ := Prod.mk.inj heq
    exact ⟨hpart, .inl ⟨le_of_lt hneg, rfl⟩⟩
  by_cases hzero : fdset.ret = 0
  · rw [if_neg hneg, if_pos hzero, runs_pure] at run
    obtain ⟨rfl, heq⟩ := run
    obtain ⟨rfl, rfl⟩ := Prod.mk.inj heq
    exact ⟨hpart, .inl ⟨le_refl _, rfl⟩⟩
  rw [if_neg hneg, if_neg hzero] at run
  by_cases hin : fdset.pollin = true
  · rw [if_pos hin, runs_ask] at run
    obtain ⟨ans, t'', rfl, run⟩ := run
    obtain rn | ⟨bytes, hsize⟩ := ans
    · obtain ⟨rfl, heq⟩ := runs_pure.mp run
      obtain ⟨rfl, rfl⟩ := Prod.mk.inj heq
      exact ⟨hpart.append (part_read_error fd 1 rn), .inl ⟨le_of_lt rn.property, rfl⟩⟩
    · obtain ⟨rfl, heq⟩ := runs_pure.mp run
      obtain ⟨rfl, rfl⟩ := Prod.mk.inj heq
      refine ⟨hpart.append (part_read fd 1 ⟨buf, hsize⟩), ?_⟩
      cases buf with
      | nil => exact .inl ⟨le_refl _, rfl⟩
      | cons b bs =>
          obtain rfl : bs = [] := by simpa using hsize
          exact .inr ⟨rfl, b, rfl⟩
  · rw [if_neg hin, runs_pure] at run
    obtain ⟨rfl, heq⟩ := run
    obtain ⟨rfl, rfl⟩ := Prod.mk.inj heq
    exact ⟨hpart, .inl ⟨le_refl _, rfl⟩⟩

/-- Both waits end in one of two ways: the byte `A` and nothing else was received, or the result is
negative and it was not. -/
def Acked (ret : Int) (ps : List Phase) : Prop :=
  ret = 0 ∧ ps = [.got SPI_ACK] ∨ ret < 0 ∧ ps ≠ [.got SPI_ACK] ∧ ps.length ≤ 1

theorem runs_waitAck {h : SpiRegHandle} {timeout : UInt32} {t : List SysI.Event} {ret : Int}
    (hrun : Runs (waitAck h timeout) t ret) : ∃ ps, Part t ps ∧ Acked ret ps := by
  obtain ⟨⟨ret', buf⟩, t₁, t₂, rfl, hread, run⟩ := runs_bind.mp hrun
  obtain ⟨hpart, hcase⟩ := runs_read_one hread
  dsimp only at run
  rcases hcase with ⟨hret, rfl⟩ | ⟨rfl, b, rfl⟩
  · rw [if_pos (.inl (by omega)), runs_pure] at run
    obtain ⟨rfl, rfl⟩ := run
    rw [List.append_nil]
    exact ⟨_, hpart, .inr ⟨by decide, by simp, by simp⟩⟩
  by_cases hb : b = SPI_ACK
  · subst hb
    rw [if_neg (by simp)] at run
    simp only [Uart.inClean, Sys.tcflush, req_eq, ask_bind, done_bind, runs_ask, runs_pure] at run
    obtain ⟨r, t', rfl, rfl, rfl⟩ := run
    exact ⟨_, hpart.append (part_tcflush h.uart_fd r), .inl ⟨rfl, rfl⟩⟩
  · rw [if_pos (.inr hb), runs_pure] at run
    obtain ⟨rfl, rfl⟩ := run
    rw [List.append_nil]
    exact ⟨_, hpart, .inr ⟨by decide, by simpa using hb, by simp⟩⟩

/-- The start byte is written first, and a wait follows only if the write took the byte. -/
theorem runs_gotoStartCmd {h : SpiRegHandle} {timeout : UInt32} {t : List SysI.Event} {ret : Int}
    (hrun : Runs (gotoStartCmd h timeout) t ret) :
    ∃ sent ps, Part t (.sent [SPI_CMD_START] sent :: ps) ∧
      (ret = 0 ∧ sent = 1 ∧ ps = [.got SPI_ACK] ∨ ret < 0 ∧ ps.length ≤ 1) := by
  simp only [gotoStartCmd, Uart.inClean, Uart.write, Sys.tcflush, Sys.write, req_eq, ask_bind,
    done_bind, runs_ask] at hrun
  obtain ⟨flush, _, rfl, sent, t', rfl, run⟩ := hrun
  have hpart := (part_tcflush h.uart_fd flush).append (part_write h.uart_fd [SPI_CMD_START] sent)
  by_cases hsent : sent = 1
  swap
  · rw [if_pos hsent, runs_pure] at run
    obtain ⟨rfl, rfl⟩ := run
    exact ⟨sent, [], hpart, .inr ⟨by decide, by simp⟩⟩
  rw [if_neg (not_not.mpr hsent), runs_bind] at run
  obtain ⟨⟨ret', buf⟩, t₁, t₂, rfl, hread, run⟩ := run
  obtain ⟨hpart', hcase⟩ := runs_read_one hread
  replace hpart := hpart.append hpart'
  dsimp only at run
  rcases hcase with ⟨hret, rfl⟩ | ⟨rfl, b, rfl⟩
  · rw [if_pos hret, runs_pure] at run
    obtain ⟨rfl, rfl⟩ := run
    rw [List.append_nil]
    exact ⟨sent, [], hpart, .inr ⟨by decide, by simp⟩⟩
  rw [if_neg (show ¬ (1 : Int) ≤ 0 by decide)] at run
  by_cases hb : b = SPI_ACK
  · subst hb
    rw [if_neg (show ¬ [SPI_ACK].headD SPI_CMD_START ≠ SPI_ACK from not_not.mpr rfl)] at run
    simp only [runs_ask, runs_pure] at run
    obtain ⟨r, t', rfl, rfl, rfl⟩ := run
    have hpart := hpart.append (part_tcflush h.uart_fd r)
    simp only [List.append_assoc] at hpart
    exact ⟨sent, _, hpart, .inl ⟨rfl, hsent, rfl⟩⟩
  · rw [if_pos (show [b].headD SPI_CMD_START ≠ SPI_ACK from hb), runs_pure] at run
    obtain ⟨rfl, rfl⟩ := run
    rw [List.append_nil]
    exact ⟨sent, _, hpart, .inr ⟨by decide, by simp⟩⟩

theorem runs_transferSpi {h : SpiRegHandle} {tx_buf rx_buf : List UInt8} {length : Nat}
    {t : List SysI.Event} {ret : Int} {rx_buf' : List UInt8}
    (run : Runs (transferSpi h tx_buf rx_buf length) t (ret, rx_buf')) :
    ∃ rx, Part t [.moved (tx_buf.take length) ret rx] ∧ rx.length = (tx_buf.take length).length ∧
      rx_buf' = storeAt rx_buf 0 rx := by
  simp only [transferSpi, Sys.spiMessage, req_eq, ask_bind, done_bind, runs_ask, runs_pure] at run
  obtain ⟨ans, t', rfl, rfl, heq⟩ := run
  obtain ⟨rfl, rfl⟩ := Prod.mk.inj heq
  exact ⟨ans.rx, part_spiMessage _ _ ans, ans.length_rx, rfl⟩

/-! ### The exchange of one access -/

/-- The five steps both accesses make between their locks, with the two transmit buffers they use.
-/
def exchange (h : SpiRegHandle) (timeout : UInt32) (tx_cmd tx_data : List UInt8) (length : Nat) :
    Prog SysI (Except Int (Int × List UInt8)) := do
  let ret ← gotoStartCmd h timeout
  if ret < 0 then return .error (-2)
  let (ret, rx_buf) ← transferSpi h tx_cmd (List.replicate SPI_RT_MSG_MAX_SIZE 0xff) SPI_CMD_LEN
  if ret < 0 then return .error ret
  let ret ← waitAck h timeout
  if ret < 0 then return .error (-2)
  let (ret, rx_buf) ← transferSpi h tx_data rx_buf length
  if ret < 0 then return .error ret
  let ret ← waitAck h timeout
  if ret < 0 then return .error (-2)
  return .ok (ret, rx_buf)

/-- The start byte was sent and acknowledged, two frames were transferred and acknowledged, in this
order, and the second transfer received `rx`. -/
def Exchanged (tx_cmd tx_data : List UInt8) (t : List SysI.Event) (rx : List UInt8) : Prop :=
  ∃ ret₁ rx₁ ret₂, 0 ≤ ret₁ ∧ 0 ≤ ret₂ ∧ phases t =
    [.sent [SPI_CMD_START] 1, .got SPI_ACK, .moved tx_cmd ret₁ rx₁, .got SPI_ACK,
      .moved tx_data ret₂ rx, .got SPI_ACK]

theorem not_exchanged_of_length {tx_cmd tx_data rx : List UInt8} {t : List SysI.Event}
    (h : (phases t).length < 6) : ¬ Exchanged tx_cmd tx_data t rx := by
  rintro ⟨ret₁, rx₁, ret₂, _, _, hphases⟩
  rw [hphases] at h
  exact absurd h (by simp)

theorem Exchanged.rx_eq {tx_cmd tx_data tx_cmd' tx_data' rx rx' : List UInt8}
    {t : List SysI.Event} (h : Exchanged tx_cmd tx_data t rx)
    (h' : Exchanged tx_cmd' tx_data' t rx') : rx = rx' := by
  obtain ⟨ret₁, rx₁, ret₂, _, _, hphases⟩ := h
  obtain ⟨ret₁', rx₁', ret₂', _, _, hphases'⟩ := h'
  simp only [hphases, List.cons.injEq, Phase.moved.injEq] at hphases'
  exact hphases'.2.2.2.2.1.2.2

/-- What an exchange does, by its result. -/
def Exchange (tx_cmd tx_data : List UInt8) (t : List SysI.Event) :
    Except Int (Int × List UInt8) → Prop
  | .error ret => ret < 0 ∧ ∀ cmd data rx, ¬ Exchanged cmd data t rx
  | .ok (ret, rx_buf) => ret = 0 ∧ ∃ rx, Exchanged tx_cmd tx_data t rx ∧
      rx.length = tx_data.length ∧ rx_buf.take rx.length = rx

theorem take_storeAt_zero (buf rx : List UInt8) : (storeAt buf 0 rx).take rx.length = rx := by
  simp [storeAt]

/-- An exchange given up after the trace `t`, with fewer than six phases. -/
theorem exchange_error {tx_cmd tx_data : List UInt8} {t : List SysI.Event} {ret : Int}
    {ps : List Phase} (hpart : Part t ps) (hret : ret < 0) (hlen : ps.length < 6) :
    (∀ e ∈ t, Unlocked e) ∧ Exchange tx_cmd tx_data t (.error ret) :=
  ⟨hpart.unlocked, hret, fun _ _ _ => not_exchanged_of_length (hpart.phases ▸ hlen)⟩

theorem runs_exchange {h : SpiRegHandle} {timeout : UInt32} {tx_cmd tx_data : List UInt8}
    {length : Nat} {t : List SysI.Event} {res : Except Int (Int × List UInt8)}
    (hrun : Runs (exchange h timeout tx_cmd tx_data length) t res) :
    (∀ e ∈ t, Unlocked e) ∧
      Exchange (tx_cmd.take SPI_CMD_LEN) (tx_data.take length) t res := by
  -- the start byte
  obtain ⟨ret, t₁, u₁, rfl, hstart, run⟩ := runs_bind.mp hrun
  obtain ⟨sent, ps₁, hpart, hcase⟩ := runs_gotoStartCmd hstart
  rcases hcase with ⟨rfl, rfl, rfl⟩ | ⟨hret, hps⟩
  swap
  · rw [if_pos hret, runs_pure] at run
    obtain ⟨rfl, rfl⟩ := run
    rw [List.append_nil]
    exact exchange_error hpart (by decide) (by simp only [List.length_cons]; omega)
  rw [if_neg (lt_irrefl _)] at run
  -- the command frame
  obtain ⟨⟨ret₁, rx_buf₁⟩, t₂, u₂, rfl, htransfer, run⟩ := runs_bind.mp run
  obtain ⟨rx₁, hpart₂, -, rfl⟩ := runs_transferSpi htransfer
  replace hpart := hpart.append hpart₂
  dsimp only at run
  by_cases hret₁ : ret₁ < 0
  · rw [if_pos hret₁, runs_pure] at run
    obtain ⟨rfl, rfl⟩ := run
    rw [List.append_nil]
    exact exchange_error hpart hret₁ (by simp)
  rw [if_neg hret₁] at run
  obtain ⟨ret, t₃, u₃, rfl, hwaited, run⟩ := runs_bind.mp run
  obtain ⟨ps₃, hpart₃, hcase⟩ := runs_waitAck hwaited
  replace hpart := hpart.append hpart₃
  rw [← List.append_assoc, ← List.append_assoc]
  rcases hcase with ⟨rfl, rfl⟩ | ⟨hret, -, hps⟩
  swap
  · rw [if_pos hret, runs_pure] at run
    obtain ⟨rfl, rfl⟩ := run
    rw [List.append_nil]
    exact exchange_error hpart (by decide)
      (by simp only [List.length_append, List.length_cons, List.length_nil]; omega)
  rw [if_neg (lt_irrefl _)] at run
  -- the data frame
  obtain ⟨⟨ret₂, rx_buf₂⟩, t₄, u₄, rfl, htransfer, run⟩ := runs_bind.mp run
  obtain ⟨rx₂, hpart₄, hrx₂, rfl⟩ := runs_transferSpi htransfer
  replace hpart := hpart.append hpart₄
  dsimp only at run
  by_cases hret₂ : ret₂ < 0
  · rw [if_pos hret₂, runs_pure] at run
    obtain ⟨rfl, rfl⟩ := run
    rw [List.append_nil]
    exact exchange_error hpart hret₂ (by simp)
  rw [if_neg hret₂] at run
  obtain ⟨ret, t₅, u₅, rfl, hwaited, run⟩ := runs_bind.mp run
  obtain ⟨ps₅, hpart₅, hcase⟩ := runs_waitAck hwaited
  replace hpart := hpart.append hpart₅
  rw [← List.append_assoc, ← List.append_assoc]
  rcases hcase with ⟨rfl, rfl⟩ | ⟨hret, hps, -⟩
  · rw [if_neg (lt_irrefl _), runs_pure] at run
    obtain ⟨rfl, rfl⟩ := run
    rw [List.append_nil]
    exact ⟨hpart.unlocked, rfl, rx₂,
      ⟨ret₁, rx₁, ret₂, by omega, by omega, hpart.phases⟩, hrx₂, take_storeAt_zero _ _⟩
  · rw [if_pos hret, runs_pure] at run
    obtain ⟨rfl, rfl⟩ := run
    rw [List.append_nil]
    refine ⟨hpart.unlocked, by decide, ?_⟩
    rintro cmd data rx ⟨_, _, _, _, _, hphases⟩
    rw [hpart.phases] at hphases
    exact hps (List.cons.inj (List.cons.inj (List.cons.inj (List.cons.inj
      (List.cons.inj hphases).2).2).2).2).2

/-! ### The two accesses by their exchange -/

theorem ite_bind {c : Prop} [Decidable c] {I : Iface} {α β : Type} (a : α) (p : Prog I α)
    (f : α → Prog I β) :
    ((if c then pure a else p) >>= f) = if c then f a else p >>= f := by
  split <;> rfl

/-- `trans_length` of both accesses. -/
def transLength (reg_cnt : UInt16) : Nat :=
  reg_cnt.toNat + WR_CRC_LEN + fillLen (reg_cnt.toNat + WR_CRC_LEN)

/-- The checksum a read expects behind the bytes it received. -/
def readCrc (reg_addr reg_cnt : UInt16) (rx_buf : List UInt8) : UInt16 :=
  crc16 (crc16 0xffff (commandBuf SPI_CMD_READ_REG reg_addr reg_cnt) CMD_WR_CMD_LEN) rx_buf reg_cnt

/-- The checksum a read finds behind the bytes it received. -/
def readCrcFound (reg_cnt : UInt16) (rx_buf : List UInt8) : UInt16 :=
  UInt16.ofNat (ofLeBytes
    (setMemValTypeBigToSystem (bytes16 0x0000) 0 (getMemVal rx_buf reg_cnt.toNat 2)))

theorem readBody_eq (h : SpiRegHandle) (reg_addr reg_cnt : UInt16) (reg_data : List UInt8)
    (timeout : UInt32) :
    SpiReg.readBody h reg_addr reg_cnt reg_data timeout = (do
      match ← exchange h timeout (commandBuf SPI_CMD_READ_REG reg_addr reg_cnt)
        (commandBuf SPI_CMD_READ_REG reg_addr reg_cnt) (transLength reg_cnt) with
      | .error ret => return (ret, reg_data)
      | .ok (_, rx_buf) =>
          if readCrcFound reg_cnt rx_buf = readCrc reg_addr reg_cnt rx_buf then
            return (0, storeAt reg_data 0 (rx_buf.take reg_cnt.toNat))
          else
            return (-3, reg_data)) := by
  simp only [SpiReg.readBody, exchange, bind_assoc, ite_bind, pure_bind]
  rfl

/-- The checksum of a write: over its header, then over its data. -/
def writeCrc (reg_addr reg_cnt : UInt16) (reg_data : List UInt8) : UInt16 :=
  let head := commandBuf SPI_CMD_WRITE_REG reg_addr reg_cnt
  crc16 (crc16 0xffff head CMD_WR_CMD_LEN) reg_data reg_cnt

/-- The transmit buffer of a write when its data frame is sent. -/
def writeBuf (reg_addr reg_cnt : UInt16) (reg_data : List UInt8) : List UInt8 :=
  let tx_buf := commandBuf SPI_CMD_WRITE_REG reg_addr reg_cnt
  let tx_buf := storeAt tx_buf 0 (reg_data.take reg_cnt.toNat)
  let tx_buf := setMemValTypeSystemToBig tx_buf reg_cnt.toNat
    (bytes16 (writeCrc reg_addr reg_cnt reg_data))
  storeAt tx_buf (reg_cnt.toNat + WR_CRC_LEN)
    (List.replicate (fillLen (reg_cnt.toNat + WR_CRC_LEN)) 0xff)

theorem writeBody_eq (h : SpiRegHandle) (reg_addr reg_cnt : UInt16) (reg_data : List UInt8)
    (timeout : UInt32) :
    SpiReg.writeBody h reg_addr reg_cnt reg_data timeout = (do
      match ← exchange h timeout (commandBuf SPI_CMD_WRITE_REG reg_addr reg_cnt)
        (writeBuf reg_addr reg_cnt reg_data) (transLength reg_cnt) with
      | .error ret => return ret
      | .ok (ret, _) => return ret) := by
  simp only [SpiReg.writeBody, exchange, bind_assoc, ite_bind, pure_bind]
  rfl

/-! ### Every access returns -/

theorem returns_read_one (fd timeout : Int) : (Uart.read fd 1 timeout).Returns := by
  rw [Uart.read_one]
  simp only [Sys.poll, Sys.read, req_eq, ask_bind, done_bind, returns_ask]
  intro fdset
  split
  · exact returns_pure _
  split
  · exact returns_pure _
  split
  · intro ans
    cases ans <;> exact returns_pure _
  · exact returns_pure _

theorem returns_waitAck (h : SpiRegHandle) (timeout : UInt32) : (waitAck h timeout).Returns := by
  apply (returns_read_one _ _).bind
  intro pair
  dsimp only
  split
  · exact returns_pure _
  · exact (returns_req _).bind fun _ => returns_pure _

theorem returns_transferSpi (h : SpiRegHandle) (tx_buf rx_buf : List UInt8) (length : Nat) :
    (transferSpi h tx_buf rx_buf length).Returns :=
  (returns_req _).bind fun _ => returns_pure _

theorem returns_gotoStartCmd (h : SpiRegHandle) (timeout : UInt32) :
    (gotoStartCmd h timeout).Returns := by
  refine (returns_req _).bind fun _ => (returns_req _).bind fun sent => ?_
  split
  · exact returns_pure _
  apply (returns_read_one _ _).bind
  intro pair
  dsimp only
  split
  · exact returns_pure _
  split
  · exact returns_pure _
  · exact (returns_req _).bind fun _ => returns_pure _

theorem returns_exchange (h : SpiRegHandle) (timeout : UInt32) (tx_cmd tx_data : List UInt8)
    (length : Nat) : (exchange h timeout tx_cmd tx_data length).Returns := by
  apply (returns_gotoStartCmd h timeout).bind
  intro ret
  split
  · exact returns_pure _
  apply (returns_transferSpi _ _ _ _).bind
  intro ⟨ret₁, rx_buf₁⟩
  dsimp only
  split
  · exact returns_pure _
  apply (returns_waitAck h timeout).bind
  intro ret
  split
  · exact returns_pure _
  apply (returns_transferSpi _ _ _ _).bind
  intro ⟨ret₂, rx_buf₂⟩
  dsimp only
  split
  · exact returns_pure _
  apply (returns_waitAck h timeout).bind
  intro ret
  split <;> exact returns_pure _

theorem returns_locked {α : Type} (h : SpiRegHandle) (refused : Int → α) {body : Prog SysI α}
    (hbody : body.Returns) : (SpiReg.locked h refused body).Returns := by
  refine (returns_req _).bind fun _ => (returns_req _).bind fun ret => ?_
  split
  · exact (returns_req _).bind fun _ => returns_pure _
  apply hbody.bind
  intro result
  exact (returns_req _).bind fun _ => (returns_req _).bind fun _ => returns_pure _

theorem returns_readBody (h : SpiRegHandle) (reg_addr reg_cnt : UInt16) (reg_data : List UInt8)
    (timeout : UInt32) : (SpiReg.readBody h reg_addr reg_cnt reg_data timeout).Returns := by
  rw [readBody_eq]
  apply (returns_exchange _ _ _ _ _).bind
  intro res
  cases res with
  | error ret => exact returns_pure _
  | ok pair =>
      dsimp only
      split <;> exact returns_pure _

theorem returns_writeBody (h : SpiRegHandle) (reg_addr reg_cnt : UInt16) (reg_data : List UInt8)
    (timeout : UInt32) : (SpiReg.writeBody h reg_addr reg_cnt reg_data timeout).Returns := by
  rw [writeBody_eq]
  apply (returns_exchange _ _ _ _ _).bind
  intro res
  cases res <;> exact returns_pure _

theorem returns_read (h : SpiRegHandle) (reg_addr reg_cnt : UInt16) (reg_data : List UInt8)
    (timeout : UInt32) : (SpiReg.read (some h) reg_addr reg_cnt reg_data timeout).Returns :=
  returns_locked h _ (returns_readBody h reg_addr reg_cnt reg_data timeout)

theorem returns_write (h : SpiRegHandle) (reg_addr reg_cnt : UInt16) (reg_data : List UInt8)
    (timeout : UInt32) : (SpiReg.write (some h) reg_addr reg_cnt reg_data timeout).Returns :=
  returns_locked h _ (returns_writeBody h reg_addr reg_cnt reg_data timeout)

/-! ### The locks around it -/

/-- A trace whose file lock was refused. -/
def refusedTrace (h : SpiRegHandle) (ret : Int) : List SysI.Event :=
  [⟨.mutexLock, ()⟩, ⟨.flock h.lock_fd .LOCK_EX, ret⟩, ⟨.mutexUnlock, ()⟩]

/-- The trace `t` made under both locks. -/
def lockedTrace (h : SpiRegHandle) (ret : Int) (t : List SysI.Event) (unlock : Int) :
    List SysI.Event :=
  [⟨.mutexLock, ()⟩, ⟨.flock h.lock_fd .LOCK_EX, ret⟩] ++ t ++
    [⟨.flock h.lock_fd .LOCK_UN, unlock⟩, ⟨.mutexUnlock, ()⟩]

@[simp] theorem phases_lockedTrace (h : SpiRegHandle) (ret : Int) (t : List SysI.Event)
    (unlock : Int) : phases (lockedTrace h ret t unlock) = phases t := by
  rw [lockedTrace, phases_append, phases_append]
  exact List.append_nil _

theorem flocks_lockedTrace (h : SpiRegHandle) (ret : Int) {t : List SysI.Event} (unlock : Int)
    (ht : ∀ e ∈ t, Unlocked e) : flocks (lockedTrace h ret t unlock) = [ret] := by
  rw [lockedTrace, flocks_append, flocks_append, flocks_unlocked ht]
  rfl

theorem runs_locked {α : Type} {h : SpiRegHandle} {refused : Int → α} {body : Prog SysI α}
    {t : List SysI.Event} {a : α} (hrun : Runs (SpiReg.locked h refused body) t a) :
    ∃ ret, ret < 0 ∧ t = refusedTrace h ret ∧ a = refused ret ∨
      0 ≤ ret ∧ ∃ u unlock, t = lockedTrace h ret u unlock ∧ Runs body u a := by
  simp only [SpiReg.locked, Sys.mutexLock, Sys.flock, Sys.mutexUnlock, req_eq, ask_bind, done_bind,
    runs_ask] at hrun
  obtain ⟨r, _, rfl, ret, t', rfl, run⟩ := hrun
  refine ⟨ret, ?_⟩
  by_cases hret : ret < 0
  · rw [if_pos hret] at run
    simp only [runs_ask, runs_pure] at run
    obtain ⟨r', _, rfl, rfl, rfl⟩ := run
    exact .inl ⟨hret, rfl, rfl⟩
  · rw [if_neg hret, runs_bind] at run
    obtain ⟨a', u, t'', rfl, hbody, run⟩ := run
    simp only [runs_ask, runs_pure] at run
    obtain ⟨unlock, _, rfl, r', _, rfl, rfl, rfl⟩ := run
    exact .inr ⟨not_lt.mp hret, u, unlock, rfl, hbody⟩

/-- Both locks are free again, and each was released exactly as often as it was taken. -/
theorem after_refusedTrace (h : SpiRegHandle) {ret : Int} (hret : ret < 0) :
    Locks.after ⟨false, false⟩ (refusedTrace h ret) = some ⟨false, false⟩ := by
  simp [refusedTrace, Locks.after, Locks.step, hret]

theorem after_lockedTrace (h : SpiRegHandle) {ret : Int} {t : List SysI.Event} (unlock : Int)
    (hret : 0 ≤ ret) (ht : ∀ e ∈ t, Unlocked e) :
    Locks.after ⟨false, false⟩ (lockedTrace h ret t unlock) = some ⟨false, false⟩ := by
  have hneg : ¬ ret < 0 := by omega
  rw [lockedTrace, Locks.after_append, Locks.after_append]
  simp [Locks.after, Locks.step, hneg, Locks.after_unlocked ht]

end McuRegWr
