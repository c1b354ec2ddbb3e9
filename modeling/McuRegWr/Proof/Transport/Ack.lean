import McuRegWr.Base.Chain
import McuRegWr.Proof.Transport.Trace

/-!
# Acknowledges that arrive late

The serial port between the host and an MCU that answers each phase with one byte. The bytes travel
in order and may take any time, also longer than the host waits. An access discards what has
arrived before it starts and after every acknowledge, but not what is still on its way. -/

namespace McuRegWr

open Base Prog

/-- `'N'` -/
def SPI_NACK : UInt8 := 78

/-- One answer of the MCU. -/
abbrev AckByte : Type := {b : UInt8 // b = SPI_ACK ∨ b = SPI_NACK}

/-- The serial line, and what is known of the access under way. -/
structure Link where
  /-- Delivered and not yet read. -/
  inbuf : List UInt8
  /-- Answered and not yet delivered. -/
  wire : List UInt8
  /-- What was delivered or under way when the access wrote its start byte. -/
  stale : List UInt8
  /-- The transfers made since the start byte. -/
  moved : Nat
  /-- The answer to the second of them, the data frame. -/
  dataAns : Option UInt8
  deriving DecidableEq

namespace Link

def idle : Link := ⟨[], [], [], 0, none⟩

def pending (s : Link) : List UInt8 := s.inbuf ++ s.wire

/-- Some of the bytes under way arrive. -/
def deliver (s : Link) (n : Nat) : Link :=
  { s with inbuf := s.inbuf ++ s.wire.take n, wire := s.wire.drop n }

/-- What an operation may return and leave, once deliveries have been made. A phase that succeeded
is answered; one that failed may be. -/
def Act (s : Link) : (o : SysOp) → SysOp.Ans o → Link → Prop
  | .tcflush _, _, s' => s' = { s with inbuf := [] }
  | .write _ _, ret, s' => ∃ ans : Option AckByte, (ret = 1 → ans.isSome) ∧
      s' = ⟨s.inbuf, s.wire ++ (ans.map Subtype.val).toList, s.pending, 0, none⟩
  | .poll _ _, fdset, s' => (fdset.ret = 0 → s.inbuf = []) ∧
      (fdset.pollin = true → s.inbuf ≠ []) ∧ s' = s
  | .read _ _, .error _, s' => s' = s
  | .read _ _, .ok bytes, s' => s.inbuf = bytes.val ++ s'.inbuf ∧
      s' = { s with inbuf := s'.inbuf }
  | .spiMessage _ _, xfer, s' => ∃ ans : Option AckByte, (0 ≤ xfer.ret → ans.isSome) ∧
      s' = { s with
        wire := s.wire ++ (ans.map Subtype.val).toList
        moved := s.moved + 1
        dataAns := if s.moved = 1 then ans.map Subtype.val else s.dataAns }
  | _, _, s' => s' = s

/-- Before any operation any number of bytes may arrive. -/
def world : World SysI Link := fun s o r s' => ∃ n, Act (s.deliver n) o r s'

theorem pending_deliver (s : Link) (n : Nat) : (s.deliver n).pending = s.pending := by
  rw [pending, deliver, List.append_assoc, List.take_append_drop]
  rfl

/-- The two states agree on the access under way. -/
structure Same (s s' : Link) : Prop where
  stale : s'.stale = s.stale
  moved : s'.moved = s.moved
  dataAns : s'.dataAns = s.dataAns

theorem Same.trans {s t u : Link} (h : Same s t) (h' : Same t u) : Same s u :=
  ⟨h'.stale.trans h.stale, h'.moved.trans h.moved, h'.dataAns.trans h.dataAns⟩

/-! ### What each operation does to the pending bytes -/

theorem world_tcflush {s s' : Link} {fd : Int} {r : Unit}
    (h : world s (.tcflush fd) r s') : Same s s' ∧ (s.pending = [] → s'.pending = []) := by
  obtain ⟨n, rfl⟩ := h
  refine ⟨⟨rfl, rfl, rfl⟩, fun hnone => ?_⟩
  obtain ⟨-, hwire⟩ := List.append_eq_nil_iff.mp hnone
  simp [pending, deliver, hwire]

theorem world_flock {s s' : Link} {fd : Int} {op : FlockOp} {r : Int}
    (h : world s (.flock fd op) r s') : Same s s' := by
  obtain ⟨n, rfl⟩ := h
  exact ⟨rfl, rfl, rfl⟩

theorem world_mutexUnlock {s s' : Link} {r : Unit} (h : world s .mutexUnlock r s') : Same s s' := by
  obtain ⟨n, rfl⟩ := h
  exact ⟨rfl, rfl, rfl⟩

theorem world_poll {s s' : Link} {fd timeout : Int} {fdset : PollAns}
    (h : world s (.poll fd timeout) fdset s') : Same s s' ∧ s'.pending = s.pending := by
  obtain ⟨n, -, -, rfl⟩ := h
  exact ⟨⟨rfl, rfl, rfl⟩, pending_deliver s n⟩

theorem world_read_error {s s' : Link} {fd : Int} {size : Nat} {rn : Fail}
    (h : world s (.read fd size) (.error rn) s') : Same s s' := by
  obtain ⟨n, rfl⟩ := h
  exact ⟨rfl, rfl, rfl⟩

theorem world_read {s s' : Link} {fd : Int} {size : Nat}
    {bytes : {bytes : List UInt8 // bytes.length ≤ size}}
    (h : world s (.read fd size) (.ok bytes) s') :
    Same s s' ∧ s.pending = bytes.val ++ s'.pending := by
  obtain ⟨n, hin, hrest⟩ := h
  have hpending := pending_deliver s n
  rw [pending, hin] at hpending
  rw [hrest]
  exact ⟨⟨rfl, rfl, rfl⟩, by rw [← hpending, List.append_assoc]; rfl⟩

theorem world_write {s s' : Link} {fd : Int} {data : List UInt8} {ret : Int}
    (h : world s (.write fd data) ret s') :
    s'.moved = 0 ∧ (ret = 1 → s'.stale = [] → ∃ x, s'.pending = [x]) := by
  obtain ⟨n, ans, hans, rfl⟩ := h
  refine ⟨rfl, fun hret hstale => ?_⟩
  obtain ⟨x, rfl⟩ := Option.isSome_iff_exists.mp (hans hret)
  have hnone : (s.deliver n).pending = [] := hstale
  obtain ⟨hin, hwire⟩ := List.append_eq_nil_iff.mp hnone
  exact ⟨x.val, by simp [pending, hin, hwire]⟩

theorem world_spiMessage {s s' : Link} {fd : Int} {tx : List UInt8} {xfer : SpiAns tx.length}
    (h : world s (.spiMessage fd tx) xfer s') :
    s'.stale = s.stale ∧ s'.moved = s.moved + 1 ∧ (0 ≤ xfer.ret → ∃ x,
      (s.pending = [] → s'.pending = [x]) ∧ (s.moved = 1 → s'.dataAns = some x)) := by
  obtain ⟨n, ans, hans, rfl⟩ := h
  refine ⟨rfl, rfl, fun hret => ?_⟩
  obtain ⟨x, rfl⟩ := Option.isSome_iff_exists.mp (hans hret)
  refine ⟨x.val, fun hnone => ?_, fun hmoved => if_pos hmoved⟩
  rw [← pending_deliver s n] at hnone
  obtain ⟨hin, hwire⟩ := List.append_eq_nil_iff.mp hnone
  simp [pending, hin, hwire]

end Link

/-! ### One access -/

/-- Any operation may be issued. -/
abbrev anyOp : Link → SysOp → Prop := fun _ _ => True

/-- Reading one byte fails, or takes it off the front of what was pending. -/
theorem wlp_read_one (fd timeout : Int) (s : Link) :
    (Uart.read fd 1 timeout).wlp Link.world anyOp
      (fun r s' => Link.Same s s' ∧
        (r.1 ≤ 0 ∨ ∃ b, r = (1, [b]) ∧ s.pending = b :: s'.pending)) s := by
  rw [Uart.read_one]
  simp only [Sys.poll, Sys.read, req_eq, wlp_bind, wlp_ask, wlp_done]
  refine ⟨trivial, fun fdset s₁ hpoll => ?_⟩
  obtain ⟨hsame, hpending⟩ := Link.world_poll hpoll
  by_cases hneg : fdset.ret < 0
  · rw [if_pos hneg]
    exact ⟨hsame, .inl (le_of_lt hneg)⟩
  by_cases hzero : fdset.ret = 0
  · rw [if_neg hneg, if_pos hzero]
    exact ⟨hsame, .inl (le_refl _)⟩
  rw [if_neg hneg, if_neg hzero]
  by_cases hin : fdset.pollin = true
  swap
  · rw [if_neg hin]
    exact ⟨hsame, .inl (le_refl _)⟩
  rw [if_pos hin]
  refine ⟨trivial, fun ans s₂ hread => ?_⟩
  obtain rn | ⟨bytes, hsize⟩ := ans
  · exact ⟨hsame.trans (Link.world_read_error hread), .inl (le_of_lt rn.property)⟩
  · obtain ⟨hsame', hpending'⟩ := Link.world_read hread
    refine ⟨hsame.trans hsame', ?_⟩
    cases bytes with
    | nil => exact .inl (le_refl _)
    | cons b bs =>
        obtain rfl : bs = [] := by simpa using hsize
        exact .inr ⟨b, rfl, hpending ▸ hpending'⟩

/-- A wait that succeeds read the pending answer, and it was `A`. -/
theorem wlp_waitAck (h : SpiRegHandle) (timeout : UInt32) (s : Link) :
    (waitAck h timeout).wlp Link.world anyOp
      (fun ret s' => Link.Same s s' ∧
        (¬ ret < 0 → ∀ x, s.pending = [x] → x = SPI_ACK ∧ s'.pending = [])) s := by
  simp only [waitAck, Uart.inClean, Sys.tcflush, req_eq, wlp_bind]
  apply wlp_conseq (wlp_read_one _ _ s)
  intro r s₁ hread
  obtain ⟨hsame, hcase⟩ := hread
  by_cases hack : r.1 ≠ 1 ∨ r.2.headD 0 ≠ SPI_ACK
  · rw [if_pos hack]
    exact ⟨hsame, fun hret => absurd (by decide) hret⟩
  rw [if_neg hack]
  simp only [wlp_bind, wlp_ask, wlp_done, wlp_pure]
  refine ⟨trivial, fun _ s₂ hflush => ?_⟩
  obtain ⟨hsame', hnone⟩ := Link.world_tcflush hflush
  refine ⟨hsame.trans hsame', fun _ x hx => ?_⟩
  obtain ⟨hone, hhead⟩ := not_or.mp hack
  rcases hcase with hle | ⟨b, rfl, hpending⟩
  · omega
  obtain ⟨rfl, hrest⟩ := List.cons.inj (hx.symm.trans hpending)
  exact ⟨not_not.mp hhead, hnone hrest.symm⟩

theorem wlp_gotoStartCmd (h : SpiRegHandle) (timeout : UInt32) (s : Link) :
    (gotoStartCmd h timeout).wlp Link.world anyOp
      (fun ret s' => ¬ ret < 0 → s'.moved = 0 ∧ (s'.stale = [] → s'.pending = [])) s := by
  simp only [gotoStartCmd, Uart.inClean, Uart.write, Sys.tcflush, Sys.write, req_eq, wlp_bind,
    wlp_ask, wlp_done]
  refine ⟨trivial, fun _ s₁ _ => ⟨trivial, fun sent s₂ hwrite => ?_⟩⟩
  obtain ⟨hmoved, hanswer⟩ := Link.world_write hwrite
  by_cases hsent : sent = 1
  swap
  · rw [if_pos hsent]
    exact fun hret => absurd (by decide) hret
  rw [if_neg (not_not.mpr hsent)]
  simp only [wlp_bind]
  apply wlp_conseq (wlp_read_one _ _ s₂)
  intro r s₃ hread
  obtain ⟨hsame, hcase⟩ := hread
  by_cases hle : r.1 ≤ 0
  · rw [if_pos hle]
    exact fun hret => absurd (by decide) hret
  rw [if_neg hle]
  by_cases hhead : r.2.headD SPI_CMD_START ≠ SPI_ACK
  · rw [if_pos hhead]
    exact fun hret => absurd (by decide) hret
  rw [if_neg hhead]
  simp only [wlp_ask, wlp_done, wlp_bind, wlp_pure]
  refine ⟨trivial, fun _ s₄ hflush _ => ?_⟩
  obtain ⟨hsame', hnone⟩ := Link.world_tcflush hflush
  replace hsame' := hsame.trans hsame'
  refine ⟨hsame'.moved.trans hmoved, fun hstale => hnone ?_⟩
  obtain ⟨x, hx⟩ := hanswer hsent (hsame'.stale.symm.trans hstale)
  obtain ⟨b, -, hpending⟩ := hcase.resolve_left hle
  exact (List.cons.inj (hx.symm.trans hpending)).2.symm

theorem wlp_transferSpi (h : SpiRegHandle) (tx_buf rx_buf : List UInt8) (length : Nat) (s : Link) :
    (transferSpi h tx_buf rx_buf length).wlp Link.world anyOp
      (fun r s' => s'.stale = s.stale ∧ s'.moved = s.moved + 1 ∧ (¬ r.1 < 0 → ∃ x,
        (s.pending = [] → s'.pending = [x]) ∧ (s.moved = 1 → s'.dataAns = some x))) s := by
  simp only [transferSpi, Sys.spiMessage, req_eq, wlp_bind, wlp_ask, wlp_done, wlp_pure]
  refine ⟨trivial, fun xfer s' hmove => ?_⟩
  obtain ⟨hstale, hmoved, hans⟩ := Link.world_spiMessage hmove
  exact ⟨hstale, hmoved, fun hret => hans (not_lt.mp hret)⟩

/-- With nothing stale about, the answers are read one by one as the phases ask for them, so the
last one read is the answer to the data frame. -/
theorem wlp_exchange (h : SpiRegHandle) (timeout : UInt32) (tx_cmd tx_data : List UInt8)
    (length : Nat) (s : Link) :
    (exchange h timeout tx_cmd tx_data length).wlp Link.world anyOp
      (fun res s' => match res with
        | .error ret => ret < 0
        | .ok _ => s'.stale = [] → s'.dataAns = some SPI_ACK) s := by
  simp only [exchange, wlp_bind]
  apply wlp_conseq (wlp_gotoStartCmd h timeout s)
  intro ret s₁ hstart
  by_cases hret : ret < 0
  · rw [if_pos hret]
    exact (by decide : (-2 : Int) < 0)
  rw [if_neg hret, wlp_bind]
  obtain ⟨hmoved₁, hclear₁⟩ := hstart hret
  apply wlp_conseq (wlp_transferSpi h _ _ _ s₁)
  intro r₂ s₂ hmove
  obtain ⟨hstale₂, hmoved₂, hans₂⟩ := hmove
  by_cases hret₂ : r₂.1 < 0
  · rw [if_pos hret₂]
    exact hret₂
  rw [if_neg hret₂, wlp_bind]
  obtain ⟨x, hx, -⟩ := hans₂ hret₂
  apply wlp_conseq (wlp_waitAck h timeout s₂)
  intro ret₃ s₃ hwait
  obtain ⟨hsame₃, hack₃⟩ := hwait
  by_cases hret₃ : ret₃ < 0
  · rw [if_pos hret₃]
    exact (by decide : (-2 : Int) < 0)
  rw [if_neg hret₃, wlp_bind]
  have hstale₃ : s₃.stale = s₁.stale := hsame₃.stale.trans hstale₂
  have hclear₃ : s₃.stale = [] → s₃.pending = [] := fun hnone =>
    (hack₃ hret₃ x (hx (hclear₁ (hstale₃ ▸ hnone)))).2
  have hmoved₃ : s₃.moved = 1 := by rw [hsame₃.moved, hmoved₂, hmoved₁]
  apply wlp_conseq (wlp_transferSpi h _ _ _ s₃)
  intro r₄ s₄ hmove
  obtain ⟨hstale₄, -, hans₄⟩ := hmove
  by_cases hret₄ : r₄.1 < 0
  · rw [if_pos hret₄]
    exact hret₄
  rw [if_neg hret₄, wlp_bind]
  obtain ⟨y, hy, hdata⟩ := hans₄ hret₄
  apply wlp_conseq (wlp_waitAck h timeout s₄)
  intro ret₅ s₅ hwait
  obtain ⟨hsame₅, hack₅⟩ := hwait
  by_cases hret₅ : ret₅ < 0
  · rw [if_pos hret₅]
    exact (by decide : (-2 : Int) < 0)
  rw [if_neg hret₅, wlp_pure]
  intro hnone
  have hstale : s₃.stale = [] := by rw [← hstale₄, ← hsame₅.stale, hnone]
  obtain ⟨hyack, -⟩ := hack₅ hret₅ y (hy (hclear₃ hstale))
  rw [hsame₅.dataAns, hdata hmoved₃, hyack]

theorem wlp_write (h : SpiRegHandle) (reg_addr reg_cnt : UInt16) (reg_data : List UInt8)
    (timeout : UInt32) (s : Link) :
    (SpiReg.write (some h) reg_addr reg_cnt reg_data timeout).wlp Link.world anyOp
      (fun ret s' => ret = 0 → s'.stale = [] → s'.dataAns = some SPI_ACK) s := by
  simp only [SpiReg.write, SpiReg.locked, writeBody_eq, Sys.mutexLock, Sys.flock, Sys.mutexUnlock,
    req_eq, wlp_bind, wlp_ask, wlp_done]
  refine ⟨trivial, fun _ s₁ _ => ⟨trivial, fun lock s₂ _ => ?_⟩⟩
  by_cases hlock : lock < 0
  · rw [if_pos hlock]
    exact ⟨trivial, fun _ s₃ _ hret => absurd hret (ne_of_lt hlock)⟩
  rw [if_neg hlock, wlp_bind, wlp_bind]
  apply wlp_conseq (wlp_exchange h timeout _ _ _ s₂)
  intro res s₃ hex
  have hunlock (ret : Int) (hdata : ret = 0 → s₃.stale = [] → s₃.dataAns = some SPI_ACK) :
      (do
        let _ ← Sys.flock h.lock_fd .LOCK_UN
        Sys.mutexUnlock
        return ret : Prog SysI Int).wlp Link.world anyOp
        (fun ret s' => ret = 0 → s'.stale = [] → s'.dataAns = some SPI_ACK) s₃ := by
    refine ⟨trivial, fun _ s₄ hflock => ⟨trivial, fun _ s₅ hmutex hret hnone => ?_⟩⟩
    have hsame := (Link.world_flock hflock).trans (Link.world_mutexUnlock hmutex)
    rw [hsame.dataAns]
    exact hdata hret (hsame.stale ▸ hnone)
  cases res with
  | error ret => exact hunlock ret fun hret => absurd hret (ne_of_lt hex)
  | ok r => exact hunlock r.1 fun _ => hex

/-! ### Sessions -/

inductive RegCall where
  | read (reg_addr reg_cnt : UInt16) (reg_data : List UInt8) (timeout : UInt32)
  | write (reg_addr reg_cnt : UInt16) (reg_data : List UInt8) (timeout : UInt32)

/-- A call and its return value. -/
def RegCall.run (h : SpiRegHandle) : RegCall → Prog SysI Int
  | .read reg_addr reg_cnt reg_data timeout => do
      let (ret, _) ← SpiReg.read (some h) reg_addr reg_cnt reg_data timeout
      return ret
  | .write reg_addr reg_cnt reg_data timeout =>
      SpiReg.write (some h) reg_addr reg_cnt reg_data timeout

/-- A call with its return value and the line as it left it. -/
def RegCall.Step (h : SpiRegHandle) (s : Link) (e : RegCall × Int × Link) (s' : Link) : Prop :=
  Exec Link.world (e.1.run h) s e.2.1 s' ∧ e.2.2 = s'

/-- Calls made one after the other. -/
abbrev Session (h : SpiRegHandle) : Link → List (RegCall × Int × Link) → Link → Prop :=
  Chain (RegCall.Step h)

theorem Session.cons {h : SpiRegHandle} {s s' u : Link} {call : RegCall} {ret : Int}
    {log : List (RegCall × Int × Link)} (run : Exec Link.world (call.run h) s ret s')
    (rest : Session h s' log u) : Session h s ((call, ret, s') :: log) u :=
  Chain.cons ⟨run, rfl⟩ rest

/-- In every session a write that returned 0 was answered `A` to its own data frame, if no earlier
answer was still unread or under way when it wrote its start byte. -/
theorem SpiReg.write_acknowledged (h : SpiRegHandle) (s s' : Link)
    (log : List (RegCall × Int × Link)) (hsession : Session h s log s') :
    ∀ reg_addr reg_cnt reg_data timeout ret left,
      (RegCall.write reg_addr reg_cnt reg_data timeout, ret, left) ∈ log →
      ret = 0 → left.stale = [] → left.dataAns = some SPI_ACK := by
  intro reg_addr reg_cnt reg_data timeout ret left hmem
  refine hsession.forall_mem (P := fun e => e.1 = .write reg_addr reg_cnt reg_data timeout →
    e.2.1 = 0 → e.2.2.stale = [] → e.2.2.dataAns = some SPI_ACK) ?_ _ hmem rfl
  rintro s ⟨call, ret, left⟩ s' ⟨run, rfl⟩ rfl
  exact wlp_exec (wlp_write h reg_addr reg_cnt reg_data timeout _) run

/-! ### A late acknowledge -/

/-- A line with a script: how many bytes arrive before each operation, and how each phase is
answered. -/
structure LateMcu where
  link : Link
  arrivals : List Nat
  answers : List AckByte
  deriving DecidableEq

namespace LateMcu

def act (s : Link) (ans : AckByte) : (o : SysOp) → SysOp.Ans o × Link
  | .mutexLock => ((), s)
  | .mutexUnlock => ((), s)
  | .flock _ _ => (0, s)
  | .tcflush _ => ((), { s with inbuf := [] })
  | .write _ _ => (1, ⟨s.inbuf, s.wire ++ [ans.val], s.pending, 0, none⟩)
  | .poll _ _ => (if s.inbuf = [] then ⟨0, false⟩ else ⟨1, true⟩, s)
  | .read _ size =>
      (.ok ⟨s.inbuf.take size, List.length_take_le ..⟩, { s with inbuf := s.inbuf.drop size })
  | .spiMessage _ tx =>
      (⟨tx.length, List.replicate tx.length 0, List.length_replicate⟩,
        { s with
          wire := s.wire ++ [ans.val]
          moved := s.moved + 1
          dataAns := if s.moved = 1 then some ans.val else s.dataAns })

/-- The operations that use up an answer of the script. -/
def answered : SysOp → Bool
  | .write _ _ => true
  | .spiMessage _ _ => true
  | _ => false

def dev (t : LateMcu) (o : SysOp) : SysOp.Ans o × LateMcu :=
  let ans := t.answers.headD ⟨SPI_NACK, .inr rfl⟩
  let r := act (t.link.deliver (t.arrivals.headD 0)) ans o
  (r.1, ⟨r.2, t.arrivals.tail, if answered o then t.answers.tail else t.answers⟩)

theorem dev_allowed (t : LateMcu) (o : SysOp) :
    Link.world t.link o (t.dev o).1 (t.dev o).2.link := by
  refine ⟨t.arrivals.headD 0, ?_⟩
  let s := t.link.deliver (t.arrivals.headD 0)
  let ans := t.answers.headD ⟨SPI_NACK, .inr rfl⟩
  change s.Act o (act s ans o).1 (act s ans o).2
  cases o with
  | write fd data => exact ⟨some ans, fun _ => rfl, rfl⟩
  | spiMessage fd tx => exact ⟨some ans, fun _ => rfl, rfl⟩
  | read fd size => exact ⟨(List.take_append_drop size s.inbuf).symm, rfl⟩
  | poll fd timeout =>
      by_cases hin : s.inbuf = []
      · simp [act, hin, Link.Act]
      · simp [act, hin, Link.Act]
  | _ => rfl

theorem exec_run {h : SpiRegHandle} {call : RegCall} {t u : LateMcu} {ret : Int}
    (heval : (call.run h).eval dev t = some (ret, u)) :
    Exec Link.world (call.run h) t.link ret u.link :=
  exec_of_eval dev_allowed heval

end LateMcu

def ackA : AckByte := ⟨SPI_ACK, .inl rfl⟩
def ackN : AckByte := ⟨SPI_NACK, .inr rfl⟩

/-- A write of `mpu_online_cnt`. -/
abbrev onlineCntWrite : RegCall := .write 0x1011 1 [0x2a] 100

theorem SpiReg.write_acknowledged_idle :
    ∃ left, Session ⟨3, 4, 5⟩ Link.idle [(onlineCntWrite, 0, left)] left ∧ left.stale = [] ∧
      left.dataAns = some SPI_ACK := by
  have heval : (onlineCntWrite.run ⟨3, 4, 5⟩).eval LateMcu.dev
      ⟨.idle, [0, 0, 0, 0, 1, 0, 0, 0, 1, 0, 0, 0, 1], [ackA, ackA, ackA]⟩ =
      some (0, ⟨⟨[], [], [], 2, some SPI_ACK⟩, [], []⟩) := by decide +kernel
  have hsession := Session.cons (LateMcu.exec_run heval) (.nil _)
  exact ⟨_, hsession, rfl, SpiReg.write_acknowledged ⟨3, 4, 5⟩ _ _ _ hsession 0x1011 1 [0x2a] 100
    0 _ List.mem_cons_self rfl rfl⟩

/-- The first call gives up before the answer to its start byte arrives. That answer serves the
start byte of the second call, whose own answer serves its command frame, and so on: the `N` to the
data frame is never read. -/
theorem SpiReg.write_acknowledged_late :
    ∃ first left, Session ⟨3, 4, 5⟩ Link.idle
        [(onlineCntWrite, -2, first), (onlineCntWrite, 0, left)] left ∧
      left.dataAns = some SPI_NACK := by
  have hfirst : (onlineCntWrite.run ⟨3, 4, 5⟩).eval LateMcu.dev ⟨.idle, [], [ackA]⟩ =
      some (-2, ⟨⟨[], [SPI_ACK], [], 0, none⟩, [], []⟩) := by decide +kernel
  have hsecond : (onlineCntWrite.run ⟨3, 4, 5⟩).eval LateMcu.dev
      ⟨⟨[], [SPI_ACK], [], 0, none⟩, [0, 0, 0, 0, 1, 0, 0, 0, 1, 0, 0, 0, 1], [ackA, ackA, ackN]⟩ =
      some (0, ⟨⟨[], [SPI_NACK], [SPI_ACK], 2, some SPI_NACK⟩, [], []⟩) := by decide +kernel
  have hrun := LateMcu.exec_run hsecond
  exact ⟨_, _, .cons (LateMcu.exec_run hfirst) (.cons hrun (.nil _)), rfl⟩

end McuRegWr
