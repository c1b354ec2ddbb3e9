import McuRegWr.Base.Pool
import McuRegWr.Proof.Ring.Serve

/-!
# CAN messages between concurrent clients

Any number of clients fetch and send CAN messages while the MCU fills the one ring and empties the
other. A client asks for a level and then transfers, and the level may change in between; but a
transfer is whole or not at all and moves whole messages, so both rings stay aligned, and the log of
returned calls accounts for every message that passed.
-/

namespace McuRegWr

open Base Prog

/-- The size of a message on the wire. -/
abbrev msgSize : Nat := PCAN_MSG_SIZE.toNat

/-- A register of the receive ring. -/
abbrev recvReg (cmd : UInt16) : UInt16 := RWREG_CB_MPU_BUSINESS_RECEIVE_CAN_START + cmd

/-- A register of the send ring. -/
abbrev sendReg (cmd : UInt16) : UInt16 := RWREG_CB_MPU_BUSINESS_SEND_CAN_START + cmd

/-- The two rings, with everything the MCU has put into the one and taken out of the other. -/
structure CanRings (cap : Nat) where
  recv : Fifo UInt8 cap
  send : Fifo UInt8 cap
  appended : List UInt8
  consumed : List UInt8

namespace CanRings

variable {cap : Nat}

def world : World RegI (CanRings cap) := fun s o r s' =>
  Ring.Serves RWREG_CB_MPU_BUSINESS_RECEIVE_CAN_START s.recv o r s'.recv ∧
      s' = { s with recv := s'.recv } ∨
    Ring.Serves RWREG_CB_MPU_BUSINESS_SEND_CAN_START s.send o r s'.send ∧
      s' = { s with send := s'.send }

/-- The MCU appends a message to the receive ring or takes one from the send ring. -/
inductive Mcu (s : CanRings cap) : CanRings cap → Prop where
  | append {msg : List UInt8} (hmsg : msg.length = msgSize) (h : msg.length ≤ s.recv.free) :
      Mcu s { s with recv := s.recv.push msg h, appended := s.appended ++ msg }
  | consume (h : msgSize ≤ s.send.level) :
      Mcu s { s with send := s.send.pop msgSize, consumed := s.consumed ++ s.send.front msgSize }

variable {s s' : CanRings cap} {timeout : UInt32}

theorem world_size {r : RegOp.Ans (.readReg (recvReg CBREG_CMD_GET_SIZE) 4 timeout)}
    (h : world s (.readReg (recvReg CBREG_CMD_GET_SIZE) 4 timeout) r s') :
    s' = s ∧ ∃ size, r = .ok size ∧ size.val = leBytes 4 s.recv.level := by
  rcases h with ⟨hserve, hframe⟩ | ⟨hserve, -⟩
  · obtain ⟨hsame, hsize⟩ := Ring.serves_size hserve
    exact ⟨by rw [hframe, hsame], hsize⟩
  · exact absurd (Ring.serves_block hserve) (by decide)

theorem world_read {cnt : UInt16} {r : RegOp.Ans (.readReg (recvReg CBREG_CMD_READ) cnt timeout)}
    (h : world s (.readReg (recvReg CBREG_CMD_READ) cnt timeout) r s') :
    (∃ code, r = .error code) ∧ s' = s ∨
      ∃ bytes, r = .ok bytes ∧ cnt.toNat ≤ s.recv.level ∧ bytes.val = s.recv.front cnt.toNat ∧
        s' = { s with recv := s.recv.pop cnt.toNat } := by
  rcases h with ⟨hserve, hframe⟩ | ⟨hserve, -⟩
  · rcases Ring.serves_read hserve with ⟨hfail, hsame⟩ | ⟨bytes, hr, hle, hval, hpop⟩
    · exact .inl ⟨hfail, by rw [hframe, hsame]⟩
    · exact .inr ⟨bytes, hr, hle, hval, by rw [hframe, hpop]⟩
  · exact absurd (Ring.serves_block hserve) (by decide)

theorem world_freeSize {r : RegOp.Ans (.readReg (sendReg CBREG_CMD_GET_FREESIZE) 4 timeout)}
    (h : world s (.readReg (sendReg CBREG_CMD_GET_FREESIZE) 4 timeout) r s') :
    s' = s ∧ ∃ size, r = .ok size ∧ size.val = leBytes 4 s.send.free := by
  rcases h with ⟨hserve, -⟩ | ⟨hserve, hframe⟩
  · exact absurd (Ring.serves_block hserve) (by decide)
  · obtain ⟨hsame, hsize⟩ := Ring.serves_freeSize hserve
    exact ⟨by rw [hframe, hsame], hsize⟩

theorem world_write {data : List UInt8}
    {r : RegOp.Ans (.writeReg (sendReg CBREG_CMD_WRITE) data timeout)}
    (h : world s (.writeReg (sendReg CBREG_CMD_WRITE) data timeout) r s') :
    (∃ code, r = .error code) ∧ s' = s ∨
      r = .ok () ∧ ∃ h : data.length ≤ s.send.free, s' = { s with send := s.send.push data h } := by
  rcases h with ⟨hserve, -⟩ | ⟨hserve, hframe⟩
  · exact absurd (Ring.serves_block_write hserve) (by decide)
  · rcases Ring.serves_write hserve with ⟨hfail, hsame⟩ | ⟨hr, hle, hpush⟩
    · exact .inl ⟨hfail, by rw [hframe, hsame]⟩
    · exact .inr ⟨hr, hle, by rw [hframe, hpush]⟩

end CanRings

/-! ### Calls -/

inductive CanCall where
  | granRead (data : List UInt8) (nmemb timeout : UInt32)
  | granWrite (data : List UInt8) (nmemb timeout : UInt32)

namespace CanCall

def code : CanCall → Prog RegI (Int × List UInt8)
  | .granRead data nmemb timeout => RVMcu.receiveCanMsgBlock data nmemb timeout
  | .granWrite data nmemb timeout => do
      let ret ← RVMcu.sendCanMsgBlock data nmemb timeout
      return (ret, data)

/-- At most 63 messages, and a sender has them all in its buffer. -/
def Fair : CanCall → Prop
  | .granRead _ nmemb _ => nmemb.toNat ≤ 63
  | .granWrite data nmemb _ => nmemb.toNat ≤ 63 ∧ msgSize * nmemb.toNat ≤ data.length

end CanCall

/-- The first `ret` messages of a buffer. -/
def messages (ret : Int) (data : List UInt8) : List UInt8 := data.take (msgSize * ret.toNat)

variable {ι : Type}

abbrev CanReturn (ι : Type) : Type := Return RegI ι CanCall (Int × List UInt8)

/-- The messages a call returned to its client. -/
def received (e : CanReturn ι) : List UInt8 :=
  match e.call with
  | .granRead _ _ _ => messages e.result.1 e.result.2
  | .granWrite _ _ _ => []

/-- The messages a call counted as sent. -/
def sent (e : CanReturn ι) : List UInt8 :=
  match e.call with
  | .granRead _ _ _ => []
  | .granWrite data _ _ => messages e.result.1 data

/-- The bytes an access moved out of the receive ring or into the send ring. -/
def moved : RegI.Event → List UInt8
  | ⟨.readReg addr _ _, .ok bytes⟩ =>
      if addr = recvReg CBREG_CMD_READ then bytes.val else []
  | ⟨.writeReg addr data _, .ok _⟩ =>
      if addr = sendReg CBREG_CMD_WRITE then data else []
  | _ => []

/-- A call moved exactly the messages its return value counts. -/
def Counted (e : CanReturn ι) : Prop :=
  e.trace.flatMap moved = received e ++ sent e ∧
    (e.trace.flatMap moved).length = msgSize * e.result.1.toNat

/-- The rings hold whole messages, and the log accounts for everything that left the receive ring
and entered the send ring. `queued` is what the send ring held at first. -/
structure Exact {cap : Nat} (queued : List UInt8) (s : CanRings cap) (log : List (CanReturn ι)) :
    Prop where
  recv_aligned : msgSize ∣ s.recv.level
  send_aligned : msgSize ∣ s.send.level
  recv_exact : s.recv.Accounts s.appended (log.flatMap received)
  send_exact : s.send.Accounts (queued ++ log.flatMap sent) s.consumed
  counted : ∀ e ∈ log, Counted e

namespace Exact

variable {cap : Nat} {queued : List UInt8} {s : CanRings cap} {log : List (CanReturn ι)}
  {e : CanReturn ι}

theorem counted_snoc (h : Exact queued s log) (he : Counted e) : ∀ e' ∈ log ++ [e], Counted e' := by
  intro e' he'
  rcases List.mem_append.mp he' with hold | hnew
  · exact h.counted e' hold
  · rwa [List.mem_singleton.mp hnew]

theorem nothing (h : Exact queued s log) (hmoved : e.trace.flatMap moved = [])
    (hret : e.result.1 ≤ 0) : Exact queued s (log ++ [e]) := by
  have hnone : received e = [] ∧ sent e = [] := by
    have hmsgs (data : List UInt8) : messages e.result.1 data = [] := by
      rw [messages, Int.toNat_of_nonpos hret]
      rfl
    constructor
    · rw [received]
      split
      · exact hmsgs _
      · rfl
    · rw [sent]
      split
      · rfl
      · exact hmsgs _
  refine ⟨h.recv_aligned, h.send_aligned, ?_, ?_, h.counted_snoc ⟨?_, ?_⟩⟩
  · rw [List.flatMap_append, List.flatMap_singleton, hnone.1, List.append_nil]
    exact h.recv_exact
  · rw [List.flatMap_append, List.flatMap_singleton, hnone.2, List.append_nil]
    exact h.send_exact
  · rw [hmoved, hnone.1, hnone.2]
    rfl
  · rw [hmoved, Int.toNat_of_nonpos hret]
    rfl

theorem fetched (h : Exact queued s log) {n : Nat} (hn : msgSize ∣ n) (hcount : Counted e)
    (hrecv : received e = s.recv.front n) (hsent : sent e = []) :
    Exact queued { s with recv := s.recv.pop n } (log ++ [e]) := by
  refine ⟨Fifo.dvd_level_pop h.recv_aligned hn, h.send_aligned, ?_, ?_, h.counted_snoc hcount⟩
  · rw [List.flatMap_append, List.flatMap_singleton, hrecv]
    exact h.recv_exact.pop _
  · rw [List.flatMap_append, List.flatMap_singleton, hsent, List.append_nil]
    exact h.send_exact

theorem queuedUp (h : Exact queued s log) {data : List UInt8} (hn : msgSize ∣ data.length)
    (hfree : data.length ≤ s.send.free) (hcount : Counted e) (hrecv : received e = [])
    (hsent : sent e = data) :
    Exact queued { s with send := s.send.push data hfree } (log ++ [e]) := by
  refine ⟨h.recv_aligned, Fifo.dvd_level_push h.send_aligned hn hfree, ?_, ?_,
    h.counted_snoc hcount⟩
  · rw [List.flatMap_append, List.flatMap_singleton, hrecv, List.append_nil]
    exact h.recv_exact
  · rw [List.flatMap_append, List.flatMap_singleton, hsent, ← List.append_assoc]
    exact h.send_exact.push hfree

theorem mcu (h : Exact queued s log) {s' : CanRings cap} (hmove : s.Mcu s') :
    Exact queued s' log := by
  cases hmove with
  | append hmsg hfree =>
      exact ⟨Fifo.dvd_level_push h.recv_aligned (by rw [hmsg]) hfree, h.send_aligned,
        h.recv_exact.push hfree, h.send_exact, h.counted⟩
  | consume hle =>
      exact ⟨h.recv_aligned, Fifo.dvd_level_pop h.send_aligned (dvd_refl _), h.recv_exact,
        h.send_exact.pop _, h.counted⟩

end Exact

/-! ### What the calls keep -/

variable {cap : Nat} {queued : List UInt8}

/-- The number of messages a call moves, and their bytes: neither overflows. -/
theorem grains_msgSize {n : Nat} (hn : n < 2 ^ 31) {nmemb : UInt32} (hnmemb : nmemb.toNat ≤ 63) :
    ((RegWrCb.grains n PCAN_MSG_SIZE nmemb.toUInt16).toUInt32 * PCAN_MSG_SIZE).toUInt16.toNat =
      msgSize * (RegWrCb.grains n PCAN_MSG_SIZE nmemb.toUInt16).toNat ∧
    (RegWrCb.grains n PCAN_MSG_SIZE nmemb.toUInt16).toNat ≤ nmemb.toNat := by
  have hle : (RegWrCb.grains n PCAN_MSG_SIZE nmemb.toUInt16).toNat ≤ nmemb.toNat := by
    rw [RegWrCb.toNat_grains (by omega), UInt32.toNat_toUInt16]
    omega
  refine ⟨?_, hle⟩
  rw [UInt32.toNat_toUInt16, UInt32.toNat_mul, UInt16.toNat_toUInt32]
  have hsize : PCAN_MSG_SIZE.toNat = 16 := rfl
  simp only [msgSize, hsize]
  omega

theorem messages_storeAt {data bytes : List UInt8} {n : Nat} (h : bytes.length = msgSize * n) :
    messages n (storeAt data 0 bytes) = bytes := by
  rw [messages, Int.toNat_natCast, ← h, storeAt, List.take_zero, List.nil_append, List.take_left]

/-- The rule of a receive, where levels are anything and a fetch that succeeds leaves `put` of what
it fetched: it moves nothing, or the messages it counts. -/
theorem wlp_receiveCanMsgBlock {σ : Type} {W : World RegI σ} {G : σ → RegOp → Prop} {s : σ}
    (put : List UInt8 → σ) {data : List UInt8} {nmemb timeout : UInt32} (hnmemb : nmemb.toNat ≤ 63)
    (hasks : G s (.readReg (recvReg CBREG_CMD_GET_SIZE) 4 timeout))
    (hsize : ∀ r t, W s (.readReg (recvReg CBREG_CMD_GET_SIZE) 4 timeout) r t → t = s)
    (hfetches : ∀ cnt, G s (.readReg (recvReg CBREG_CMD_READ) cnt timeout))
    (hread : ∀ cnt r t, W s (.readReg (recvReg CBREG_CMD_READ) cnt timeout) r t →
      (∃ code, r = .error code) ∧ t = s ∨ ∃ bytes, r = .ok bytes ∧ t = put bytes.val) :
    (RVMcu.receiveCanMsgBlock data nmemb timeout).wlp W G
      (fun a t => a.1 ≤ 0 ∧ a.2 = data ∧ t = s ∨
        ∃ (n : Nat) (bytes : List UInt8), 0 < n ∧ n ≤ nmemb.toNat ∧ bytes.length = msgSize * n ∧
          a = (↑n, storeAt data 0 bytes) ∧ t = put bytes) s := by
  rw [RVMcu.receiveCanMsgBlock, RegWrCb.granRead_eq]
  refine ⟨hasks, fun r t answer => ?_⟩
  obtain rfl := hsize r t answer
  cases r with
  | error code => exact .inl ⟨le_of_lt code.property, rfl, rfl⟩
  | ok size =>
      dsimp only
      split
      · rename_i hneg
        exact .inl ⟨le_of_lt hneg, rfl, rfl⟩
      rename_i hlevel
      obtain ⟨level, hlt, hint⟩ := exists_level hlevel
      rw [hint]
      obtain ⟨hlen, hle⟩ := grains_msgSize hlt hnmemb
      by_cases hzero : RegWrCb.grains level PCAN_MSG_SIZE nmemb.toUInt16 = 0
      · rw [if_pos hzero]
        exact .inl ⟨le_refl _, rfl, rfl⟩
      have hsome : 0 < (RegWrCb.grains level PCAN_MSG_SIZE nmemb.toUInt16).toNat :=
        Nat.pos_of_ne_zero fun hnone => hzero (UInt16.toNat_inj.mp hnone)
      rw [if_neg hzero]
      refine ⟨hfetches _, fun r u answer => ?_⟩
      rcases hread _ r u answer with ⟨⟨code, rfl⟩, rfl⟩ | ⟨bytes, rfl, rfl⟩
      · exact .inl ⟨le_of_lt code.property, rfl, rfl⟩
      · exact .inr ⟨_, bytes.val, hsome, hle, bytes.property.trans hlen, rfl, rfl⟩

theorem keeps_granRead (hcap : cap < 65536) (i : ι) (data : List UInt8) {nmemb : UInt32}
    (timeout : UInt32) (hnmemb : nmemb.toNat ≤ 63) :
    Pool.Keeps (@CanRings.world cap) (Exact queued) i (.granRead data nmemb timeout)
      (CanCall.code (.granRead data nmemb timeout)) [] := by
  rw [CanCall.code, RVMcu.receiveCanMsgBlock, RegWrCb.granRead_eq]
  intro s log r s' hinv hw
  obtain ⟨rfl, size, rfl, hsize⟩ := CanRings.world_size hw
  have hlevel : s'.recv.level < 2 ^ 31 := by
    have := s'.recv.level_le
    omega
  have hint : int32 size.val = s'.recv.level := by
    rw [hsize, int32_leBytes hlevel]
  obtain ⟨hlen, -⟩ := grains_msgSize hlevel hnmemb
  dsimp only
  rw [hint, if_neg (by omega)]
  -- without a whole message there is nothing to fetch
  by_cases hzero : RegWrCb.grains s'.recv.level PCAN_MSG_SIZE nmemb.toUInt16 = 0
  · rw [if_pos hzero]
    refine ⟨fun a ha => ?_, fun hmore => absurd rfl (hmore _), trivial⟩
    obtain rfl := Prog.done.inj ha
    exact hinv.nothing rfl (le_refl _)
  rw [if_neg hzero]
  refine ⟨fun a ha => by simp at ha, fun _ => hinv, ?_⟩
  -- by now the level may have changed
  intro s₁ log₁ r₁ s₂ hinv₁ hw₁
  rcases CanRings.world_read hw₁ with ⟨⟨code, rfl⟩, rfl⟩ | ⟨bytes, rfl, hle, hfront, rfl⟩
  · refine ⟨fun a ha => ?_, fun hmore => absurd rfl (hmore _), trivial⟩
    obtain rfl := Prog.done.inj ha
    exact hinv₁.nothing rfl (le_of_lt code.property)
  · refine ⟨fun a ha => ?_, fun hmore => absurd rfl (hmore _), trivial⟩
    obtain rfl := Prog.done.inj ha
    have hbytes : bytes.val.length =
        msgSize * (RegWrCb.grains s'.recv.level PCAN_MSG_SIZE nmemb.toUInt16).toNat := by
      rw [bytes.property, hlen]
    have hret := @messages_storeAt data bytes.val _ hbytes
    refine hinv₁.fetched ⟨_, hlen⟩ ⟨?_, ?_⟩ (hret.trans hfront) rfl
    · exact (List.append_nil _).trans (hret.symm.trans (List.append_nil _).symm)
    · exact (congrArg List.length (List.append_nil _)).trans hbytes

theorem code_granWrite (data : List UInt8) (nmemb timeout : UInt32) :
    CanCall.code (.granWrite data nmemb timeout) =
      .ask (.readReg (sendReg CBREG_CMD_GET_FREESIZE) 4 timeout) fun
        | .error code => .done (code.val, data)
        | .ok size =>
            let w_num := RegWrCb.grains (int32 size.val) PCAN_MSG_SIZE nmemb.toUInt16
            if int32 size.val < 0 then .done (int32 size.val, data)
            else if w_num = 0 then .done (0, data)
            else .ask (.writeReg (sendReg CBREG_CMD_WRITE)
              (data.take (w_num.toUInt32 * PCAN_MSG_SIZE).toUInt16.toNat) timeout) fun
              | .error code => .done (code.val, data)
              | .ok _ => .done (w_num.toNat, data) := by
  rw [CanCall.code, RVMcu.sendCanMsgBlock, RegWrCb.granWrite_eq, ask_bind]
  refine congrArg (@Prog.ask RegI _ _) (funext fun ans => ?_)
  cases ans with
  | error code => rfl
  | ok size =>
      dsimp only
      split
      · rfl
      split
      · rfl
      refine congrArg (@Prog.ask RegI _ _) (funext fun ans => ?_)
      cases ans <;> rfl

theorem keeps_granWrite (hcap : cap < 65536) (i : ι) (data : List UInt8) {nmemb : UInt32}
    (timeout : UInt32) (hnmemb : nmemb.toNat ≤ 63) (hdata : msgSize * nmemb.toNat ≤ data.length) :
    Pool.Keeps (@CanRings.world cap) (Exact queued) i (.granWrite data nmemb timeout)
      (CanCall.code (.granWrite data nmemb timeout)) [] := by
  rw [code_granWrite]
  intro s log r s' hinv hw
  obtain ⟨rfl, size, rfl, hsize⟩ := CanRings.world_freeSize hw
  have hfree : s'.send.free < 2 ^ 31 := by
    simp only [Fifo.free]
    omega
  have hint : int32 size.val = s'.send.free := by
    rw [hsize, int32_leBytes hfree]
  obtain ⟨hlen, hle⟩ := grains_msgSize hfree hnmemb
  dsimp only
  rw [hint, if_neg (by omega)]
  -- without room for a whole message there is nothing to send
  by_cases hzero : RegWrCb.grains s'.send.free PCAN_MSG_SIZE nmemb.toUInt16 = 0
  · rw [if_pos hzero]
    refine ⟨fun a ha => ?_, fun hmore => absurd rfl (hmore _), trivial⟩
    obtain rfl := Prog.done.inj ha
    exact hinv.nothing rfl (le_refl _)
  rw [if_neg hzero]
  refine ⟨fun a ha => by simp at ha, fun _ => hinv, ?_⟩
  -- by now the free space may have changed
  intro s₁ log₁ r₁ s₂ hinv₁ hw₁
  rcases CanRings.world_write hw₁ with ⟨⟨code, rfl⟩, rfl⟩ | ⟨rfl, hfits, rfl⟩
  · refine ⟨fun a ha => ?_, fun hmore => absurd rfl (hmore _), trivial⟩
    obtain rfl := Prog.done.inj ha
    exact hinv₁.nothing rfl (le_of_lt code.property)
  · refine ⟨fun a ha => ?_, fun hmore => absurd rfl (hmore _), trivial⟩
    obtain rfl := Prog.done.inj ha
    have hbytes : (data.take ((RegWrCb.grains s'.send.free PCAN_MSG_SIZE nmemb.toUInt16).toUInt32 *
        PCAN_MSG_SIZE).toUInt16.toNat).length =
        msgSize * (RegWrCb.grains s'.send.free PCAN_MSG_SIZE nmemb.toUInt16).toNat := by
      have hmul := Nat.mul_le_mul_left msgSize hle
      rw [List.length_take, hlen]
      omega
    have hret : messages (RegWrCb.grains s'.send.free PCAN_MSG_SIZE nmemb.toUInt16).toNat data =
        data.take ((RegWrCb.grains s'.send.free PCAN_MSG_SIZE nmemb.toUInt16).toUInt32 *
          PCAN_MSG_SIZE).toUInt16.toNat := by
      rw [messages, Int.toNat_natCast, hlen]
    refine hinv₁.queuedUp ⟨_, hbytes⟩ hfits ⟨?_, ?_⟩ rfl hret
    · exact (List.append_nil _).trans hret.symm
    · exact (congrArg List.length (List.append_nil _)).trans hbytes

/-! ### All interleavings -/

variable [DecidableEq ι]

/-- The pools the clients and the MCU can reach. -/
abbrev CanReachable (cap : Nat) : Pool RegI ι CanCall (Int × List UInt8) (CanRings cap) →
    Pool RegI ι CanCall (Int × List UInt8) (CanRings cap) → Prop :=
  Pool.Reachable CanRings.world CanRings.Mcu CanCall.code fun _ call => call.Fair

/-- From aligned rings, whatever the clients and the MCU do and however their accesses interleave:
both rings hold whole messages, every message that left the receive ring was returned by one call,
in order, every message counted as sent entered the send ring once, in order, and every return value
is the number of messages its call moved. -/
theorem can_messages_exact {cap : Nat} (hcap : cap < 65536)
    {p q : Pool RegI ι CanCall (Int × List UInt8) (CanRings cap)}
    (hidle : ∀ i, p.clients i = none) (hlog : p.log = [])
    (hrecv : msgSize ∣ p.shared.recv.level) (hsend : msgSize ∣ p.shared.send.level)
    (happended : p.shared.appended = p.shared.recv.items) (hconsumed : p.shared.consumed = [])
    (hreach : CanReachable cap p q) :
    (msgSize ∣ q.shared.recv.level ∧ msgSize ∣ q.shared.send.level) ∧
      q.shared.appended = q.log.flatMap received ++ q.shared.recv.items ∧
      p.shared.send.items ++ q.log.flatMap sent = q.shared.consumed ++ q.shared.send.items ∧
      ∀ e ∈ q.log, Runs e.call.code e.trace e.result ∧
        e.trace.flatMap moved = received e ++ sent e ∧
        (e.trace.flatMap moved).length = msgSize * e.result.1.toNat := by
  have hstart : Exact p.shared.send.items p.shared p.log := by
    refine ⟨hrecv, hsend, ?_, ?_, ?_⟩
    · rw [hlog]
      exact happended
    · rw [hlog, Fifo.Accounts, hconsumed]
      exact List.append_nil _
    · rw [hlog]
      simp
  have hcode : ∀ (i : ι) call, call.Fair → Pool.Keeps (@CanRings.world cap)
      (Exact p.shared.send.items) i call call.code [] := by
    intro i call hfair
    cases call with
    | granRead data nmemb timeout => exact keeps_granRead hcap i data timeout hfair
    | granWrite data nmemb timeout => exact keeps_granWrite hcap i data timeout hfair.1 hfair.2
  have hexact := Pool.Reachable.keeps hcode (fun _ _ _ hinv hmove => hinv.mcu hmove) hreach hidle
    hstart
  have htraced : Pool.Traced CanCall.code q :=
    Pool.Reachable.invariant (fun _ _ h hstep => h.step hstep) hreach
      ⟨fun i cl hi => by rw [hidle i] at hi; simp at hi, fun e he => by rw [hlog] at he; simp at he⟩
  exact ⟨⟨hexact.recv_aligned, hexact.send_aligned⟩, hexact.recv_exact, hexact.send_exact,
    fun e he => ⟨htraced.returned e he, hexact.counted e he⟩⟩

/-- Both rings at work: an access is answered by the ring it is meant for. -/
def CanRings.answer {cap : Nat} (s : CanRings cap) (o : RegOp) :
    Option (RegOp.Ans o × CanRings cap) :=
  match Ring.answer RWREG_CB_MPU_BUSINESS_RECEIVE_CAN_START s.recv o with
  | some (r, q) => some (r, { s with recv := q })
  | none => (Ring.answer RWREG_CB_MPU_BUSINESS_SEND_CAN_START s.send o).map fun (r, q) =>
      (r, { s with send := q })

theorem CanRings.world_answer {cap : Nat} (s : CanRings cap) (o : RegOp) (r : RegOp.Ans o)
    (s' : CanRings cap) (h : s.answer o = some (r, s')) : CanRings.world s o r s' := by
  rw [CanRings.answer] at h
  split at h
  · rename_i r' q hrecv
    obtain ⟨rfl, rfl⟩ := Prod.mk.inj (Option.some.inj h)
    exact .inl ⟨Ring.serves_answer hrecv, rfl⟩
  · obtain ⟨⟨r', q⟩, hsend, heq⟩ := Option.map_eq_some_iff.mp h
    obtain ⟨rfl, rfl⟩ := Prod.mk.inj heq
    exact .inr ⟨Ring.serves_answer hsend, rfl⟩

/-- Three clients and a message in the receive ring. -/
def canStart : Pool RegI (Fin 3) CanCall (Int × List UInt8) (CanRings 64) where
  shared := ⟨⟨List.replicate 16 0x11, by decide⟩, .empty, List.replicate 16 0x11, []⟩
  clients := fun _ => none
  history := []
  log := []

/-- A call that fetches up to two messages, and one that sends two. -/
abbrev fetchTwo : CanCall := .granRead (List.replicate 32 0) 2 100
abbrev sendTwo : CanCall := .granWrite (List.replicate 32 0x22) 2 100

/-- Two ask for the level while the message is there; one of them gets it, the other fails. The
third sends in between. -/
theorem can_messages_exact_three_clients :
    ∃ q, CanReachable 64 canStart q ∧ q.log.map (·.result.1) = [1, -2, 2] ∧
      q.shared.appended = q.log.flatMap received ++ q.shared.recv.items ∧
      canStart.shared.send.items ++ q.log.flatMap sent =
        q.shared.consumed ++ q.shared.send.items := by
  have hfetch : fetchTwo.Fair := show (2 : UInt32).toNat ≤ 63 by decide
  have hsend : sendTwo.Fair := ⟨by decide, by decide⟩
  let p₁ := canStart.begin CanCall.code 0 fetchTwo
  let p₂ := p₁.begin CanCall.code 1 fetchTwo
  let p₃ := p₂.begin CanCall.code 2 sendTwo
  have hfirst : CanReachable 64 canStart p₁ := Pool.reachable_begin rfl hfetch
  have hsecond : CanReachable 64 p₁ p₂ := Pool.reachable_begin rfl hfetch
  have hthird : CanReachable 64 p₂ p₃ := Pool.reachable_begin rfl hsend
  have hreach := ((hfirst.trans hsecond).trans hthird).trans
    (Pool.reachable_schedule CanRings.world_answer [0, 1, 2, 0, 1, 2] p₃)
  have hexact := can_messages_exact (by decide) (fun _ => rfl) rfl (by decide) (by decide) rfl rfl
    hreach
  exact ⟨_, hreach, by decide +kernel, hexact.2.1, hexact.2.2.1⟩

end McuRegWr
