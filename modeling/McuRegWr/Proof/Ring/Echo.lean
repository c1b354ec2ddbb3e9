import McuRegWr.Proof.Ring.Can
import McuRegWr.Run

/-!
# The echo test

The test sends back every batch of CAN messages it has received. Its buffer holds one batch, and its
position says how much of it has been accepted: the messages accepted so far are those of all earlier
batches and the first ones of this, whichever transfers fail or are made in part.
-/

namespace McuRegWr

open Base Prog

/-- The bytes that were received and the bytes that were accepted for sending. -/
structure Echoed where
  received : List UInt8
  accepted : List UInt8

/-- Every access can fail, and then nothing has moved. Levels are anything, and so are the messages.
-/
inductive echoing : World RegI Echoed
  | level (s : Echoed) {addr : UInt16} (timeout : UInt32) (r : RegOp.Ans (.readReg addr 4 timeout))
      (haddr : addr = recvReg CBREG_CMD_GET_SIZE ∨ addr = sendReg CBREG_CMD_GET_FREESIZE) :
      echoing s (.readReg addr 4 timeout) r s
  | received (s : Echoed) {addr : UInt16} (cnt : UInt16) (timeout : UInt32) (bytes : _)
      (haddr : addr = recvReg CBREG_CMD_READ) :
      echoing s (.readReg addr cnt timeout) (.ok bytes) { s with received := s.received ++ bytes.val }
  | notReceived (s : Echoed) {addr : UInt16} (cnt : UInt16) (timeout : UInt32) (code : Fail)
      (haddr : addr = recvReg CBREG_CMD_READ) :
      echoing s (.readReg addr cnt timeout) (.error code) s
  | accepted (s : Echoed) (data : List UInt8) (timeout : UInt32) :
      echoing s (.writeReg (sendReg CBREG_CMD_WRITE) data timeout) (.ok ())
        { s with accepted := s.accepted ++ data }
  | notAccepted (s : Echoed) (data : List UInt8) (timeout : UInt32) (code : Fail) :
      echoing s (.writeReg (sendReg CBREG_CMD_WRITE) data timeout) (.error code) s
  | slept (s : Echoed) (usec : Nat) : echoing s (.usleep usec) () s

namespace Echo

/-- A receive is started when everything received was accepted, and what is offered for sending
comes next in what was received. -/
def Guard (s : Echoed) : RegOp → Prop
  | .readReg reg_addr _ _ => reg_addr = recvReg CBREG_CMD_GET_SIZE → s.accepted = s.received
  | .writeReg _ reg_data _ => s.accepted ++ reg_data <+: s.received
  | .openFile _ => True
  | .readFile _ _ => True
  | .closeFile _ => True
  | .usleep _ => True

/-- The batch in the buffer is the end of what was received, and the position is as far in it as its
messages were accepted. -/
structure Inv (b : CanEcho) (s : Echoed) : Prop where
  length_eq : b.can_msg.length = msgSize * TEST_CAN_BUF_SIZE.toNat
  end_le : b.can_msg_end ≤ TEST_CAN_BUF_SIZE.toNat
  pos_le : b.can_msg_pos ≤ b.can_msg_end
  batch : ∃ before, s.received = before ++ b.can_msg.take (msgSize * b.can_msg_end) ∧
    s.accepted = before ++ b.can_msg.take (msgSize * b.can_msg_pos)

variable {s : Echoed} {b : CanEcho}

theorem Inv.echoed (h : Inv b s) : s.accepted <+: s.received := by
  obtain ⟨before, hrecv, hacc⟩ := h.batch
  rw [hrecv, hacc, List.prefix_append_right_inj]
  exact List.take_prefix_take_left (Nat.mul_le_mul_left _ h.pos_le)

/-- At the head of the outer loop everything was accepted. -/
theorem Inv.complete (h : Inv b s) (hend : ¬ b.can_msg_pos < b.can_msg_end) :
    s.accepted = s.received := by
  have hpos : b.can_msg_pos = b.can_msg_end := Nat.le_antisymm h.pos_le (not_lt.mp hend)
  obtain ⟨before, hrecv, hacc⟩ := h.batch
  rw [hrecv, hacc, hpos]

/-- `n` messages from the position on are the next ones of what was received. -/
theorem Inv.accept (h : Inv b s) {n : Nat} (hn : b.can_msg_pos + n ≤ b.can_msg_end) :
    Inv { b with can_msg_pos := b.can_msg_pos + n }
      { s with accepted := s.accepted ++
        (b.can_msg.drop (msgSize * b.can_msg_pos)).take (msgSize * n) } := by
  obtain ⟨before, hrecv, hacc⟩ := h.batch
  refine ⟨h.length_eq, h.end_le, hn, before, hrecv, ?_⟩
  dsimp only
  rw [hacc, List.append_assoc, Nat.mul_add, List.take_add]

/-! ### What an access does -/

theorem echoing_level {t : Echoed} {addr : UInt16} {timeout : UInt32}
    {r : RegOp.Ans (.readReg addr 4 timeout)}
    (haddr : addr = recvReg CBREG_CMD_GET_SIZE ∨ addr = sendReg CBREG_CMD_GET_FREESIZE)
    (h : echoing s (.readReg addr 4 timeout) r t) : t = s := by
  have hother : addr ≠ recvReg CBREG_CMD_READ := by
    rcases haddr with rfl | rfl
    · decide
    · decide
  cases h with
  | level => rfl
  | received _ _ _ _ hread => exact absurd hread hother
  | notReceived _ _ _ _ hread => exact absurd hread hother

theorem echoing_read {t : Echoed} {cnt : UInt16} {timeout : UInt32}
    {r : RegOp.Ans (.readReg (recvReg CBREG_CMD_READ) cnt timeout)}
    (h : echoing s (.readReg (recvReg CBREG_CMD_READ) cnt timeout) r t) :
    (∃ code, r = .error code) ∧ t = s ∨
      ∃ bytes, r = .ok bytes ∧ t = { s with received := s.received ++ bytes.val } := by
  generalize haddr : recvReg CBREG_CMD_READ = addr at h
  cases h with
  | level _ _ _ hlevel =>
      rw [← haddr] at hlevel
      exact absurd hlevel (by decide)
  | received _ _ _ bytes _ => exact .inr ⟨bytes, rfl, rfl⟩
  | notReceived _ _ _ code _ => exact .inl ⟨⟨code, rfl⟩, rfl⟩

theorem echoing_write {t : Echoed} {data : List UInt8} {timeout : UInt32}
    {r : RegOp.Ans (.writeReg (sendReg CBREG_CMD_WRITE) data timeout)}
    (h : echoing s (.writeReg (sendReg CBREG_CMD_WRITE) data timeout) r t) :
    (∃ code, r = .error code) ∧ t = s ∨
      r = .ok () ∧ t = { s with accepted := s.accepted ++ data } := by
  cases h with
  | accepted => exact .inr ⟨rfl, rfl⟩
  | notAccepted _ _ _ code => exact .inl ⟨⟨code, rfl⟩, rfl⟩

/-! ### One round -/

theorem toNat_pending (h : Inv b s) :
    (UInt32.ofNat (b.can_msg_end - b.can_msg_pos)).toNat = b.can_msg_end - b.can_msg_pos ∧
      (UInt32.ofNat (b.can_msg_end - b.can_msg_pos)).toNat ≤ 63 := by
  have hend := h.end_le
  have hsize : TEST_CAN_BUF_SIZE.toNat = 60 := rfl
  rw [UInt32.toNat_ofNat']
  omega

/-- A send fails and nothing is accepted, or the messages it counts are the next ones that are. -/
theorem wlp_send (h : Inv b s) {timeout : UInt32} :
    (RVMcu.sendCanMsgBlock (b.can_msg.drop (msgSize * b.can_msg_pos))
      (UInt32.ofNat (b.can_msg_end - b.can_msg_pos)) timeout).wlp echoing Guard
      (fun ret t => ret < 0 ∧ t = s ∨
        ∃ n : Nat, ret = n ∧ Inv { b with can_msg_pos := b.can_msg_pos + n } t) s := by
  rw [RVMcu.sendCanMsgBlock, RegWrCb.granWrite_eq]
  obtain ⟨hpending, hsmall⟩ := toNat_pending h
  refine ⟨fun hreg => absurd hreg (by decide), fun r t answer => ?_⟩
  obtain rfl := echoing_level (.inr rfl) answer
  cases r with
  | error code => exact .inl ⟨code.property, rfl⟩
  | ok size =>
      dsimp only
      split
      · rename_i hneg
        exact .inl ⟨hneg, rfl⟩
      rename_i hlevel
      obtain ⟨level, hlt, hint⟩ := exists_level hlevel
      rw [hint]
      obtain ⟨hlen, hle⟩ := grains_msgSize hlt hsmall
      rw [hpending] at hle
      split
      · exact .inr ⟨0, rfl, h⟩
      have hnext := h.accept (n := (RegWrCb.grains level PCAN_MSG_SIZE
        (UInt32.ofNat (b.can_msg_end - b.can_msg_pos)).toUInt16).toNat) (by
          have hpos := h.pos_le
          omega)
      rw [hlen]
      refine ⟨hnext.echoed, fun r u answer => ?_⟩
      rcases echoing_write answer with ⟨⟨code, rfl⟩, rfl⟩ | ⟨rfl, rfl⟩
      · exact .inl ⟨code.property, rfl⟩
      · exact .inr ⟨_, rfl, hnext⟩

theorem wlp_receive (h : Inv b s) (hend : ¬ b.can_msg_pos < b.can_msg_end) {timeout : UInt32} :
    (RVMcu.receiveCanMsgBlock b.can_msg TEST_CAN_BUF_SIZE timeout).wlp echoing Guard
      (fun a t => a.1 ≤ 0 ∧ a.2 = b.can_msg ∧ t = s ∨
        ∃ n : Nat, 0 < n ∧ a.1 = n ∧ ∀ test_msg_cnt, Inv ⟨a.2, 0, n, test_msg_cnt⟩ t) s := by
  refine wlp_conseq (wlp_receiveCanMsgBlock (fun bytes =>
    { s with received := s.received ++ bytes }) (by decide) (fun _ => h.complete hend)
    (fun r t answer => echoing_level (.inl rfl) answer) (fun cnt hreg => absurd hreg (by decide))
    fun cnt r t answer => ?_) fun a t ht => ?_
  · rcases echoing_read answer with hfail | ⟨bytes, hr, ht⟩
    · exact .inl hfail
    · exact .inr ⟨bytes, hr, ht⟩
  rcases ht with hnone | ⟨n, bytes, hsome, hle, hbatch, rfl, rfl⟩
  · exact .inl hnone
  refine .inr ⟨n, hsome, rfl, fun test_msg_cnt => ⟨?_, hle, Nat.zero_le _, s.received, ?_, ?_⟩⟩
  · have hfits : bytes.length ≤ b.can_msg.length := by
      rw [hbatch, h.length_eq]
      exact Nat.mul_le_mul_left _ hle
    rw [length_storeAt (by rwa [Nat.zero_add]), h.length_eq]
  · have hstored := @messages_storeAt b.can_msg _ _ hbatch
    rw [messages, Int.toNat_natCast] at hstored
    rw [hstored]
  · rw [Nat.mul_zero, List.take_zero, List.append_nil]
    exact h.complete hend

theorem wlp_canEchoRound (h : Inv b s) :
    (canEchoRound b).wlp echoing Guard (Sum.elim Inv fun _ _ => True) s := by
  rw [canEchoRound]
  split
  · rename_i hpos
    simp only [wlp_bind]
    refine wlp_conseq (wlp_send h) fun ret t ht => ?_
    rcases ht with ⟨hneg, rfl⟩ | ⟨n, rfl, hsent⟩
    · rw [if_pos hneg]
      refine ⟨trivial, fun _ u answer => ?_⟩
      cases answer
      exact h
    · rw [if_neg (by omega)]
      exact hsent
  · rename_i hend
    simp only [wlp_bind]
    refine wlp_conseq (wlp_receive h hend) fun a t ht => ?_
    obtain ⟨ret, can_msg⟩ := a
    rcases ht with ⟨hle, rfl, rfl⟩ | ⟨n, hsome, rfl, hreceived⟩
    · dsimp only
      split
      · exact h
      rw [if_pos (by omega)]
      refine ⟨trivial, fun _ u answer => ?_⟩
      cases answer
      exact h
    · dsimp only
      rw [if_neg (by omega), if_neg (by omega)]
      exact hreceived _

theorem inv_start : Inv .start ⟨[], []⟩ :=
  ⟨List.length_replicate, Nat.zero_le _, le_refl _, [], rfl, rfl⟩

/-- What was accepted is a prefix of what was received at every point of a run. -/
theorem echoed_kept {s t : Echoed} {o : RegOp} {r : RegOp.Ans o}
    (h : s.accepted <+: s.received) (hguard : Guard s o) (answer : echoing s o r t) :
    t.accepted <+: t.received := by
  cases answer with
  | level => exact h
  | received _ _ bytes _ => exact h.trans (List.prefix_append _ _)
  | notReceived => exact h
  | accepted => exact hguard
  | notAccepted => exact h
  | slept => exact h

end Echo

/-- At every point of the echo test, the messages accepted for sending are a prefix of those
received; at the head of each round the position is within the batch; and when a receive is started
every message received so far was accepted. -/
theorem can_echo_exact :
    (∀ fuel p t, Steps echoing (funLoopCanEchoTest fuel) ⟨[], []⟩ p t →
      t.accepted <+: t.received) ∧
    (∀ b t, Rounds echoing canEchoRound .start ⟨[], []⟩ b t → b.can_msg_pos ≤ b.can_msg_end) ∧
    (∀ fuel timeout next t, Steps echoing (funLoopCanEchoTest fuel) ⟨[], []⟩
      (.ask (.readReg (recvReg CBREG_CMD_GET_SIZE) 4 timeout) next) t →
      t.accepted = t.received) := by
  have hwlp (fuel : Nat) : (funLoopCanEchoTest fuel).wlp echoing Echo.Guard (fun _ _ => True)
      ⟨[], []⟩ :=
    wlp_loop Echo.Inv (fun b s h => Echo.wlp_canEchoRound h) fuel Echo.inv_start
  refine ⟨fun fuel p t run => ?_, fun b t run => ?_, fun fuel timeout next t run => ?_⟩
  · exact Steps.invariant (K := fun s => s.accepted <+: s.received) Echo.echoed_kept run
      (hwlp fuel) (List.prefix_refl _)
  · have hinv : Echo.Inv b t :=
      run.invariant Echo.Inv (fun b s h => Echo.wlp_canEchoRound h) Echo.inv_start
    exact hinv.pos_le
  · exact wlp_guard (hwlp fuel) run rfl

/-- A message is received and sent back, and the next receive is started. -/
theorem can_echo_exact_one_message : ∃ next t,
    Steps echoing (funLoopCanEchoTest 3) ⟨[], []⟩
      (.ask (.readReg (recvReg CBREG_CMD_GET_SIZE) 4 100) next) t ∧
    t.received = List.replicate 16 0x11 ∧ t.accepted = t.received := by
  let message : {bytes : List UInt8 // bytes.length = (16 : UInt16).toNat} :=
    ⟨List.replicate 16 0x11, rfl⟩
  have hrun : ∃ next, Steps echoing (funLoopCanEchoTest 3) ⟨[], []⟩
      (.ask (.readReg (recvReg CBREG_CMD_GET_SIZE) 4 100) next) ⟨message.val, message.val⟩ :=
    ⟨_, .ask (.level _ 100 (.ok ⟨[16, 0, 0, 0], rfl⟩) (.inl rfl))
      (.ask (.received _ 16 100 message rfl)
        (.ask (.level _ 100 (.ok ⟨[64, 0, 0, 0], rfl⟩) (.inr rfl))
          (.ask (.accepted _ message.val 100) (.refl _ _))))⟩
  obtain ⟨next, hrun⟩ := hrun
  exact ⟨next, _, hrun, rfl, can_echo_exact.2.2 3 100 next _ hrun⟩

end McuRegWr
