import McuRegWr.Proof.Transport.Frame

/-!
# A read is all or nothing

The three ways a call of `SpiReg_Read` ends: given up on the way, exchanged but with a checksum that
does not match, or accepted. Only the last writes the caller's buffer.
-/

namespace McuRegWr

open Base Prog

/-- The file lock was asked for once and obtained. -/
def LockObtained (t : List SysI.Event) : Prop := ∃ ret, flocks t = [ret] ∧ 0 ≤ ret

/-- Under the lock all three phases were acknowledged, and the data frame brought `rx`. -/
def Answered (t : List SysI.Event) (rx : List UInt8) : Prop :=
  LockObtained t ∧ ∃ tx_cmd tx_data, Exchanged tx_cmd tx_data t rx

theorem Answered.rx_eq {t : List SysI.Event} {rx rx' : List UInt8} (h : Answered t rx)
    (h' : Answered t rx') : rx = rx' := by
  obtain ⟨-, cmd, data, hex⟩ := h
  obtain ⟨-, cmd', data', hex'⟩ := h'
  exact hex.rx_eq hex'

/-- The received bytes carry the checksum a read of these registers expects. -/
def CrcMatches (reg_addr reg_cnt : UInt16) (rx : List UInt8) : Prop :=
  wordAt rx reg_cnt.toNat = frameCrc SPI_CMD_READ_REG reg_addr reg_cnt rx

/-- The three ends of a read, with the buffer it leaves. -/
inductive ReadEnd (reg_addr reg_cnt : UInt16) (reg_data : List UInt8) (t : List SysI.Event) :
    Int → List UInt8 → Prop where
  | givenUp {ret : Int} (hret : ret < 0) (hans : ∀ rx, ¬ Answered t rx) :
      ReadEnd reg_addr reg_cnt reg_data t ret reg_data
  | mismatch {rx : List UInt8} (hans : Answered t rx)
      (hlen : reg_cnt.toNat + 2 ≤ rx.length) (hcrc : ¬ CrcMatches reg_addr reg_cnt rx) :
      ReadEnd reg_addr reg_cnt reg_data t (-3) reg_data
  | accepted {rx : List UInt8} (hans : Answered t rx)
      (hlen : reg_cnt.toNat + 2 ≤ rx.length) (hcrc : CrcMatches reg_addr reg_cnt rx) :
      ReadEnd reg_addr reg_cnt reg_data t 0 (storeAt reg_data 0 (rx.take reg_cnt.toNat))

theorem not_answered_refused (h : SpiRegHandle) {ret : Int} (hret : ret < 0) (rx : List UInt8) :
    ¬ Answered (refusedTrace h ret) rx := by
  rintro ⟨⟨ret', hflock, hret'⟩, -⟩
  obtain rfl : ret = ret' := List.singleton_inj.mp hflock
  omega

theorem answered_locked {h : SpiRegHandle} {ret : Int} {t : List SysI.Event} {unlock : Int}
    {rx : List UInt8} (hret : 0 ≤ ret) (hquiet : ∀ e ∈ t, Unlocked e) :
    Answered (lockedTrace h ret t unlock) rx ↔
      ∃ tx_cmd tx_data, Exchanged tx_cmd tx_data t rx := by
  simp only [Answered, LockObtained, flocks_lockedTrace h ret unlock hquiet, Exchanged,
    phases_lockedTrace]
  exact and_iff_right ⟨ret, rfl, hret⟩

/-- What the comparison at the end of a read amounts to, in the bytes of the data frame. -/
theorem crc_matches_iff {reg_addr reg_cnt : UInt16} {rx rx_buf : List UInt8}
    (hlen : reg_cnt.toNat + 2 ≤ rx.length) (htake : rx_buf.take rx.length = rx) :
    readCrcFound reg_cnt rx_buf = readCrc reg_addr reg_cnt rx_buf ↔
      CrcMatches reg_addr reg_cnt rx := by
  have hbuf : rx.length ≤ rx_buf.length := by
    have := congrArg List.length htake
    rw [List.length_take] at this
    omega
  rw [readCrcFound_eq (by omega), readCrc_eq, CrcMatches, ← wordAt_take hlen, htake,
    ← frameCrc_take _ _ _ (show reg_cnt.toNat ≤ rx.length by omega), htake]

theorem runs_readBody {h : SpiRegHandle} {reg_addr reg_cnt : UInt16} {reg_data : List UInt8}
    {timeout : UInt32} (hcnt : reg_cnt.toNat ≤ 1022) {t : List SysI.Event} {ret : Int}
    {reg_data' : List UInt8} {lock unlock : Int} (hlock : 0 ≤ lock)
    (hrun : Runs (SpiReg.readBody h reg_addr reg_cnt reg_data timeout) t (ret, reg_data')) :
    (∀ e ∈ t, Unlocked e) ∧
      ReadEnd reg_addr reg_cnt reg_data (lockedTrace h lock t unlock) ret reg_data' := by
  rw [readBody_eq] at hrun
  obtain ⟨res, t₁, t₂, rfl, hex, run⟩ := runs_bind.mp hrun
  obtain ⟨hquiet, hres⟩ := runs_exchange hex
  cases res with
  | error ret' =>
      obtain ⟨rfl, heq⟩ := runs_pure.mp run
      obtain ⟨rfl, rfl⟩ := Prod.mk.inj heq
      rw [List.append_nil]
      refine ⟨hquiet, .givenUp hres.1 fun rx hans => ?_⟩
      obtain ⟨cmd, data, hex⟩ := (answered_locked hlock hquiet).mp hans
      exact hres.2 cmd data rx hex
  | ok pair =>
      obtain ⟨ret', rx_buf⟩ := pair
      obtain ⟨-, rx, hex, hlen, htake⟩ := hres
      rw [List.length_take, length_commandBuf, Nat.min_eq_left (transLength_le hcnt)] at hlen
      have hle := le_transLength reg_cnt
      rw [← hlen] at hle
      have hdata : rx_buf.take reg_cnt.toNat = rx.take reg_cnt.toNat := by
        have hn : min reg_cnt.toNat rx.length = reg_cnt.toNat := Nat.min_eq_left (by omega)
        calc rx_buf.take reg_cnt.toNat = (rx_buf.take rx.length).take reg_cnt.toNat := by
              rw [List.take_take, hn]
          _ = rx.take reg_cnt.toNat := by rw [htake]
      dsimp only at run
      by_cases hcrc : readCrcFound reg_cnt rx_buf = readCrc reg_addr reg_cnt rx_buf
      · rw [if_pos hcrc, runs_pure] at run
        obtain ⟨rfl, heq⟩ := run
        obtain ⟨rfl, rfl⟩ := Prod.mk.inj heq
        rw [List.append_nil, hdata]
        exact ⟨hquiet, .accepted ((answered_locked hlock hquiet).mpr ⟨_, _, hex⟩) hle
          ((crc_matches_iff hle htake).mp hcrc)⟩
      · rw [if_neg hcrc, runs_pure] at run
        obtain ⟨rfl, heq⟩ := run
        obtain ⟨rfl, rfl⟩ := Prod.mk.inj heq
        rw [List.append_nil]
        exact ⟨hquiet, .mismatch ((answered_locked hlock hquiet).mpr ⟨_, _, hex⟩) hle
          fun hmatch => hcrc ((crc_matches_iff hle htake).mpr hmatch)⟩

theorem runs_read {h : SpiRegHandle} {reg_addr reg_cnt : UInt16} {reg_data : List UInt8}
    {timeout : UInt32} (hcnt : reg_cnt.toNat ≤ 1022) {t : List SysI.Event} {ret : Int}
    {reg_data' : List UInt8}
    (hrun : Runs (SpiReg.read (some h) reg_addr reg_cnt reg_data timeout) t (ret, reg_data')) :
    Locks.after ⟨false, false⟩ t = some ⟨false, false⟩ ∧
      ReadEnd reg_addr reg_cnt reg_data t ret reg_data' := by
  obtain ⟨lock, hcase⟩ := runs_locked hrun
  rcases hcase with ⟨hlock, rfl, heq⟩ | ⟨hlock, u, unlock, rfl, hbody⟩
  · obtain ⟨rfl, rfl⟩ := Prod.mk.inj heq
    exact ⟨after_refusedTrace h hlock, .givenUp hlock (not_answered_refused h hlock)⟩
  · obtain ⟨hquiet, hend⟩ := runs_readBody hcnt hlock hbody
    exact ⟨after_lockedTrace h unlock hlock hquiet, hend⟩

/-- An answer without the expected checksum is refused. -/
theorem refused_of_mismatch {h : SpiRegHandle} {reg_addr reg_cnt : UInt16}
    {reg_data : List UInt8} {timeout : UInt32} (hcnt : reg_cnt.toNat ≤ 1022)
    {t : List SysI.Event} {ret : Int} {reg_data' rx : List UInt8}
    (hrun : Runs (SpiReg.read (some h) reg_addr reg_cnt reg_data timeout) t (ret, reg_data'))
    (hans : Answered t rx) (hmiss : ¬ CrcMatches reg_addr reg_cnt rx) :
    ret = -3 ∧ reg_data' = reg_data := by
  obtain ⟨-, hend⟩ := runs_read hcnt hrun
  cases hend with
  | givenUp hret hnone => exact absurd hans (hnone rx)
  | mismatch => exact ⟨rfl, rfl⟩
  | accepted hans' hle hcrc =>
      rw [hans'.rx_eq hans] at hcrc
      exact absurd hcrc hmiss

/-- An MCU that acknowledges everything and answers every transfer with the same bytes. -/
def ackingMcu (answer : List UInt8) : Unit → (o : SysOp) → SysOp.Ans o × Unit
  | _, .mutexLock => ((), ())
  | _, .mutexUnlock => ((), ())
  | _, .flock _ _ => (0, ())
  | _, .tcflush _ => ((), ())
  | _, .write _ data => (data.length, ())
  | _, .poll _ _ => (⟨1, true⟩, ())
  | _, .read _ size => (.ok ⟨[SPI_ACK].take size, List.length_take_le ..⟩, ())
  | _, .spiMessage _ tx =>
      (⟨tx.length, (answer ++ List.replicate tx.length 0xff).take tx.length, by simp⟩, ())

theorem storeAt_zero_take {reg_data rx : List UInt8} {n : Nat} (h : n ≤ rx.length) :
    storeAt reg_data 0 (rx.take n) = rx.take n ++ reg_data.drop n := by
  have hlen : (rx.take n).length = n := by
    rw [List.length_take, Nat.min_eq_left h]
  rw [storeAt, hlen, Nat.zero_add]
  rfl

/-- A read returns 0 exactly if the lock was obtained, every phase was acknowledged and the checksum
matches, and then the buffer starts with the received bytes. Otherwise it returns a negative value
and leaves the buffer. On every path each lock taken is released once. -/
theorem SpiReg.read_all_or_nothing (h : SpiRegHandle) (reg_addr reg_cnt : UInt16)
    (reg_data : List UInt8) (timeout : UInt32) (hcnt : reg_cnt.toNat ≤ 1022) :
    (SpiReg.read (some h) reg_addr reg_cnt reg_data timeout).Returns ∧
    ∀ t ret reg_data',
      Runs (SpiReg.read (some h) reg_addr reg_cnt reg_data timeout) t (ret, reg_data') →
      (ret = 0 ↔ ∃ rx, Answered t rx ∧ CrcMatches reg_addr reg_cnt rx) ∧
      (ret = 0 → ∃ rx, Answered t rx ∧ reg_cnt.toNat + 2 ≤ rx.length ∧
        reg_data' = rx.take reg_cnt.toNat ++ reg_data.drop reg_cnt.toNat) ∧
      (ret ≠ 0 → ret < 0 ∧ reg_data' = reg_data) ∧
      Locks.after ⟨false, false⟩ t = some ⟨false, false⟩ := by
  refine ⟨returns_read h reg_addr reg_cnt reg_data timeout, fun t ret reg_data' hrun => ?_⟩
  obtain ⟨hlocks, hend⟩ := runs_read hcnt hrun
  cases hend with
  | givenUp hret hans =>
      have hne : ret ≠ 0 := by omega
      exact ⟨⟨fun h0 => absurd h0 hne, fun ⟨rx, hrx, _⟩ => absurd hrx (hans rx)⟩,
        fun h0 => absurd h0 hne, fun _ => ⟨hret, rfl⟩, hlocks⟩
  | mismatch hans hlen hcrc =>
      have hne : (-3 : Int) ≠ 0 := by decide
      refine ⟨⟨fun h0 => absurd h0 hne, fun ⟨rx, hrx, hmatch⟩ => ?_⟩, fun h0 => absurd h0 hne,
        fun _ => ⟨by decide, rfl⟩, hlocks⟩
      rw [hrx.rx_eq hans] at hmatch
      exact absurd hmatch hcrc
  | accepted hans hlen hcrc =>
      exact ⟨⟨fun _ => ⟨_, hans, hcrc⟩, fun _ => rfl⟩,
        fun _ => ⟨_, hans, hlen, storeAt_zero_take (by omega)⟩, fun h0 => absurd rfl h0, hlocks⟩

theorem SpiReg.read_all_or_nothing_online_cnt :
    ∃ t, Runs (SpiReg.read (some ⟨3, 4, 5⟩) 0x1011 1 [0x00] 100) t (0, [0x2a]) ∧
      ((0 : Int) = 0 ↔ ∃ rx, Answered t rx ∧ CrcMatches 0x1011 1 rx) ∧
      Locks.after ⟨false, false⟩ t = some ⟨false, false⟩ := by
  have heval : ((SpiReg.read (some ⟨3, 4, 5⟩) 0x1011 1 [0x00] 100).eval
      (ackingMcu [0x2a, 0x98, 0x44]) ()) = some ((0, [0x2a]), ()) := by decide +kernel
  have hruns := runs_traceOf heval
  have hspec := (SpiReg.read_all_or_nothing ⟨3, 4, 5⟩ 0x1011 1 [0x00] 100 (by decide)).2 _ _ _ hruns
  exact ⟨_, hruns, hspec.1, hspec.2.2.2⟩

end McuRegWr
