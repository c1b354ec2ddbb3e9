import Mathlib.Algebra.Order.Field.Rat
import Mathlib.Tactic.Ring
import McuRegWr.CanMsg
import McuRegWr.Proof.Ring.Can

/-!
# Times of received CAN messages

A message carries the low 16 bits of its time in milliseconds. The receive loop adds up the
differences, each modulo `2 ^ 16`, so that what it prints follows the true times as long as no gap is
a full turn of the counter. How the messages come in blocks does not matter.
-/

namespace McuRegWr

open Base Prog

/-! ### The counter -/

theorem toNat_sub_of_gap {x y : UInt16} {a b : Nat} (hx : x.toNat = a % 65536)
    (hy : y.toNat = b % 65536) (hle : a ≤ b) (hgap : b < a + 65536) : (y - x).toNat = b - a := by
  rw [UInt16.toNat_sub, hx, hy]
  omega

/-- The true times of some messages: none goes back, none leaves a gap of a full turn, and each
message carries the low bits of its own. -/
structure Stamped (t : Nat → Nat) (msgs : List PCanMsg) : Prop where
  le : ∀ n, n + 1 < msgs.length → t n ≤ t (n + 1)
  gap : ∀ n, n + 1 < msgs.length → t (n + 1) < t n + 65536
  time : ∀ n (h : n < msgs.length), msgs[n].can_time.toNat = t n % 65536

/-- The time of message `n` since the first, in seconds, and a microsecond for each message. -/
def relTime (t : Nat → Nat) (n : Nat) : Rat := ((t n : Rat) - t 0) / 1000 + n * (1 / 1000000)

/-- The lines that are no error lines. -/
def infoLines (lines : List DbgLine) : List DbgLine :=
  lines.filter fun line => line.level = .DBG_INFO

/-- The lines of messages with their exact times. -/
def timedLines (t : Nat → Nat) (msgs : List PCanMsg) : List DbgLine :=
  msgs.mapIdx fun n msg => msg.ascLine (relTime t n)

/-- The state of the loop after the messages `msgs`. -/
structure Shown (t : Nat → Nat) (msgs : List PCanMsg) (b : CanReceive) : Prop where
  is_once : b.is_once = msgs.isEmpty
  last : ∀ n (h : n < msgs.length), n + 1 = msgs.length →
    b.last_rtime = msgs[n].can_time ∧ b.rtime = relTime t n
  lines : infoLines b.lines = timedLines t msgs

variable {t : Nat → Nat} {msgs : List PCanMsg} {b : CanReceive}

theorem Stamped.left {more : List PCanMsg} (h : Stamped t (msgs ++ more)) : Stamped t msgs := by
  have hlen : msgs.length ≤ (msgs ++ more).length := by simp
  refine ⟨fun n hn => h.le n (by omega), fun n hn => h.gap n (by omega), fun n hn => ?_⟩
  have htime := h.time n (by omega)
  rwa [List.getElem_append_left hn] at htime

theorem relTime_zero (t : Nat → Nat) : relTime t 0 = 0 := by
  simp [relTime]

/-- The time advances by the difference of the counter and a microsecond. -/
theorem relTime_succ (t : Nat → Nat) {n : Nat} (hle : t n ≤ t (n + 1)) :
    relTime t (n + 1) = relTime t n + (((t (n + 1) - t n : Nat) : Rat) / 1000 + 1 / 1000000) := by
  rw [relTime, relTime, Nat.cast_sub hle, Nat.cast_succ]
  ring

theorem infoLines_print_asc (b : CanReceive) (msg : PCanMsg) (rtime : Rat) :
    infoLines (b.print (msg.ascLine rtime)).lines =
      infoLines b.lines ++ [msg.ascLine rtime] := by
  rw [CanReceive.print, infoLines, List.filter_append]
  rfl

theorem Shown.next (h : Shown t msgs b) {msg : PCanMsg} (stamped : Stamped t (msgs ++ [msg])) :
    (if b.is_once then 0
      else b.rtime + (((msg.can_time - b.last_rtime).toNat : Rat) / 1000 + 1 / 1000000)) =
      relTime t msgs.length := by
  cases hlen : msgs.length with
  | zero =>
      rw [h.is_once, List.length_eq_zero_iff.mp hlen]
      exact (relTime_zero t).symm
  | succ n =>
      have hlast : n < msgs.length := by omega
      have hmsg : n + 1 < (msgs ++ [msg]).length := by simp [hlen]
      obtain ⟨htime, hrtime⟩ := h.last n hlast hlen.symm
      have honce : b.is_once = false := by
        rw [h.is_once, List.isEmpty_eq_false_iff]
        exact List.ne_nil_of_length_pos (by omega)
      have hx : b.last_rtime.toNat = t n % 65536 := by
        rw [htime]
        exact stamped.left.time n hlast
      have hy : msg.can_time.toNat = t (n + 1) % 65536 := by
        rw [← stamped.time (n + 1) hmsg, List.getElem_concat_length hlen.symm]
      have hle := stamped.le n hmsg
      have hgap := stamped.gap n hmsg
      rw [honce, hrtime, toNat_sub_of_gap hx hy hle hgap, relTime_succ t hle]
      rfl

theorem Shown.error (h : Shown t msgs b) (can_msg : List UInt8) (line : Nat) (ret : Int) :
    Shown t msgs (CanReceive.print { b with can_msg := can_msg } (dbgErrfl
      "fun_loop_receive_can_msg" line "RVMcu_ReceiveCanMsgBlock error! ret = %d" [.int ret])) := by
  refine ⟨h.is_once, h.last, ?_⟩
  rw [CanReceive.print, infoLines, List.filter_append]
  exact (List.append_nil _).trans h.lines

theorem Shown.step (h : Shown t msgs b) {msg : PCanMsg} (stamped : Stamped t (msgs ++ [msg])) :
    Shown t (msgs ++ [msg]) (b.showMsg true msg) := by
  have hnext := h.next stamped
  simp only [CanReceive.showMsg, if_true, hnext]
  refine ⟨?_, fun n hn hlast => ?_, ?_⟩
  · simp [CanReceive.print]
  · obtain rfl : n = msgs.length := by simpa using hlast
    rw [List.getElem_concat_length rfl]
    exact ⟨rfl, rfl⟩
  · rw [infoLines_print_asc, timedLines, List.mapIdx_concat]
    exact congrArg (· ++ _) h.lines

/-- The whole messages of some bytes. -/
def canMsgs (data : List UInt8) : List PCanMsg :=
  (List.range (data.length / msgSize)).map fun i => .ofBytes (data.drop (msgSize * i))

/-- The loop is at its head with whole messages received, and has shown them if they are stamped. -/
structure Receiving (t : Nat → Nat) (b : CanReceive) (s : List UInt8) : Prop where
  aligned : ∃ k, s.length = msgSize * k
  shown : Stamped t (canMsgs s) → Shown t (canMsgs s) b

end McuRegWr
