import Mathlib.Algebra.Order.Ring.Int
import McuRegWr.Base.History
import McuRegWr.General.PpUart

/-!
# Reading from the serial port

`uart_Read` polls and reads until its buffer is full or nothing more comes. Whatever the kernel
answers, what is in the buffer are the bytes read so far, and every poll but the first comes after
a byte.
-/

namespace McuRegWr

open Base Prog

namespace Uart

/-- Whether an event is a poll. -/
def isPoll : SysI.Event → Bool
  | ⟨.poll _ _, _⟩ => true
  | _ => false

/-- The bytes an event takes from the stream. -/
def taken : SysI.Event → List UInt8
  | ⟨.read _ _, .ok bytes⟩ => bytes.val
  | _ => []

def polls (t : List SysI.Event) : Nat := t.countP isPoll

/-- The bytes taken from the stream, in order. -/
def consumed (t : List SysI.Event) : List UInt8 := t.flatMap taken

theorem polls_snoc (t : List SysI.Event) (e : SysI.Event) :
    polls (t ++ [e]) = polls t + if isPoll e then 1 else 0 := by
  rw [polls, List.countP_append, List.countP_singleton]
  rfl

theorem consumed_snoc (t : List SysI.Event) (e : SysI.Event) :
    consumed (t ++ [e]) = consumed t ++ taken e := by
  rw [consumed, List.flatMap_append, List.flatMap_singleton]
  rfl

/-- A timeout, an event that is not `POLLIN`, or the end of the stream. -/
def Stops : SysI.Event → Prop
  | ⟨.poll _ _, fdset⟩ => fdset.ret = 0 ∨ 0 < fdset.ret ∧ fdset.pollin = false
  | ⟨.read _ _, .ok bytes⟩ => bytes.val = []
  | _ => False

/-- There are no more polls than bytes in the buffer, and a read has room for all it asks for. -/
def Fits (buf_size : Nat) (h : List SysI.Event) : SysOp → Prop
  | .poll _ _ => polls h < buf_size
  | .read _ size => (consumed h).length + size ≤ buf_size
  | _ => True

/-- The buffer holds what was taken, and every poll has brought a byte. -/
structure Collected (buf_size : Nat) (data_buf : List UInt8) (h : List SysI.Event) : Prop where
  consumed_eq : data_buf = consumed h
  length_le : data_buf.length ≤ buf_size
  polls_le : polls h ≤ data_buf.length

/-- A result that is no error counts what was taken, and is less than asked for only when something
stopped the reading. -/
def Result (buf_size : Nat) (a : Int × List UInt8) (h : List SysI.Event) : Prop :=
  polls h ≤ buf_size ∧ (0 ≤ a.1 → a.2 = consumed h ∧ a.1 = a.2.length ∧
    (a.1 < buf_size → ∃ t e, h = t ++ [e] ∧ Stops e))

variable {buf_size : Nat} {data_buf : List UInt8} {h : List SysI.Event}

theorem Collected.nil : Collected buf_size [] [] := ⟨rfl, Nat.zero_le _, le_refl _⟩

theorem Collected.stop (hc : Collected buf_size data_buf h) {t : List SysI.Event} {e : SysI.Event}
    (ht : t = h ++ [e]) (htaken : consumed t = consumed h) (hpolls : polls t ≤ buf_size)
    (he : Stops e) : Result buf_size (data_buf.length, data_buf) t :=
  ⟨hpolls, fun _ => ⟨hc.consumed_eq.trans htaken.symm, rfl, fun _ => ⟨h, e, ht, he⟩⟩⟩

theorem wlp_readRound (fd timeout : Int) (hc : Collected buf_size data_buf h) :
    (readRound fd buf_size timeout data_buf).wlp recording (Fits buf_size)
      (Sum.elim (Collected buf_size) (Result buf_size)) h := by
  have hpolls := hc.polls_le
  simp only [readRound, Sys.poll, Sys.read, req_eq, ask_bind, done_bind]
  split
  · rename_i hroom
    refine wlp_recording (hpolls.trans_lt hroom) fun fdset => ?_
    have hpolled : polls (h ++ [⟨.poll fd timeout, fdset⟩]) ≤ data_buf.length + 1 := by
      rw [polls_snoc]
      exact Nat.add_le_add hpolls (le_refl 1)
    have hsame : consumed (h ++ [⟨.poll fd timeout, fdset⟩]) = consumed h := by
      rw [consumed_snoc]
      exact List.append_nil _
    dsimp only
    split
    · rename_i hneg
      exact ⟨hpolled.trans hroom, fun hpos => absurd hneg (not_lt.mpr hpos)⟩
    rename_i hneg
    split
    · rename_i hzero
      exact hc.stop rfl hsame (hpolled.trans hroom) (.inl hzero)
    rename_i hzero
    split
    · refine wlp_recording ?_ fun r => ?_
      · show (consumed (h ++ [⟨.poll fd timeout, fdset⟩])).length + (buf_size - data_buf.length) ≤
          buf_size
        rw [hsame, ← hc.consumed_eq]
        omega
      have hread : polls (h ++ [⟨.poll fd timeout, fdset⟩] ++
          [⟨.read fd (buf_size - data_buf.length), r⟩]) ≤ data_buf.length + 1 := by
        rw [polls_snoc]
        exact hpolled
      have htaken := consumed_snoc (h ++ [⟨.poll fd timeout, fdset⟩])
        ⟨.read fd (buf_size - data_buf.length), r⟩
      rw [hsame] at htaken
      cases r with
      | error rn => exact ⟨hread.trans hroom, fun hpos => absurd rn.property (not_lt.mpr hpos)⟩
      | ok bytes =>
          dsimp only
          split
          · rename_i hend
            refine ⟨hread.trans hroom, fun _ => ⟨?_, rfl, fun _ => ⟨_, _, rfl, hend⟩⟩⟩
            rw [htaken, taken, hend, List.append_nil]
            exact hc.consumed_eq
          · rename_i hsome
            have hbytes : 0 < bytes.val.length := List.length_pos_of_ne_nil hsome
            have hsize := bytes.property
            refine ⟨?_, ?_, hread.trans ?_⟩
            · rw [htaken, ← hc.consumed_eq]
              rfl
            · rw [List.length_append]
              omega
            · rw [List.length_append]
              omega
    · rename_i hother
      have hpos : 0 < fdset.ret := lt_of_le_of_ne (not_lt.mp hneg) (Ne.symm hzero)
      exact hc.stop rfl hsame (hpolled.trans hroom) (.inr ⟨hpos, by simpa using hother⟩)
  · rename_i hfull
    refine ⟨hpolls.trans hc.length_le, fun _ => ⟨hc.consumed_eq, rfl, fun hless => ?_⟩⟩
    exact absurd (Int.ofNat_lt.mp hless) hfull

theorem wlp_read (fd timeout : Int) :
    (read fd buf_size timeout).wlp recording (Fits buf_size) (Result buf_size) [] :=
  wlp_loop (Collected buf_size) (fun _ _ hc => wlp_readRound fd timeout hc) _ .nil

theorem polls_kept {o : SysOp} {r : SysI.Ans o} {t : List SysI.Event} (hh : polls h ≤ buf_size)
    (hguard : Fits buf_size h o) (answer : recording h o r t) : polls t ≤ buf_size := by
  obtain rfl := answer
  rw [polls_snoc]
  cases o with
  | poll fd timeout => exact hguard
  | _ => exact hh

theorem returns_read (fd timeout : Int) (buf_size : Nat) :
    (read fd buf_size timeout).Returns := by
  refine Yields.returns (P := fun _ => True) (yields_loop (fun b => buf_size - b.length) ?_ ?_)
  · intro data_buf
    simp only [readRound, Sys.poll, Sys.read, req_eq, ask_bind, done_bind]
    split
    · rename_i hroom
      intro fdset
      dsimp only
      split
      · trivial
      split
      · trivial
      split
      · intro r
        cases r with
        | error rn => trivial
        | ok bytes =>
            dsimp only
            split
            · trivial
            · rename_i hsome
              have hbytes : 0 < bytes.val.length := List.length_pos_of_ne_nil hsome
              show buf_size - (data_buf ++ bytes.val).length < buf_size - data_buf.length
              rw [List.length_append]
              omega
      · trivial
    · trivial
  · exact Nat.lt_succ_of_le (Nat.sub_le _ _)

/-- Whatever the kernel answers, `uart_Read` polls at most once a byte of its buffer, never asks for
more than there is room for, and returns; and a result that is no error counts the bytes taken from
the stream, which are in the buffer in their order, and falls short only behind a timeout, an event
that is not `POLLIN` or the end of the stream. -/
theorem read_collects (fd timeout : Int) (buf_size : Nat) :
    (∀ t q, Reach (read fd buf_size timeout) t q → polls t ≤ buf_size) ∧
    (∀ t size next, Reach (read fd buf_size timeout) t (.ask (.read fd size) next) →
      (consumed t).length + size ≤ buf_size) ∧
    (read fd buf_size timeout).Returns ∧
    ∀ t (n : Nat) data_buf, Runs (read fd buf_size timeout) t (n, data_buf) →
      data_buf = consumed t ∧ data_buf.length = n ∧
        (n < buf_size → ∃ t' e, t = t' ++ [e] ∧ Stops e) := by
  have hwlp := @wlp_read buf_size fd timeout
  refine ⟨fun t q run => ?_, fun t size next run => ?_, returns_read fd timeout buf_size,
    fun t n data_buf run => ?_⟩
  · exact Steps.invariant (K := fun t => polls t ≤ buf_size) polls_kept (steps_recording run [])
      hwlp (Nat.zero_le _)
  · exact wlp_guard hwlp (steps_recording run [])
  · obtain ⟨-, hresult⟩ := wlp_exec hwlp (steps_recording run [])
    obtain ⟨hconsumed, hlength, hshort⟩ := hresult (Int.natCast_nonneg n)
    refine ⟨hconsumed, Int.ofNat_inj.mp hlength.symm, fun hless => hshort ?_⟩
    exact Int.ofNat_lt.mpr hless

/-- Four bytes are asked for, three come in two reads, and then a timeout. -/
def threeOfFour : List SysI.Event := [
  ⟨.poll 3 100, ⟨1, true⟩⟩, ⟨.read 3 4, .ok ⟨[0x11], by decide⟩⟩,
  ⟨.poll 3 100, ⟨1, true⟩⟩, ⟨.read 3 3, .ok ⟨[0x22, 0x33], by decide⟩⟩,
  ⟨.poll 3 100, ⟨0, false⟩⟩]

theorem read_collects_threeOfFour :
    Runs (read 3 4 100) threeOfFour (3, [0x11, 0x22, 0x33]) ∧
      consumed threeOfFour = [0x11, 0x22, 0x33] ∧ polls threeOfFour ≤ 4 ∧
      ∃ t' e, threeOfFour = t' ++ [e] ∧ Stops e := by
  have hrun : Runs (read 3 4 100) threeOfFour (3, [0x11, 0x22, 0x33]) :=
    .ask (.ask (.ask (.ask (.ask (.refl _)))))
  obtain ⟨hpolls, -, -, hresult⟩ := read_collects 3 100 4
  obtain ⟨hconsumed, -, hshort⟩ := hresult threeOfFour 3 _ hrun
  exact ⟨hrun, hconsumed.symm, hpolls _ _ hrun, hshort (by decide)⟩

end Uart

end McuRegWr
