import McuRegWr.SpiRegInit

/-!
# What the set-up leaves open

Every step of the set-up either adds one descriptor to those the process holds or leaves them as
they are, and the labels at its end give back what was taken so far. What they cannot repair is the
result: a serial port that fails to open leaves `ret` as the last request to the SPI device set it.
-/

namespace McuRegWr

open Base Prog

/-! ### The serial port -/

namespace Uart

variable {fds : FdTable}

theorem wlp_setSpeedFrom (fd : Int) (speed : Nat) (opt : Termios) (tab : List (Nat × Baud)) :
    (setSpeedFrom fd speed opt tab).wlp Tty.world (fun _ _ => True) (fun _ t => t = fds) fds := by
  induction tab with
  | nil => rfl
  | cons entry rest ih =>
      obtain ⟨baudRate, baud⟩ := entry
      simp only [setSpeedFrom, Tty.tcflush, Tty.tcsetattr, req_eq, ask_bind, done_bind]
      split
      · refine ⟨trivial, fun _ t ht => ⟨trivial, fun status u hu => ?_⟩⟩
        obtain rfl := ht
        obtain rfl := hu
        dsimp only
        split
        · rfl
        · rfl
      · refine ⟨trivial, fun _ t ht => ?_⟩
        obtain rfl := ht
        exact ih

theorem wlp_setSpeed (fd : Int) (speed : Nat) :
    (setSpeed fd speed).wlp Tty.world (fun _ _ => True) (fun _ t => t = fds) fds := by
  refine ⟨trivial, fun ans t ht => ?_⟩
  obtain rfl := ht
  exact wlp_setSpeedFrom fd speed ans.opt speedTab

theorem wlp_setParity (fd : Int) (databits stopbits : Nat) (parity : Char) :
    (setParity fd databits stopbits parity).wlp Tty.world (fun _ _ => True) (fun _ t => t = fds)
      fds := by
  simp only [setParity, Tty.tcgetattr, Tty.tcflush, Tty.tcsetattr, req_eq, ask_bind, done_bind]
  refine ⟨trivial, fun ans t ht => ?_⟩
  obtain rfl := ht
  dsimp only
  split
  · rfl
  split
  · rfl
  refine ⟨trivial, fun _ t ht => ⟨trivial, fun ret u hu => ?_⟩⟩
  obtain rfl := ht
  obtain rfl := hu
  dsimp only
  split
  · rfl
  · rfl

/-- `uart_Open` is answered as an open is: a descriptor of its own, or a negative value and nothing
left open. -/
theorem wlp_openPort (uart_name : List Char) (speed databits stopbits : Nat) (parity : Char) :
    (openPort uart_name speed databits stopbits parity).wlp Tty.world (fun _ _ => True)
      (fun fd t => fds.Opens fd t) fds := by
  simp only [openPort, Tty.openPath, Tty.close, req_eq, ask_bind, done_bind]
  refine ⟨trivial, fun fd t hopen => ?_⟩
  dsimp only
  split
  · rename_i hneg
    refine .inr ⟨by decide, ?_⟩
    rcases hopen with ⟨hpos, -⟩ | ⟨-, hsame⟩
    · exact absurd hneg (not_lt.mpr hpos)
    · exact hsame
  rename_i hpos
  have hopened : 0 ≤ fd ∧ fds fd = .closed ∧ t = fds.set fd .opened :=
    hopen.resolve_right fun h => hpos h.1
  have hclosed : t.set fd .closed = fds := by
    rw [hopened.2.2, FdTable.set_set, FdTable.set_closed hopened.2.1]
  simp only [wlp_bind]
  refine wlp_conseq (wlp_setSpeed fd speed) fun ret u hu => ?_
  obtain rfl := hu
  split
  · refine ⟨trivial, fun _ v hv => .inr ⟨by decide, ?_⟩⟩
    exact hv.trans hclosed
  simp only [wlp_bind]
  refine wlp_conseq (wlp_setParity fd databits stopbits parity) fun ret v hv => ?_
  obtain rfl := hv
  split
  · refine ⟨trivial, fun _ v hv => .inr ⟨by decide, ?_⟩⟩
    exact hv.trans hclosed
  · exact hopen

end Uart

/-! ### The set-up -/

/-- The descriptors of the process, and the steps of the set-up that failed so far. -/
structure InitState where
  fds : FdTable
  failed : List InitOp

/-- The failed steps after `o` was answered by `ret`. -/
def InitState.note (s : InitState) (o : InitOp) (ret : Int) : List InitOp :=
  if ret < 0 then s.failed ++ [o] else s.failed

theorem InitState.note_of_neg {s : InitState} {o : InitOp} {ret : Int} (h : ret < 0) :
    s.note o ret = s.failed ++ [o] :=
  if_pos h

theorem InitState.note_of_not_neg {s : InitState} {o : InitOp} {ret : Int} (h : ¬ ret < 0) :
    s.note o ret = s.failed :=
  if_neg h

/-- Every step can succeed or fail. The answers of `uart_Open` are those of its code. -/
def initWorld : World InitI InitState
  | s, .openPath path flags, fd, s' =>
      s.fds.Opens fd s'.fds ∧ s'.failed = s.note (.openPath path flags) fd
  | s, .close fd, _, s' => s'.fds = s.fds.set fd .closed ∧ s'.failed = s.failed
  | s, .flock fd .LOCK_EX, ret, s' =>
      s.fds.Locks fd ret s'.fds ∧ s'.failed = s.note (.flock fd .LOCK_EX) ret
  | s, .flock fd .LOCK_UN, ret, s' => s.fds.Unlocks fd ret s'.fds ∧ s'.failed = s.failed
  | s, .ioctl fd request, ret, s' => s'.fds = s.fds ∧ s'.failed = s.note (.ioctl fd request) ret
  | s, .uartOpen uart_name speed databits stopbits parity, fd, s' =>
      Exec Tty.world (Uart.openPort uart_name speed databits stopbits parity) s.fds fd s'.fds ∧
        s'.failed = s.note (.uartOpen uart_name speed databits stopbits parity) fd
  | s, .mutexInit, _, s' => s' = s

/-- The set-up succeeds with the three descriptors open when no step failed, and else fails with
nothing more open or locked than before. -/
def AllOrNothing (fds : FdTable) (ret : Int) (h : SpiRegDevice) (s : InitState) : Prop :=
  (ret = 0 ↔ s.failed = []) ∧
  (s.failed = [] →
    s.fds h.lock_fd ≠ .closed ∧ s.fds h.fd ≠ .closed ∧ s.fds h.uart_fd ≠ .closed) ∧
  (s.failed ≠ [] → ret < 0 ∧ s.fds = fds)

/-- The step that opens the serial port. -/
def uartStep (uart_dev : List Char) : InitOp :=
  .uartOpen (basename uart_dev).2 UART_SPEED 8 1 'N'

/-- What the set-up comes to. -/
inductive InitOutcome (fds : FdTable) (uart_dev : List Char) :
    Int × SpiRegDevice → InitState → Prop
  | done {h : SpiRegDevice} {s : InitState} (hfailed : s.failed = [])
      (hlock : s.fds h.lock_fd ≠ .closed) (hspi : s.fds h.fd ≠ .closed)
      (huart : s.fds h.uart_fd ≠ .closed) : InitOutcome fds uart_dev (0, h) s
  | failed {h : SpiRegDevice} {s : InitState} {ret : Int} {o : InitOp} (hret : ret < 0)
      (ho : o ≠ uartStep uart_dev) (hfds : s.fds = fds) (hfailed : s.failed = [o]) :
      InitOutcome fds uart_dev (ret, h) s
  | uartFailed {h : SpiRegDevice} {s : InitState} {ret : Int} (hret : 0 ≤ ret)
      (hfds : s.fds = fds) (hfailed : s.failed = [uartStep uart_dev]) :
      InitOutcome fds uart_dev (ret, h) s

namespace SpiReg

variable {fds : FdTable} {s : InitState} {h : SpiRegDevice} {lock_fd fd ret : Int}
  {Q : Int × SpiRegDevice → InitState → Prop}

abbrev anyInit : InitState → InitOp → Prop := fun _ _ => True

theorem wlp_openSpiError (hlock : h.lock_fd = lock_fd) (hfds : s.fds.set lock_fd .closed = fds)
    (hQ : ∀ s', s'.fds = fds → s'.failed = s.failed → Q (ret, h) s') :
    (openSpiError h lock_fd ret).wlp initWorld anyInit Q s := by
  simp only [openSpiError, Init.flock, Init.close, req_eq, ask_bind, done_bind]
  refine ⟨trivial, fun _ t ⟨hunlock, ht⟩ => ⟨trivial, fun _ u ⟨hclose, hu⟩ => ?_⟩⟩
  rw [hlock] at hunlock
  exact hQ u (by rw [hclose, hunlock.set, hfds]) (hu.trans ht)

theorem wlp_ioctlError (hlock : h.lock_fd = lock_fd)
    (hfds : (s.fds.set fd .closed).set lock_fd .closed = fds)
    (hQ : ∀ s', s'.fds = fds → s'.failed = s.failed → Q (ret, h) s') :
    (ioctlError h lock_fd fd ret).wlp initWorld anyInit Q s := by
  simp only [ioctlError, Init.close, req_eq, ask_bind, done_bind]
  refine ⟨trivial, fun _ t ⟨hclose, ht⟩ => ?_⟩
  refine wlp_openSpiError hlock (by rw [hclose, hfds]) fun s' hs' hfailed => ?_
  exact hQ s' hs' (hfailed.trans ht)

/-- A request to the SPI device goes on with everything as it was, or gives all of it back. -/
theorem wlp_ioctlStep {held : FdTable} {uart_dev : List Char} {request : SpiIoc}
    {next : Int → Prog InitI (Int × SpiRegDevice)} (hlock : h.lock_fd = lock_fd)
    (hgive : (held.set fd .closed).set lock_fd .closed = fds) (hheld : s.fds = held)
    (hnone : s.failed = [])
    (hnext : ∀ ret s', ¬ ret < 0 → s'.fds = held → s'.failed = [] →
      (next ret).wlp initWorld anyInit (InitOutcome fds uart_dev) s') :
    (@Prog.ask InitI _ (.ioctl fd request) fun ret =>
      if ret < 0 then ioctlError h lock_fd fd ret else next ret).wlp initWorld anyInit
        (InitOutcome fds uart_dev) s := by
  refine ⟨trivial, fun ret t ⟨hfds, ht⟩ => ?_⟩
  dsimp only
  split
  · rename_i hneg
    rw [InitState.note_of_neg hneg, hnone] at ht
    refine wlp_ioctlError hlock (by rw [hfds, hheld, hgive]) fun s' hs' hfailed => ?_
    exact .failed hneg (by simp [uartStep]) hs' (hfailed.trans ht)
  · rename_i hpos
    rw [InitState.note_of_not_neg hpos, hnone] at ht
    exact hnext ret t hpos (hfds.trans hheld) ht

theorem wlp_init (spi_dev uart_dev : List Char) (spi_speed : UInt32) :
    (init h spi_dev uart_dev spi_speed).wlp initWorld anyInit (InitOutcome fds uart_dev)
      ⟨fds, []⟩ := by
  simp only [init, Init.openPath, Init.flock, Init.ioctl, Init.uartOpen, Init.mutexInit, Init.close,
    req_eq, ask_bind, done_bind]
  refine ⟨trivial, fun lock_fd s₁ ⟨hopen, hs₁⟩ => ?_⟩
  dsimp only
  split
  · rename_i hneg
    rw [InitState.note_of_neg hneg] at hs₁
    exact .failed hneg (by simp [uartStep]) (hopen.of_neg hneg) hs₁
  rename_i hlock
  obtain ⟨hfree, hs₁fds⟩ := hopen.of_not_neg hlock
  rw [InitState.note_of_not_neg hlock] at hs₁
  refine ⟨trivial, fun ret s₂ ⟨hflock, hs₂⟩ => ?_⟩
  dsimp only
  split
  · rename_i hneg
    rw [InitState.note_of_neg hneg, hs₁] at hs₂
    refine ⟨trivial, fun _ s₃ ⟨hclose, hs₃⟩ => ?_⟩
    refine .failed hneg (by simp [uartStep]) ?_ (hs₃.trans hs₂)
    rw [hclose, hflock.of_neg hneg, hs₁fds, FdTable.set_set, FdTable.set_closed hfree]
  rename_i hlocked
  have hs₂fds := hflock.of_not_neg hlocked
  rw [hs₁fds, FdTable.set_set] at hs₂fds
  rw [InitState.note_of_not_neg hlocked, hs₁] at hs₂
  refine ⟨trivial, fun fd s₃ ⟨hspi, hs₃⟩ => ?_⟩
  dsimp only
  split
  · rename_i hneg
    rw [InitState.note_of_neg hneg, hs₂] at hs₃
    have hback : s₃.fds.set lock_fd .closed = fds := by
      rw [hspi.of_neg hneg, hs₂fds, FdTable.set_set, FdTable.set_closed hfree]
    refine wlp_openSpiError rfl hback fun s' hfds hfailed => ?_
    exact .failed hneg (by simp [uartStep]) hfds (hfailed.trans hs₃)
  rename_i hfd
  obtain ⟨hfdfree, hs₃fds⟩ := hspi.of_not_neg hfd
  rw [InitState.note_of_not_neg hfd, hs₂] at hs₃
  have hgive : (s₃.fds.set fd .closed).set lock_fd .closed = fds := by
    rw [hs₃fds, FdTable.set_set, FdTable.set_closed hfdfree, hs₂fds, FdTable.set_set,
      FdTable.set_closed hfree]
  refine wlp_ioctlStep rfl hgive rfl hs₃ fun _ s₄ _ hs₄fds hs₄ => ?_
  refine wlp_ioctlStep rfl hgive hs₄fds hs₄ fun _ s₅ _ hs₅fds hs₅ => ?_
  refine wlp_ioctlStep rfl hgive hs₅fds hs₅ fun _ s₆ _ hs₆fds hs₆ => ?_
  refine wlp_ioctlStep rfl hgive hs₆fds hs₆ fun ret s₇ hret hs₇fds hs₇ => ?_
  refine ⟨trivial, fun uart_fd s₈ ⟨hopened, hs₈⟩ => ?_⟩
  have huart : s₇.fds.Opens uart_fd s₈.fds := wlp_exec (Uart.wlp_openPort ..) hopened
  dsimp only
  split
  · rename_i hneg
    rw [InitState.note_of_neg hneg, hs₇] at hs₈
    -- `ret` still holds the result of the last request
    refine wlp_ioctlError rfl (by rw [huart.of_neg hneg, hs₇fds, hgive]) fun s' hfds hfailed => ?_
    exact .uartFailed (not_lt.mp hret) hfds (hfailed.trans hs₈)
  rename_i hpos
  rw [InitState.note_of_not_neg hpos, hs₇] at hs₈
  refine ⟨trivial, fun _ s₉ hs₉ => ⟨trivial, fun _ t ⟨hunlock, ht⟩ => ?_⟩⟩
  obtain rfl := hs₉
  have hfds : s₉.fds = ((fds.set lock_fd .locked).set fd .opened).set uart_fd .opened := by
    rw [(huart.of_not_neg hpos).2, hs₇fds, hs₃fds, hs₂fds]
  have hkept {x : Int} (hx : s₉.fds x ≠ .closed) : t.fds x ≠ .closed := hunlock.ne_closed hx
  refine .done (ht.trans hs₈) (hkept ?_) (hkept ?_) (hkept ?_)
  · rw [hfds]
    refine FdTable.set_ne_closed (FdTable.set_ne_closed ?_ (by decide)) (by decide)
    rw [FdTable.set_same]
    decide
  · rw [hfds]
    refine FdTable.set_ne_closed ?_ (by decide)
    rw [FdTable.set_same]
    decide
  · rw [hfds, FdTable.set_same]
    decide

/-- The set-up is all or nothing in every run in which the serial port does not fail to open, and in
no other. -/
theorem init_allOrNothing_iff {spi_dev uart_dev : List Char} {spi_speed : UInt32}
    {h' : SpiRegDevice} (hrun : Exec initWorld (init h spi_dev uart_dev spi_speed) ⟨fds, []⟩
      (ret, h') s) : AllOrNothing fds ret h' s ↔ uartStep uart_dev ∉ s.failed := by
  have hout : InitOutcome fds uart_dev (ret, h') s := wlp_exec (wlp_init ..) hrun
  cases hout with
  | done hfailed hlock hspi huart =>
      refine iff_of_true ⟨iff_of_true rfl hfailed, fun _ => ⟨hlock, hspi, huart⟩, ?_⟩ ?_
      · exact fun hsome => absurd hfailed hsome
      · rw [hfailed]
        exact List.not_mem_nil
  | failed hret ho hfds hfailed =>
      have hsome : s.failed ≠ [] := by
        rw [hfailed]
        exact List.cons_ne_nil _ _
      refine iff_of_true ⟨iff_of_false hret.ne hsome, fun hnone => absurd hnone hsome, ?_⟩ ?_
      · exact fun _ => ⟨hret, hfds⟩
      · rw [hfailed, List.mem_singleton]
        exact ho.symm
  | uartFailed hret hfds hfailed =>
      have hsome : s.failed ≠ [] := by
        rw [hfailed]
        exact List.cons_ne_nil _ _
      refine iff_of_false (fun hall => ?_) ?_
      · exact absurd (hall.2.2 hsome).1 (not_lt.mpr hret)
      · rw [hfailed, not_not, List.mem_singleton]

/-! ### A kernel that answers -/

/-- A serial port that takes every setting and is given number 5. -/
def port (fds : FdTable) : (o : TtyOp) → TtyOp.Ans o × FdTable
  | .openPath _ _ => if fds 5 = .closed then (5, fds.set 5 .opened) else (-1, fds)
  | .close fd => ((), fds.set fd .closed)
  | .tcgetattr _ => (⟨0, ⟨0, 0, 0, 0, .B9600, .B9600⟩⟩, fds)
  | .tcsetattr _ _ => (0, fds)
  | .tcflush _ _ => ((), fds)

theorem world_port (fds : FdTable) (o : TtyOp) :
    Tty.world fds o (port fds o).1 (port fds o).2 := by
  cases o with
  | openPath path flags =>
      by_cases hfree : fds 5 = .closed
      · rw [port, if_pos hfree]
        exact .inl ⟨show (0 : Int) ≤ 5 by decide, hfree, rfl⟩
      · rw [port, if_neg hfree]
        exact .inr ⟨show (-1 : Int) < 0 by decide, rfl⟩
  | close fd => rfl
  | tcgetattr fd => rfl
  | tcsetattr fd opt => rfl
  | tcflush fd queue => rfl

/-- Numbers 3 and 4 are for the files, and the serial port is the one above if there is one. -/
def kernel (hasPort : Bool) (s : InitState) : (o : InitOp) → InitOp.Ans o × InitState
  | .openPath path flags =>
      if s.fds 3 = .closed then (3, ⟨s.fds.set 3 .opened, s.failed⟩)
      else if s.fds 4 = .closed then (4, ⟨s.fds.set 4 .opened, s.failed⟩)
      else (-1, ⟨s.fds, s.failed ++ [.openPath path flags]⟩)
  | .close fd => ((), ⟨s.fds.set fd .closed, s.failed⟩)
  | .flock fd .LOCK_EX =>
      if s.fds fd = .closed then (-1, ⟨s.fds, s.failed ++ [.flock fd .LOCK_EX]⟩)
      else (0, ⟨s.fds.set fd .locked, s.failed⟩)
  | .flock fd .LOCK_UN =>
      if s.fds fd = .closed then (-1, s) else (0, ⟨s.fds.set fd .opened, s.failed⟩)
  | .ioctl _ _ => (0, s)
  | .uartOpen uart_name speed databits stopbits parity =>
      match if hasPort then (Uart.openPort uart_name speed databits stopbits parity).eval port s.fds
        else none with
      | some (fd, fds) =>
          (fd, ⟨fds, s.note (.uartOpen uart_name speed databits stopbits parity) fd⟩)
      | none => (-1, ⟨s.fds, s.failed ++ [.uartOpen uart_name speed databits stopbits parity]⟩)
  | .mutexInit => ((), s)

theorem initWorld_kernel (hasPort : Bool) (s : InitState) (o : InitOp) :
    initWorld s o (kernel hasPort s o).1 (kernel hasPort s o).2 := by
  cases o with
  | openPath path flags =>
      rw [kernel]
      split
      · rename_i hfree
        exact ⟨.inl ⟨show (0 : Int) ≤ 3 by decide, hfree, rfl⟩, rfl⟩
      split
      · rename_i hfree
        exact ⟨.inl ⟨show (0 : Int) ≤ 4 by decide, hfree, rfl⟩, rfl⟩
      · exact ⟨.inr ⟨show (-1 : Int) < 0 by decide, rfl⟩, rfl⟩
  | close fd => exact ⟨rfl, rfl⟩
  | flock fd operation =>
      cases operation with
      | LOCK_EX =>
          rw [kernel]
          split
          · exact ⟨.inr ⟨show (-1 : Int) < 0 by decide, rfl⟩, rfl⟩
          · rename_i hopen
            exact ⟨.inl ⟨show (0 : Int) ≤ 0 by decide, hopen, rfl⟩, rfl⟩
      | LOCK_UN =>
          rw [kernel]
          split
          · exact ⟨.inr ⟨show (-1 : Int) < 0 by decide, rfl⟩, rfl⟩
          · rename_i hopen
            exact ⟨.inl ⟨show (0 : Int) ≤ 0 by decide, hopen, rfl⟩, rfl⟩
  | ioctl fd request => exact ⟨rfl, rfl⟩
  | uartOpen uart_name speed databits stopbits parity =>
      rw [kernel]
      split
      · rename_i fd fds hsome
        refine ⟨?_, rfl⟩
        split at hsome
        · exact @exec_of_eval TtyI FdTable FdTable _ Tty.world port id world_port _ _ _ _ hsome
        · simp at hsome
      · -- a port that cannot be opened is one of the answers of `uart_Open`
        refine ⟨.ask (.inr ⟨show (-1 : Int) < 0 by decide, rfl⟩) (.refl _ _), rfl⟩
  | mutexInit => exact rfl

/-- The handle before its first set-up. -/
abbrev zeroed : SpiRegDevice := ⟨⟨0, 0, 0⟩, 0⟩

/-- A set-up in which everything succeeds. -/
theorem init_allOrNothing_iff_done :
    ∃ h' s, Exec initWorld (RVMcu.init zeroed) ⟨fun _ => .closed, []⟩ (0, h') s ∧
      AllOrNothing (fun _ => .closed) 0 h' s := by
  have hrun := @exec_of_eval InitI InitState InitState _ initWorld (kernel true) id
    (initWorld_kernel true) (RVMcu.init zeroed) ⟨fun _ => .closed, []⟩ _ _ rfl
  exact ⟨_, _, hrun, (init_allOrNothing_iff hrun).mpr List.not_mem_nil⟩

/-- A serial port that does not open: the set-up has given everything back and returns 0. -/
theorem init_returns_zero_without_port :
    ¬ ∀ (h : SpiRegDevice) (spi_dev uart_dev : List Char) (spi_speed : UInt32) (fds : FdTable)
      (ret : Int) (h' : SpiRegDevice) (s : InitState),
      Exec initWorld (init h spi_dev uart_dev spi_speed) ⟨fds, []⟩ (ret, h') s →
        AllOrNothing fds ret h' s := by
  intro hall
  have hrun := @exec_of_eval InitI InitState InitState _ initWorld (kernel false) id
    (initWorld_kernel false) (RVMcu.init zeroed) ⟨fun _ => .closed, []⟩ _ _ rfl
  have hnone := (hall _ RVM_SPI_PATH RVM_UART_PATH RVM_SPI_SPEED _ _ _ _ hrun).1.mp rfl
  exact absurd hnone (List.cons_ne_nil _ _)

end SpiReg

end McuRegWr
