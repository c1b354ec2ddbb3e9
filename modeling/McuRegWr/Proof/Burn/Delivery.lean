import McuRegWr.Proof.Ring.Serve
import McuRegWr.Proof.Burn.Round

/-!
# What the MCU receives of a firmware

The burn ring is a bounded queue that the MCU empties when it likes. An access to it succeeds,
fails and has done nothing, or fails after the MCU has carried it out, when only the last
acknowledgement is lost. `_BurnMcu` offers again what a failed write did not take; so what the MCU
has received is the file unless such a write had been carried out, or a failed read of the file
passed for its end. -/

namespace McuRegWr

open Base Prog RegWrCb

/-- The ring's register that takes the firmware. -/
abbrev burnWrite : UInt16 := RWREG_CB_BURN_START + CBREG_CMD_WRITE

structure Delivery (cap : Nat) where
  ring : Fifo UInt8 cap
  /-- What the ring has accepted since the burn was started. -/
  accepted : List UInt8
  /-- What the file still holds. -/
  rest : List UInt8
  /-- No write to the ring that was carried out has failed, and no read of the file has failed
  before its end. -/
  intact : Bool

namespace Delivery

variable {cap : Nat}

def start (ring : Fifo UInt8 cap) (file : List UInt8) : Delivery cap := ⟨ring, [], file, true⟩

/-- The MCU takes bytes out of its ring. -/
def consume (s : Delivery cap) (n : Nat) : Delivery cap := { s with ring := s.ring.pop n }

/-- What has been accepted after the MCU has answered an access. -/
def took (s : Delivery cap) : (o : RegOp) → RegOp.Ans o → List UInt8
  | .writeReg addr data _, .ok _ =>
      if addr = burnWrite then s.accepted ++ data
      else if addr = RWREG_BURN_START ∧ data = [BURNMODE_START_BURN] then []
      else s.accepted
  | _, _ => s.accepted

/-- The status takes any mode and shows anything. -/
def AtStatus : RegOp → Prop
  | .readReg addr _ _ => addr = RWREG_BURN_START
  | .writeReg addr _ _ => addr = RWREG_BURN_START
  | _ => False

/-- The MCU carries an access out. -/
def Serves (s : Delivery cap) (o : RegOp) (r : RegOp.Ans o) (s' : Delivery cap) : Prop :=
  (Ring.Serves RWREG_CB_BURN_START s.ring o r s'.ring ∨ AtStatus o ∧ s'.ring = s.ring) ∧
    s' = { s with ring := s'.ring, accepted := s.took o r }

inductive world : World RegI (Delivery cap)
  | served {s s' : Delivery cap} {o : RegOp} {r : RegOp.Ans o} (n : Nat)
      (h : (s.consume n).Serves o r s') : world s o r s'
  | readLost (s : Delivery cap) (addr cnt : UInt16) (timeout : UInt32) (code : Fail) :
      world s (.readReg addr cnt timeout) (.error code) s
  | readUnacked {s s' : Delivery cap} {addr cnt : UInt16} {timeout : UInt32} {r : _} (n : Nat)
      (code : Fail) (h : (s.consume n).Serves (.readReg addr cnt timeout) r s') :
      world s (.readReg addr cnt timeout) (.error code) s'
  | writeLost (s : Delivery cap) (addr : UInt16) (data : List UInt8) (timeout : UInt32)
      (code : Fail) : world s (.writeReg addr data timeout) (.error code) s
  | writeUnacked {s s' : Delivery cap} {addr : UInt16} {data : List UInt8} {timeout : UInt32}
      (n : Nat) (code : Fail) (h : (s.consume n).Serves (.writeReg addr data timeout) (.ok ()) s') :
      world s (.writeReg addr data timeout) (.error code)
        { s' with intact := s'.intact && addr ≠ burnWrite }
  | openFile (s : Delivery cap) (path : String) (fd : Int) : world s (.openFile path) fd s
  | readFail (s : Delivery cap) (fd : Int) (count : Nat) (code : Fail) :
      world s (.readFile fd count) (.error code) { s with intact := s.intact && s.rest = [] }
  | readFile (s : Delivery cap) (fd : Int) (count : Nat)
      (data : {bytes : List UInt8 // bytes.length ≤ count}) (rest : List UInt8)
      (hrest : s.rest = data.val ++ rest) (hend : data.val = [] → rest = [] ∨ count = 0) :
      world s (.readFile fd count) (.ok data) { s with rest := rest }
  | closeFile (s : Delivery cap) (fd : Int) : world s (.closeFile fd) () s
  | usleep (s : Delivery cap) (usec : Nat) : world s (.usleep usec) () s

/-- What the MCU has, with what was read of the file and not accepted yet and with what the file
still holds, is the file. -/
def Holds (file pending : List UInt8) (s : Delivery cap) : Prop :=
  s.intact = true → s.accepted ++ pending ++ s.rest = file

/-- The MCU has the file. -/
def Complete (file : List UInt8) (s : Delivery cap) : Prop := s.intact = true → s.accepted = file

/-- When the end of the transfer is written, the MCU has the file. -/
def Guard (file : List UInt8) (s : Delivery cap) (o : RegOp) : Prop :=
  ∀ timeout, o = .writeReg RWREG_BURN_START [BURNMODE_FINISH_TRANSFER] timeout → Complete file s

/-- What is wanted of a loop that may give up. -/
def OnOk (P : Delivery cap → Prop) (r : Except Int BurnStaReg) (s : Delivery cap) : Prop :=
  match r with
  | .ok _ => P s
  | .error _ => True

/-! ### Single accesses -/

variable {s s' : Delivery cap} {file pending : List UInt8} {timeout : UInt32}

/-- An access that the MCU accepts nothing by. -/
structure Frame (s s' : Delivery cap) : Prop where
  accepted : s'.accepted = s.accepted
  rest : s'.rest = s.rest
  intact : s'.intact = s.intact

theorem Frame.holds (hframe : Frame s s') (h : Holds file pending s) : Holds file pending s' := by
  rw [Holds, hframe.accepted, hframe.rest, hframe.intact]
  exact h

theorem Serves.frame {o : RegOp} {r : RegOp.Ans o} {n : Nat} (h : (s.consume n).Serves o r s')
    (htook : s.took o r = s.accepted) : Frame s s' := by
  rw [h.2]
  exact ⟨htook, rfl, rfl⟩

theorem frame_readReg {addr cnt : UInt16} {r : RegOp.Ans (.readReg addr cnt timeout)}
    (h : world s (.readReg addr cnt timeout) r s') : Frame s s' := by
  cases h with
  | served n h => exact h.frame rfl
  | readLost => exact ⟨rfl, rfl, rfl⟩
  | readUnacked n code h => exact h.frame rfl

theorem frame_writeReg {addr : UInt16} {data : List UInt8}
    {r : RegOp.Ans (.writeReg addr data timeout)} (haddr : addr ≠ burnWrite)
    (hmode : ¬ (addr = RWREG_BURN_START ∧ data = [BURNMODE_START_BURN]))
    (h : world s (.writeReg addr data timeout) r s') : Frame s s' := by
  have htook : ∀ r : RegOp.Ans (.writeReg addr data timeout),
      s.took (.writeReg addr data timeout) r = s.accepted := by
    intro r
    cases r with
    | error code => rfl
    | ok u =>
        show (if addr = burnWrite then _ else _) = _
        rw [if_neg haddr, if_neg hmode]
  cases h with
  | served n h => exact h.frame (htook _)
  | writeLost => exact ⟨rfl, rfl, rfl⟩
  | writeUnacked n code h =>
      have hframe := h.frame (htook _)
      refine ⟨hframe.accepted, hframe.rest, ?_⟩
      rw [← hframe.intact]
      exact (congrArg (_ && ·) (decide_eq_true haddr)).trans (Bool.and_true _)

/-- A write to the ring is accepted, or fails. A failed one leaves things as they were, or not
intact. -/
theorem world_ringWrite {data : List UInt8} {r : RegOp.Ans (.writeReg burnWrite data timeout)}
    (h : world s (.writeReg burnWrite data timeout) r s') :
    r = .ok () ∧ s'.accepted = s.accepted ++ data ∧ s'.rest = s.rest ∧ s'.intact = s.intact ∨
      (∃ code, r = .error code) ∧ (Frame s s' ∨ s'.intact = false) := by
  cases h with
  | served n h =>
      cases r with
      | ok u =>
          have htook : s.took (.writeReg burnWrite data timeout) (.ok u) = s.accepted ++ data := by
            rw [took, if_pos rfl]
          rw [h.2]
          exact .inl ⟨rfl, htook, rfl, rfl⟩
      | error code => exact .inr ⟨⟨code, rfl⟩, .inl (h.frame rfl)⟩
  | writeLost _ _ _ _ code => exact .inr ⟨⟨code, rfl⟩, .inl ⟨rfl, rfl, rfl⟩⟩
  | writeUnacked n code h =>
      exact .inr ⟨⟨code, rfl⟩, .inr ((congrArg (_ && ·) (decide_eq_false (not_not.mpr rfl))).trans
        (Bool.and_false _))⟩

/-! ### The operations of the burn -/

variable {reg : BurnStaReg}

theorem guard_readReg {addr cnt : UInt16} : Guard file s (.readReg addr cnt timeout) :=
  fun _ h => RegOp.noConfusion h

theorem guard_writeReg {addr : UInt16} {data : List UInt8}
    (h : ¬ (addr = RWREG_BURN_START ∧ data = [BURNMODE_FINISH_TRANSFER])) :
    Guard file s (.writeReg addr data timeout) := by
  rintro _ heq
  injection heq with haddr hdata
  exact absurd ⟨haddr, hdata⟩ h

theorem wlp_readBurnSta {Q : Int × BurnStaReg → Delivery cap → Prop}
    (hok : ∀ reg' s', Frame s s' → Q (0, reg') s')
    (herr : ∀ ret s', ret < 0 → Frame s s' → Q (ret, reg) s') :
    (readBurnSta reg timeout).wlp world (Guard file) Q s := by
  rw [readBurnSta_eq]
  refine ⟨guard_readReg, fun r s' answer => ?_⟩
  have hframe := frame_readReg answer
  cases r with
  | ok bytes => exact hok _ _ hframe
  | error code => exact herr _ _ code.property hframe

theorem wlp_writeBurnMode {Q : Int → Delivery cap → Prop}
    (hfinish : reg.burn_mode ≠ BURNMODE_FINISH_TRANSFER)
    (hstart : reg.burn_mode ≠ BURNMODE_START_BURN)
    (hQ : ∀ ret s', Frame s s' → Q ret s') :
    (writeBurnMode reg timeout).wlp world (Guard file) Q s := by
  rw [writeBurnMode_eq]
  refine ⟨guard_writeReg fun h => hfinish (List.cons.inj h.2).1, fun r s' answer => ?_⟩
  have hframe := frame_writeReg (by decide) (fun h => hstart (List.cons.inj h.2).1) answer
  cases r with
  | ok _ => exact hQ _ _ hframe
  | error code => exact hQ _ _ hframe

theorem wlp_clean {Q : Int → Delivery cap → Prop} (hQ : ∀ ret s', Frame s s' → Q ret s') :
    (clean regWrCbHandle RWREG_CB_BURN_START timeout).wlp world (Guard file) Q s := by
  rw [clean_eq]
  refine ⟨guard_writeReg (by decide), fun r s' answer => ?_⟩
  have hframe := frame_writeReg (by decide) (by decide) answer
  cases r with
  | ok _ => exact hQ _ _ hframe
  | error code => exact hQ _ _ hframe

/-- A try of the ring takes a first part of the bytes, or nothing that is not already amiss. -/
theorem wlp_ringWrite {data : List UInt8} {Q : Int → Delivery cap → Prop} (hpos : 0 < data.length)
    (hlen : data.length < 65536) (h : Holds file data s)
    (htook : ∀ (n : Nat) s', 0 < n → n ≤ data.length → Holds file (data.drop n) s' → Q n s')
    (hnone : ∀ ret s', ret ≤ 0 → Holds file data s' → Q ret s') :
    (RegWrCb.write regWrCbHandle RWREG_CB_BURN_START data (UInt32.ofNat data.length) timeout).wlp
      world (Guard file) Q s := by
  apply wlp_write hpos hlen guard_readReg
  · intro code s₁ answer
    exact hnone _ _ (le_of_lt code.property) ((frame_readReg answer).holds h)
  · intro size s₁ answer hfull
    exact hnone _ _ hfull ((frame_readReg answer).holds h)
  · intro size s₁ n answer _ hn hle
    have hholds := (frame_readReg answer).holds h
    refine ⟨guard_writeReg fun h => absurd h.1 (by decide), fun r s₂ answer => ?_⟩
    rcases world_ringWrite answer with ⟨rfl, haccepted, hrest, hintact⟩ | ⟨⟨code, rfl⟩, hfail⟩
    · refine htook _ _ hn hle ?_
      rw [Holds, haccepted, hrest, hintact, List.append_assoc s₁.accepted, List.take_append_drop]
      exact hholds
    · refine hnone _ _ (le_of_lt code.property) ?_
      rcases hfail with hframe | hloss
      · exact hframe.holds hholds
      · rw [Holds, hloss]
        intro hintact
        exact absurd hintact (by decide)

/-! ### The transfer -/

theorem wlp_burnChunkRound {data : List UInt8} (hlen : data.length ≤ BURN_PARTICLE_SIZE)
    {cs : ChunkState} (h : Holds file (data.drop cs.start) s) :
    (burnChunkRound data cs).wlp world (Guard file)
      (Sum.elim (fun cs' => Holds file (data.drop cs'.start))
        (OnOk (Holds file []))) s := by
  apply wlp_chunkRound hlen
  · intro hdone
    rw [hdone] at h
    exact h
  intro _ hpos hlen
  apply wlp_ringWrite hpos hlen h
  · intro n t hn hle hholds
    rw [List.drop_drop] at hholds
    exact .of_pos (Int.natCast_pos.mpr hn) hholds
  intro ret t hret hholds
  apply AfterTry.of_none hret
  · intro _
    apply wlp_readBurnSta
    · intro reg' t' hframe
      apply AfterStatus.of_read
      · exact fun _ => trivial
      intro _
      apply AfterVain.intro
      · exact fun _ => trivial
      · exact fun _ => hframe.holds hholds
    · intro ret' t' hret' hframe
      exact .of_neg hret' trivial
  · intro _
    apply AfterVain.intro
    · exact fun _ => trivial
    · exact fun _ => hholds

theorem wlp_burnChunk {data : List UInt8} (hlen : data.length ≤ BURN_PARTICLE_SIZE)
    (h : Holds file data s) (reg : BurnStaReg) :
    (burnChunk data reg).wlp world (Guard file) (OnOk (Holds file [])) s :=
  wlp_loop (fun (cs : ChunkState) => Holds file (data.drop cs.start))
    (fun _ _ hinv => wlp_burnChunkRound hlen hinv) _ h

/-- The transfer is over when the file is, or seems to be. -/
theorem wlp_burnFileRound (h : Holds file [] s) (fd : Int) (reg : BurnStaReg) :
    (burnFileRound fd reg).wlp world (Guard file)
      (Sum.elim (fun _ => Holds file []) (OnOk (Complete file))) s := by
  simp only [burnFileRound, File.read, req_eq, ask_bind, done_bind]
  refine ⟨fun _ h => RegOp.noConfusion h, fun r s' answer => ?_⟩
  cases answer with
  | served n hserves =>
      rcases hserves.1 with hring | ⟨hstatus, -⟩
      · exact hring.elim
      · exact hstatus.elim
  | readFail =>
      intro hintact
      obtain ⟨hbefore, hend⟩ := Bool.and_eq_true_iff.mp hintact
      have hsplit := h hbefore
      rw [of_decide_eq_true hend, List.append_nil, List.append_nil] at hsplit
      exact hsplit
  | readFile _ _ _ data rest hrest hend =>
      have hholds : Holds file data.val { s with rest := rest } := by
        intro hintact
        rw [List.append_assoc, ← hrest, ← h hintact, List.append_nil]
      dsimp only
      by_cases hnil : data.val = []
      · rw [if_pos hnil]
        intro hintact
        have hsplit := hholds hintact
        rw [hnil, (hend hnil).resolve_right (by decide), List.append_nil, List.append_nil] at hsplit
        exact hsplit
      · rw [if_neg hnil, wlp_bind]
        apply wlp_conseq (wlp_burnChunk data.property hholds reg)
        intro r t hr
        cases r with
        | ok reg' => exact hr
        | error ret => exact trivial

/-! ### The burn -/

theorem wlp_openFile {α : Type} {path : String} {f : Int → Prog RegI α}
    {Q : α → Delivery cap → Prop} (hQ : ∀ fd s', Frame s s' → (f fd).wlp world (Guard file) Q s') :
    (File.openRdonly path >>= f).wlp world (Guard file) Q s := by
  refine ⟨fun _ h => RegOp.noConfusion h, fun fd s' answer => ?_⟩
  cases answer with
  | served n hserves =>
      rcases hserves.1 with hring | ⟨hstatus, -⟩
      · exact hring.elim
      · exact hstatus.elim
  | openFile => exact hQ fd s ⟨rfl, rfl, rfl⟩

theorem wlp_finishTransfer {Q : Int → Delivery cap → Prop} (h : Complete file s)
    (hQ : ∀ ret s', Q ret s') :
    (writeBurnMode reg timeout).wlp world (Guard file) Q s := by
  refine ⟨fun _ _ => h, fun r s' _ => ?_⟩
  cases r with
  | ok _ => exact hQ _ _
  | error code => exact hQ _ _

theorem took_startBurn (timeout : UInt32) (hmode : reg.burn_mode = BURNMODE_START_BURN) :
    s.took (.writeReg RWREG_BURN_START [reg.burn_mode] timeout) (.ok ()) = [] := by
  rw [took, if_neg (by decide), if_pos ⟨rfl, by rw [hmode]⟩]

/-- The start of the burn begins the count of what is accepted. -/
theorem wlp_startBurn {Q : Int → Delivery cap → Prop} (hmode : reg.burn_mode = BURNMODE_START_BURN)
    (hok : ∀ s', s'.accepted = [] → s'.rest = s.rest → Q 0 s')
    (herr : ∀ ret s', ret < 0 → Q ret s') :
    (writeBurnMode reg timeout).wlp world (Guard file) Q s := by
  refine ⟨guard_writeReg fun h => ?_, fun r s' answer => ?_⟩
  · have hfinish : reg.burn_mode = BURNMODE_FINISH_TRANSFER := (List.cons.inj h.2).1
    rw [hmode] at hfinish
    exact absurd hfinish (by decide)
  · cases r with
    | ok u =>
        cases answer with
        | served n hserves =>
            refine hok _ ?_ ?_
            · rw [hserves.2]
              exact took_startBurn timeout hmode
            · rw [hserves.2]
              rfl
    | error code => exact herr _ _ code.property

theorem wlp_burnResultRound :
    (burnResultRound reg).wlp world (Guard file)
      (Sum.elim (fun _ _ => True) (fun _ _ => True)) s := by
  rw [burnResultRound, wlp_bind]
  apply wlp_readBurnSta
  · intro reg' s' hframe
    dsimp only
    rw [if_neg (lt_irrefl (0 : Int))]
    split
    · trivial
    · exact ⟨fun _ h => RegOp.noConfusion h, fun _ _ _ => trivial⟩
  · intro ret s' hret hframe
    dsimp only
    rw [if_pos hret]
    trivial

theorem wlp_burnFile (h : Holds file [] s) (fuel : Nat) (fd : Int) (reg : BurnStaReg) :
    (burnFile fuel fd reg).wlp world (Guard file) (fun _ _ => True) s := by
  rw [burnFile, wlp_bind]
  refine wlp_conseq (wlp_loop (fun _ => Holds file []) (fun reg' _ hs =>
    wlp_burnFileRound hs fd reg') fuel h) fun r t hr => ?_
  cases r with
  | error ret => trivial
  | ok reg' =>
      dsimp only
      rw [wlp_bind]
      apply wlp_finishTransfer hr
      intro _ u
      rw [wlp_bind]
      refine wlp_conseq (wlp_loop (fun _ _ => True) (fun _ _ _ => wlp_burnResultRound) fuel trivial)
        fun r' v _ => ?_
      cases r' with
      | error ret => trivial
      | ok reg'' =>
          dsimp only
          split
          · trivial
          · rw [wlp_bind]
            exact wlp_writeBurnMode (show BURNMODE_EXIT_BURN ≠ BURNMODE_FINISH_TRANSFER by decide)
              (show BURNMODE_EXIT_BURN ≠ BURNMODE_START_BURN by decide) fun _ _ _ => trivial

theorem wlp_burnMcu (hrest : s.rest = file) (fuel : Nat) (path : String) :
    (burnMcu fuel path).wlp world (Guard file) (fun _ _ => True) s := by
  rw [burnMcu, wlp_bind]
  refine wlp_writeBurnMode (by decide) (by decide) fun ret s₁ hframe₁ => ?_
  split
  · trivial
  rw [wlp_bind]
  apply wlp_readBurnSta
  · intro reg s₂ hframe₂
    dsimp only
    rw [if_neg (lt_irrefl (0 : Int))]
    split
    · trivial
    rw [wlp_bind]
    apply wlp_startBurn rfl
    · intro s₃ haccepted₃ hrest₃
      have hholds : Holds file [] s₃ := by
        intro _
        rw [haccepted₃, hrest₃, hframe₂.rest, hframe₁.rest]
        exact hrest
      rw [if_neg (lt_irrefl (0 : Int)), wlp_bind]
      apply wlp_clean
      intro _ s₄ hframe₄
      apply wlp_openFile
      intro fd s₅ hframe₅
      split
      · trivial
      · rw [wlp_bind]
        refine wlp_conseq (wlp_burnFile (hframe₅.holds (hframe₄.holds hholds)) fuel fd _)
          fun _ _ _ => ⟨fun _ h => RegOp.noConfusion h, fun _ _ _ => trivial⟩
    · intro ret' s₃ hret'
      rw [if_pos hret']
      trivial
  · intro ret' s₂ hret' hframe₂
    dsimp only
    rw [if_pos hret']
    trivial

end Delivery

/-- In a run whose failures all leave the MCU and the file as they were, the MCU has the file, whole
and in order, when the end of the transfer is written. -/
theorem firmware_delivered_once {cap : Nat} {ring : Fifo UInt8 cap} {file : List UInt8} {fuel : Nat}
    {path : String} {timeout : UInt32} {next : _} {t : Delivery cap}
    (hrun : Steps Delivery.world (burnMcu fuel path) (.start ring file)
      (.ask (.writeReg RWREG_BURN_START [BURNMODE_FINISH_TRANSFER] timeout) next) t)
    (hintact : t.intact = true) : t.accepted = file :=
  wlp_guard (Delivery.wlp_burnMcu rfl fuel path) hrun timeout rfl hintact

/-! ### Given failures -/

namespace Delivery

/-- A burn of which the acknowledgements of the first `unacked` writes to the ring are lost. -/
structure Lossy where
  line : Delivery 64
  unacked : Nat

def Lossy.answer (t : Lossy) : (o : RegOp) → RegOp.Ans o × Lossy
  | .readReg addr cnt _ =>
      if hfree : addr = RWREG_CB_BURN_START + CBREG_CMD_GET_FREESIZE ∧ cnt = 4 then
        (.ok ⟨leBytes 4 t.line.ring.free, by rw [hfree.2, length_leBytes]; rfl⟩, t)
      else if hstatus : addr = RWREG_BURN_START ∧ cnt = 2 then
        (.ok ⟨[BURNMODE_ERASE_OK, 0], by rw [hstatus.2]; rfl⟩, t)
      else (.error Ring.refused, t)
  | .writeReg addr data timeout =>
      if addr = RWREG_BURN_START then
        (.ok (), { t with line.accepted := t.line.took (.writeReg addr data timeout) (.ok ()) })
      else if hring : addr = burnWrite ∧ data.length ≤ t.line.ring.free then
        let line := { t.line with
          ring := t.line.ring.push data hring.2,
          accepted := t.line.took (.writeReg addr data timeout) (.ok ()) }
        match t.unacked with
        | 0 => (.ok (), { t with line := line })
        | n + 1 =>
            (.error Ring.unacknowledged,
              ⟨{ line with intact := line.intact && addr ≠ burnWrite }, n⟩)
      else (.error Ring.refused, t)
  | .usleep _ => ((), t)
  | .openFile _ => (3, t)
  | .readFile _ count =>
      (.ok ⟨t.line.rest.take count, List.length_take_le _ _⟩,
        { t with line.rest := t.line.rest.drop count })
  | .closeFile _ => ((), t)

theorem Lossy.world_answer (t : Lossy) (o : RegOp) :
    Delivery.world t.line o (t.answer o).1 (t.answer o).2.line := by
  cases o with
  | readReg addr cnt timeout =>
      rw [Lossy.answer]
      split
      · rename_i hfree
        exact .served 0 ⟨.inl (.inr (.inl ⟨hfree.1, rfl, rfl⟩)), rfl⟩
      split
      · rename_i hstatus
        exact .served 0 ⟨.inr ⟨hstatus.1, rfl⟩, rfl⟩
      · exact .readLost _ _ _ _ _
  | writeReg addr data timeout =>
      rw [Lossy.answer]
      split
      · rename_i hstatus
        exact .served 0 ⟨.inr ⟨hstatus, rfl⟩, rfl⟩
      split
      · rename_i hring
        have hserves : (t.line.consume 0).Serves (.writeReg addr data timeout) (.ok ())
            { t.line with
              ring := t.line.ring.push data hring.2,
              accepted := t.line.took (.writeReg addr data timeout) (.ok ()) } :=
          ⟨.inl (.inl ⟨hring.1, hring.2, rfl⟩), rfl⟩
        dsimp only
        split
        · exact .served 0 hserves
        · exact .writeUnacked 0 _ hserves
      · exact .writeLost _ _ _ _ _
  | openFile path => exact .openFile _ _ _
  | readFile fd count =>
      refine .readFile _ fd count _ _ (List.take_append_drop count t.line.rest).symm fun hnil => ?_
      rcases List.take_eq_nil_iff.mp hnil with hcount | hrest
      · exact .inr hcount
      · exact .inl (by rw [hrest, List.drop_nil])
  | closeFile fd => exact .closeFile _ _
  | usleep usec => exact .usleep _ _

/-- The burn of three bytes, up to its `n`-th operation. -/
def burnThree (unacked n : Nat) : Prog RegI Int × Lossy :=
  (burnMcu 2 "mcu.bin").evalFor Lossy.answer n ⟨.start .empty [1, 2, 3], unacked⟩

theorem steps_burnThree (unacked n : Nat) :
    Steps world (burnMcu 2 "mcu.bin") (.start .empty [1, 2, 3]) (burnThree unacked n).1
      (burnThree unacked n).2.line :=
  @steps_evalFor RegI (Delivery 64) Lossy Int world Lossy.answer Lossy.line Lossy.world_answer n _
    ⟨.start .empty [1, 2, 3], unacked⟩

end Delivery

/-- The MCU takes the three bytes and its acknowledgement is lost: they are offered again, and taken
twice. -/
theorem firmware_delivered_twice :
    ¬ ∀ (ring : Fifo UInt8 64) (file : List UInt8) (fuel : Nat) (path : String) (timeout : UInt32)
      (next : RegOp.Ans (.writeReg RWREG_BURN_START [BURNMODE_FINISH_TRANSFER] timeout) →
        Prog RegI Int) (t : Delivery 64),
      Steps Delivery.world (burnMcu fuel path) (.start ring file)
        (.ask (.writeReg RWREG_BURN_START [BURNMODE_FINISH_TRANSFER] timeout) next) t →
      t.accepted = file := by
  intro h
  have htwice := h _ _ _ _ _ _ _ (Delivery.steps_burnThree 1 11)
  exact absurd htwice (by decide)

/-- With every acknowledgement. -/
theorem firmware_delivered_once_three_bytes :
    (Delivery.burnThree 0 9).2.line.accepted = [1, 2, 3] :=
  firmware_delivered_once (Delivery.steps_burnThree 0 9) rfl

end McuRegWr
