import McuRegWr.Proof.Burn.Seen
import McuRegWr.Proof.Burn.Round

/-!
# What the success of a burn means

Many exits of `_BurnMcu` share one result. An exit with a negative result asks for nothing; every
other one follows a status, and the result is right exactly if none of the statuses read is
misleading.
-/

namespace McuRegWr

open Base Prog RegWrCb BurnSeen

/-! ### The fuel of a chunk -/

theorem yields_readBurnSta (reg : BurnStaReg) (timeout : UInt32) :
    (readBurnSta reg timeout).Yields fun _ => True := by
  intro r
  cases r <;> trivial

theorem yields_ringWrite (data : List UInt8) (size timeout : UInt32) :
    (RegWrCb.write regWrCbHandle RWREG_CB_BURN_START data size timeout).Yields fun _ => True := by
  rw [write_eq]
  intro r
  cases r with
  | error code => trivial
  | ok free =>
      dsimp only
      split
      · trivial
      split
      · trivial
      intro r
      cases r <;> trivial

/-- Every round but the last accepts bytes or counts a try: the fuel is enough. -/
theorem burnChunk_returns (data : List UInt8) (reg : BurnStaReg) :
    (burnChunk data reg).Returns := by
  let measure (cs : ChunkState) : Nat := data.length - cs.start + (BURN_WR_MAX_RETRY + 1 - cs.retry)
  have hround : ∀ cs, (burnChunkRound data cs).Yields
      (Sum.elim (fun cs' => measure cs' < measure cs) fun _ => True) := by
    intro cs
    rw [burnChunkRound]
    split
    · rename_i hmore
      have hretry : ¬ cs.retry > BURN_WR_MAX_RETRY → ∀ reg',
          measure ⟨cs.start, cs.retry + 1, reg'⟩ < measure cs := by
        intro hleft reg'
        simp only [measure]
        omega
      apply (yields_ringWrite _ _ _).bind
      intro ret _
      split
      · show measure _ < measure cs
        simp only [measure]
        omega
      split
      · apply (yields_readBurnSta _ _).bind
        intro a _
        obtain ⟨ret, reg'⟩ := a
        dsimp only
        split
        · trivial
        split
        · trivial
        split
        · trivial
        · exact hretry ‹_› reg'
      · split
        · trivial
        · exact hretry ‹_› cs.reg
    · trivial
  apply (yields_loop measure hround _).returns
  simp only [measure]
  omega

namespace BurnSeen

variable {file pending : List UInt8} {s : BurnSeen} {ret : Int}

theorem fits_of_neg (hret : ret < 0) (hmisled : s.misled = false) : Fits file ret s :=
  iff_of_true (fun h => absurd h (Int.not_le.mpr hret)) hmisled

theorem fits_of_misled (hret : 0 ≤ ret) (hmisled : s.misled = true) (hsound : ¬ s.Sound file) :
    Fits file ret s :=
  iff_of_false (fun h => hsound (h hret)) (by rw [hmisled]; decide)

theorem not_sound_of_unfinished (h : s.finished = false) : ¬ s.Sound file := by
  intro hsound
  rw [hsound.finished] at h
  exact absurd h (by decide)

/-- While the file is being transferred: `pending` is what was read of it and not accepted yet. -/
structure Burning (file pending : List UInt8) (s : BurnSeen) : Prop where
  mode : s.mode = BURNMODE_START_BURN
  uncut : s.cut = false
  unrefused : s.refused = false
  unfinished : s.finished = false
  clear : s.misled = false
  split : s.accepted ++ pending ++ s.rest = file

theorem neg_parameter_lt (reg : BurnStaReg) :
    (-reg.parameter.toNat : Int) < 0 ↔ reg.parameter ≠ 0 := by
  have hzero : reg.parameter = 0 ↔ reg.parameter.toNat = 0 := UInt8.toNat_inj.symm
  rw [Ne, hzero]
  omega

theorem fits_neg_parameter {reg : BurnStaReg} (hmisled : s.misled = decide (reg.parameter = 0))
    (hunsound : ¬ s.Sound file) : Fits file (-reg.parameter.toNat) s := by
  by_cases hparam : reg.parameter = 0
  · refine fits_of_misled ?_ (hmisled.trans (decide_eq_true hparam)) hunsound
    rw [hparam]
    decide
  · exact fits_of_neg ((neg_parameter_lt reg).mpr hparam) (hmisled.trans (decide_eq_false hparam))

theorem Burning.misled_seeStatus (h : Burning file pending s) (reg : BurnStaReg) :
    (s.seeStatus reg).misled =
      if reg.burn_mode = BURNMODE_BURN_ERROR then decide (reg.parameter = 0)
      else decide (BURN_WR_MAX_RETRY + 1 < s.fruitless) := by
  rw [seeStatus, h.clear, misleads, h.mode, if_neg (by decide), if_pos rfl]
  rfl

/-! ### One chunk -/

/-- A loop goes on to `P`, or gives up with a result. -/
def OnOk (P : BurnSeen → Prop) (file : List UInt8) (r : Except Int BurnStaReg) (s : BurnSeen) :
    Prop :=
  match r with
  | .ok _ => P s
  | .error ret => Fits file ret s

structure ChunkInv (file firmware_data : List UInt8) (cs : ChunkState) (s : BurnSeen) : Prop where
  burning : Burning file (firmware_data.drop cs.start) s
  retry : s.fruitless = cs.retry

theorem wlp_burnChunkRound {data : List UInt8} (hlen : data.length ≤ BURN_PARTICLE_SIZE)
    {cs : ChunkState} (h : ChunkInv file data cs s) :
    (burnChunkRound data cs).wlp world anyOp
      (Sum.elim (ChunkInv file data) (OnOk (Burning file []) file)) s := by
  obtain ⟨hburning, hretry⟩ := h
  have htried : Burning file (data.drop cs.start) { s with fruitless := s.fruitless + 1 } :=
    { hburning with }
  apply wlp_chunkRound hlen
  · intro hdone
    rw [hdone] at hburning
    exact hburning
  intro _ hpos hlen
  apply wlp_ringWrite hpos hlen
  · intro n hn hle
    refine .of_pos (Int.natCast_pos.mpr hn) ⟨{ hburning with split := ?_ }, hretry⟩
    show s.accepted ++ (data.drop cs.start).take n ++ data.drop (cs.start + n) ++ s.rest = file
    rw [List.append_assoc s.accepted, ← List.drop_drop, List.take_append_drop]
    exact hburning.split
  intro ret hret
  apply AfterTry.of_none hret
  · intro _
    apply wlp_readBurnSta
    · intro reg'
      have hmisled := htried.misled_seeStatus reg'
      have hunsound : ¬ ({ s with fruitless := s.fruitless + 1 }.seeStatus reg').Sound file :=
        not_sound_of_unfinished hburning.unfinished
      apply AfterStatus.of_read
      · intro herror
        rw [if_pos herror] at hmisled
        exact fits_neg_parameter hmisled hunsound
      · intro herror
        rw [if_neg herror] at hmisled
        apply AfterVain.intro
        · intro hlast
          refine fits_of_misled le_rfl (hmisled.trans (decide_eq_true ?_)) hunsound
          show BURN_WR_MAX_RETRY + 1 < s.fruitless + 1
          omega
        · intro hmore
          refine ⟨{ hburning with clear := hmisled.trans (decide_eq_false ?_) },
            congrArg (· + 1) hretry⟩
          show ¬ BURN_WR_MAX_RETRY + 1 < s.fruitless + 1
          omega
    · intro ret' hret'
      exact .of_neg hret' (fits_of_neg hret' hburning.clear)
  · intro hneg
    apply AfterVain.intro
    · intro _
      exact fits_of_neg hneg hburning.clear
    · intro _
      exact ⟨htried, congrArg (· + 1) hretry⟩

theorem wlp_burnChunk {data : List UInt8} (hlen : data.length ≤ BURN_PARTICLE_SIZE)
    (h : Burning file data s) (hfresh : s.fruitless = 0) (reg : BurnStaReg) :
    (burnChunk data reg).wlp world anyOp (OnOk (Burning file []) file) s :=
  wlp_loop (ChunkInv file data) (fun _ _ hinv => wlp_burnChunkRound hlen hinv) _ ⟨h, hfresh⟩

/-! ### The file -/

/-- When the file is not read any more: either it was read to its end, or a read failed before. -/
structure Transferred (file : List UInt8) (s : BurnSeen) : Prop where
  unrefused : s.refused = false
  unfinished : s.finished = false
  clear : s.misled = false
  split : s.accepted ++ s.rest = file
  ended : s.cut = false ↔ s.rest = []

theorem wlp_burnFileRound (h : Burning file [] s) (fd : Int) (reg : BurnStaReg) :
    (burnFileRound fd reg).wlp world anyOp
      (Sum.elim (fun _ => Burning file []) (OnOk (Transferred file) file)) s := by
  have hleft : s.accepted ++ s.rest = file := by
    rw [← h.split, List.append_nil]
  simp only [burnFileRound, File.read, req_eq, ask_bind, done_bind]
  refine ⟨trivial, fun r s' answer => ?_⟩
  cases answer with
  | readFail =>
      have hcut : (s.cut || decide (s.rest ≠ [])) = false ↔ s.rest = [] := by
        rw [h.uncut, Bool.false_or, decide_eq_false_iff_not, not_not]
      exact ⟨h.unrefused, h.unfinished, h.clear, hleft, hcut⟩
  | readFile _ _ _ data rest hrest hend =>
      have hsplit : s.accepted ++ data.val ++ rest = file := by
        rw [List.append_assoc, ← hrest, hleft]
      dsimp only
      by_cases hnil : data.val = []
      · have hnone : rest = [] := (hend hnil).resolve_right (by decide)
        rw [if_pos hnil]
        rw [hnil, List.append_nil] at hsplit
        exact ⟨h.unrefused, h.unfinished, h.clear, hsplit, iff_of_true h.uncut hnone⟩
      · rw [if_neg hnil, wlp_bind]
        have hburning : Burning file data.val { s with rest := rest, fruitless := 0 } :=
          { h with split := hsplit }
        apply wlp_conseq (wlp_burnChunk data.property hburning rfl reg)
        intro r t hr
        cases r with
        | ok reg' => exact hr
        | error ret => exact hr

/-! ### The result -/

/-- While the MCU checks what it has got. -/
structure Awaiting (file : List UInt8) (s : BurnSeen) : Prop where
  mode : s.mode = BURNMODE_FINISH_TRANSFER
  clear : s.misled = false
  split : s.accepted ++ s.rest = file
  ended : s.cut = false ↔ s.rest = []
  written : s.finished = !s.refused

/-- How the wait for the result ends. -/
def Answered (file : List UInt8) (r : Except Int BurnStaReg) (s : BurnSeen) : Prop :=
  match r with
  | .ok reg => Fits file (-reg.parameter.toNat) s
  | .error ret => Fits file ret s

theorem Awaiting.misled_seeStatus (h : Awaiting file s) (reg : BurnStaReg) :
    (s.seeStatus reg).misled = (decide (reg.burn_mode ≠ BURNMODE_FINISH_TRANSFER) &&
      decide (reg.parameter = 0) &&
        (decide (reg.burn_mode ≠ BURNMODE_FINISH_BURN) || s.refused || s.cut)) := by
  rw [seeStatus, h.clear, misleads, h.mode, if_neg (by decide), if_neg (by decide)]
  rfl

/-- The answers that a sound result needs: the status, the write and the reads of the file. -/
theorem Awaiting.sound_iff (h : Awaiting file s) {reg : BurnStaReg} (hparam : reg.parameter = 0) :
    (s.seeStatus reg).Sound file ↔
      reg.burn_mode = BURNMODE_FINISH_BURN ∧ s.refused = false ∧ s.cut = false := by
  have hfinished : s.finished = true ↔ s.refused = false := by
    rw [h.written, Bool.not_eq_true']
  rw [h.ended, ← hfinished]
  constructor
  · intro hsound
    refine ⟨congrArg BurnStaReg.burn_mode (Option.some.inj hsound.status), hsound.finished, ?_⟩
    exact List.append_right_eq_self.mp (h.split.trans hsound.accepted.symm)
  · intro ⟨hburn, hwritten, hrest⟩
    refine ⟨?_, hwritten, ?_⟩
    · rw [← h.split, hrest, List.append_nil]
      rfl
    · rw [← hburn, ← hparam]
      rfl

theorem Awaiting.fits (h : Awaiting file s) {reg : BurnStaReg}
    (hmode : reg.burn_mode ≠ BURNMODE_FINISH_TRANSFER) :
    Fits file (-reg.parameter.toNat) (s.seeStatus reg) := by
  have hmisled := h.misled_seeStatus reg
  rw [decide_eq_true hmode, Bool.true_and] at hmisled
  by_cases hparam : reg.parameter = 0
  · rw [decide_eq_true hparam, Bool.true_and] at hmisled
    have hclear : (s.seeStatus reg).misled = false ↔
        reg.burn_mode = BURNMODE_FINISH_BURN ∧ s.refused = false ∧ s.cut = false := by
      rw [hmisled]
      simp [and_assoc]
    have hret : (0 : Int) ≤ -reg.parameter.toNat := by
      rw [hparam]
      decide
    exact (forall_prop_of_true hret).trans ((h.sound_iff hparam).trans hclear.symm)
  · rw [decide_eq_false hparam, Bool.false_and] at hmisled
    exact fits_of_neg ((neg_parameter_lt reg).mpr hparam) hmisled

theorem wlp_burnResultRound (h : Awaiting file s) (reg : BurnStaReg) :
    (burnResultRound reg).wlp world anyOp
      (Sum.elim (fun _ => Awaiting file) (Answered file)) s := by
  rw [burnResultRound, wlp_bind]
  apply wlp_readBurnSta
  · intro reg'
    dsimp only
    rw [if_neg (lt_irrefl (0 : Int))]
    by_cases hmode : reg'.burn_mode = BURNMODE_FINISH_TRANSFER
    · rw [if_neg (not_not.mpr hmode)]
      refine ⟨trivial, fun r s' answer => ?_⟩
      cases answer with
      | usleep =>
          refine { h with clear := ?_ }
          rw [h.misled_seeStatus, hmode]
          rfl
    · rw [if_pos hmode]
      exact h.fits hmode
  · intro ret hret
    dsimp only
    rw [if_pos hret]
    exact fits_of_neg hret h.clear

/-! ### The burn -/

theorem Fits.setMode (h : Fits file ret s) (mode : UInt8) (refused : Bool) :
    Fits file ret { s with mode := mode, refused := refused } :=
  ⟨fun hret => h.mp fun hle => ⟨(hret hle).accepted, (hret hle).finished, (hret hle).status⟩,
    fun hclear hle =>
      have hsound := h.mpr hclear hle
      ⟨hsound.accepted, hsound.finished, hsound.status⟩⟩

theorem wlp_burnFile (h : Burning file [] s) (fuel : Nat) (fd : Int) (reg : BurnStaReg) :
    (burnFile fuel fd reg).wlp world anyOp (Fits file) s := by
  rw [burnFile, wlp_bind]
  refine wlp_conseq (wlp_loop (fun _ => Burning file []) (fun reg' _ hs =>
    wlp_burnFileRound hs fd reg') fuel h) fun r t hr => ?_
  cases r with
  | error ret => exact hr
  | ok reg' =>
      have hfinish : (writeBurnMode ⟨BURNMODE_FINISH_TRANSFER, 0⟩ 500).wlp world anyOp
          (fun _ => Awaiting file) t := by
        apply wlp_writeBurnMode
        · refine ⟨rfl, hr.clear, hr.split, hr.ended, ?_⟩
          rw [hr.unfinished, hr.unrefused]
          rfl
        · intro _ _
          refine ⟨rfl, hr.clear, hr.split, hr.ended, ?_⟩
          rw [hr.unfinished, hr.unrefused]
          rfl
      dsimp only
      rw [wlp_bind]
      apply wlp_conseq hfinish
      intro _ u hu
      rw [wlp_bind]
      refine wlp_conseq (wlp_loop (fun _ => Awaiting file) (fun reg'' _ hs =>
        wlp_burnResultRound hs reg'') fuel hu) fun r' v hr' => ?_
      cases r' with
      | error ret => exact hr'
      | ok reg'' =>
          dsimp only
          split
          · exact hr'
          · rw [wlp_bind]
            apply wlp_writeBurnMode
            · rw [show (v.finished || decide ([BURNMODE_EXIT_BURN] = [BURNMODE_FINISH_TRANSFER])) =
                v.finished from Bool.or_false _]
              exact hr'.setMode _ _
            · intro _ _
              exact hr'.setMode _ _

theorem wlp_burnOpen (h : Burning file [] s) (fuel : Nat) (path : String) (reg : BurnStaReg) :
    (do
      let _ ← RegWrCb.clean regWrCbHandle RWREG_CB_BURN_START 200
      let firmware_fd ← File.openRdonly path
      if firmware_fd < 0 then return firmware_fd
      let ret ← burnFile fuel firmware_fd reg
      File.close firmware_fd
      return ret : Prog RegI Int).wlp world anyOp (Fits file) s := by
  rw [wlp_bind]
  apply wlp_clean
  intro _
  refine ⟨trivial, fun fd s' answer => ?_⟩
  cases answer with
  | openFile =>
      dsimp only [Prog.bind]
      by_cases hfd : fd < 0
      · rw [if_pos hfd]
        exact fits_of_neg hfd h.clear
      · rw [if_neg hfd, wlp_bind]
        apply wlp_conseq (wlp_burnFile h fuel fd reg)
        intro ret t hret
        refine ⟨trivial, fun r t' answer => ?_⟩
        cases answer with
        | closeFile => exact hret

/-- The first status, while the flash is being erased. -/
theorem misled_seeStatus_erasing (hmode : s.mode = BURNMODE_START_ERASE) (hclear : s.misled = false)
    (reg : BurnStaReg) : (s.seeStatus reg).misled =
      (decide (reg.burn_mode ≠ BURNMODE_ERASE_OK) && decide (reg.parameter = 0)) := by
  rw [seeStatus, hclear, misleads, hmode, if_pos rfl]
  rfl

/-- The result of every run is right exactly if no status it read is misleading. -/
theorem wlp_burnMcu (file : List UInt8) (fuel : Nat) (path : String) :
    (burnMcu fuel path).wlp world anyOp (Fits file) (start file) := by
  rw [burnMcu, wlp_bind]
  apply wlp_writeBurnMode
  · rw [if_neg (lt_irrefl (0 : Int)), wlp_bind]
    let erasing : BurnSeen := { start file with
      mode := BURNMODE_START_ERASE,
      finished := (start file).finished || [BURNMODE_START_ERASE] = [BURNMODE_FINISH_TRANSFER] }
    apply wlp_readBurnSta
    · intro reg
      have hmisled := @misled_seeStatus_erasing erasing rfl rfl reg
      dsimp only
      rw [if_neg (lt_irrefl (0 : Int))]
      by_cases herase : reg.burn_mode = BURNMODE_ERASE_OK
      · rw [decide_eq_false (not_not.mpr herase), Bool.false_and] at hmisled
        rw [if_neg (not_not.mpr herase), wlp_bind]
        apply wlp_writeBurnMode
        · rw [if_neg (lt_irrefl (0 : Int))]
          refine wlp_burnOpen ?_ fuel path _
          exact ⟨rfl, rfl, rfl, rfl, hmisled, rfl⟩
        · intro ret hret
          rw [if_pos hret]
          exact fits_of_neg hret hmisled
      · rw [decide_eq_true herase, Bool.true_and] at hmisled
        rw [if_pos herase]
        exact fits_neg_parameter hmisled (not_sound_of_unfinished rfl)
    · intro ret hret
      dsimp only
      rw [if_pos hret]
      exact fits_of_neg hret rfl
  · intro ret hret
    rw [if_pos hret]
    exact fits_of_neg hret rfl

end BurnSeen

/-- A burn that reports no error has burnt the file exactly if no status it read was one that the
code takes for something else. -/
theorem burn_success_sound {file : List UInt8} {fuel : Nat} {path : String} {ret : Int}
    {t : BurnSeen} (h : Exec BurnSeen.world (burnMcu fuel path) (.start file) ret t) :
    (0 ≤ ret → t.Sound file) ↔ t.misled = false := by
  have hfits : BurnSeen.Fits file ret t := wlp_exec (BurnSeen.wlp_burnMcu file fuel path) h
  exact hfits

/-! ### Given answers -/

/-- An MCU that takes everything and has room for 512 bytes, with the status it shows in each mode,
and a file that reads well. -/
def BurnSeen.device (status : UInt8 → BurnStaReg) (s : BurnSeen) :
    (o : RegOp) → RegOp.Ans o × BurnSeen
  | .readReg addr cnt _ =>
      let data := if addr = RWREG_BURN_START then (status s.mode).toBytes else leBytes 4 512
      let r : RegOp.Ans (.readReg addr cnt 0) :=
        .ok ⟨(data ++ List.replicate cnt.toNat 0).take cnt.toNat, by simp⟩
      (r, s.seeRead addr r)
  | .writeReg addr data _ => (.ok (), s.seeWrite addr data (.ok ()))
  | .openFile _ => (3, s)
  | .readFile _ count =>
      (.ok ⟨s.rest.take count, List.length_take_le _ _⟩,
        { s with rest := s.rest.drop count, fruitless := 0 })
  | .closeFile _ => ((), s)
  | .usleep _ => ((), s)

theorem BurnSeen.world_device (status : UInt8 → BurnStaReg) (s : BurnSeen) (o : RegOp) :
    BurnSeen.world s o (s.device status o).1 (s.device status o).2 := by
  cases o with
  | readReg addr cnt timeout => exact .readReg s addr cnt timeout _
  | writeReg addr data timeout => exact .writeReg s addr data timeout _
  | openFile path => exact .openFile s path 3
  | readFile fd count =>
      refine .readFile s fd count _ _ (List.take_append_drop count s.rest).symm fun hnil => ?_
      rcases List.take_eq_nil_iff.mp hnil with hcount | hrest
      · exact .inr hcount
      · exact .inl (by rw [hrest, List.drop_nil])
  | closeFile fd => exact .closeFile s fd
  | usleep usec => exact .usleep s usec

theorem BurnSeen.exec_device {status : UInt8 → BurnStaReg} {p : Prog RegI Int} {s t : BurnSeen}
    {ret : Int} (h : p.eval (BurnSeen.device status) s = some (ret, t)) :
    Exec BurnSeen.world p s ret t :=
  @exec_of_eval RegI BurnSeen BurnSeen Int BurnSeen.world (BurnSeen.device status) id
    (BurnSeen.world_device status) p s t ret h

/-- The MCU is still erasing when its status is read, and says so with the parameter 0: nothing is
transferred and the burn returns 0. -/
theorem burn_success_unsound :
    ¬ ∀ (file : List UInt8) (fuel : Nat) (path : String) (ret : Int) (t : BurnSeen),
      Exec BurnSeen.world (burnMcu fuel path) (.start file) ret t → 0 ≤ ret → t.Sound file := by
  intro h
  obtain ⟨t, hrun, hnothing⟩ : ∃ t, (burnMcu 1 "mcu.bin").eval
      (BurnSeen.device fun mode => ⟨mode, 0⟩) (.start [0x70]) = some (0, t) ∧ t.accepted = [] :=
    ⟨_, rfl, rfl⟩
  have hsound := h _ _ _ _ _ (BurnSeen.exec_device hrun) le_rfl
  rw [hsound.accepted] at hnothing
  exact absurd hnothing (by decide)

/-- What an MCU shows that has nothing to complain about. -/
def goodStatus (mode : UInt8) : BurnStaReg :=
  if mode = BURNMODE_START_ERASE then ⟨BURNMODE_ERASE_OK, 0⟩ else ⟨BURNMODE_FINISH_BURN, 0⟩

set_option maxRecDepth 20000 in
/-- Two chunks are burnt. -/
theorem burn_success_sound_two_chunks :
    ∃ t, Exec BurnSeen.world (burnMcu 3 "mcu.bin") (.start (List.replicate 513 0x70)) 0 t ∧
      t.Sound (List.replicate 513 0x70) := by
  obtain ⟨t, hrun, hclear⟩ : ∃ t, (burnMcu 3 "mcu.bin").eval (BurnSeen.device goodStatus)
      (.start (List.replicate 513 0x70)) = some (0, t) ∧ t.misled = false := ⟨_, rfl, rfl⟩
  have hexec := BurnSeen.exec_device hrun
  exact ⟨t, hexec, (burn_success_sound hexec).mpr hclear le_rfl⟩

end McuRegWr
