import McuRegWr.Base.History
import McuRegWr.Proof.Command.Footprint

/-!
# The firmware file

A burn opens its file twice, once for the partition in its head and once for the data, and leaves
the second time by a `goto` from inside three loops. A monitor follows the descriptor.
-/

namespace McuRegWr

open Base Prog Footprint

/-- The descriptor that is open after an event. -/
def fileAfter (open_fd : Option Int) : RegI.Event → Option Int
  | ⟨.openFile _, fd⟩ => if (fd : Int) < 0 then open_fd else some fd
  | ⟨.closeFile _, _⟩ => none
  | _ => open_fd

/-- The descriptor that is open after a run. -/
def openFd (t : List RegI.Event) : Option Int := t.foldl fileAfter none

/-- A file is opened when none is open, and what is read or closed is the open descriptor. -/
def FileUse (open_fd : Option Int) : RegOp → Prop
  | .openFile _ => open_fd = none
  | .readFile fd _ => open_fd = some fd
  | .closeFile fd => open_fd = some fd
  | _ => True

/-- No operation on a file. -/
def NoFile : RegOp → Prop
  | .openFile _ => False
  | .readFile _ _ => False
  | .closeFile _ => False
  | _ => True

namespace FileUse

variable {F : Footprint} {path : String} {α : Type} {open_fd : Option Int} {timeout : UInt32}

theorem noFile_of_allows (hF : ∀ path, ¬ F.opens path) {o : RegOp} (ho : F.Allows o) :
    NoFile o := by
  cases o with
  | openFile path => exact absurd ho (hF path)
  | readFile fd count => exact absurd ho (not_exists.mpr hF)
  | closeFile fd => exact absurd ho (not_exists.mpr hF)
  | _ => trivial

theorem wlp_noFile {Q : α → Option Int → Prop} {p : Prog RegI α} (hp : p.Asks NoFile)
    (hQ : ∀ a, Q a open_fd) : p.wlp (watching fileAfter) FileUse Q open_fd := by
  refine hp.wlp_watching (fun o ho => ?_) (fun o r ho => ?_) hQ
  · cases o <;> first | exact ho.elim | trivial
  · cases o <;> first | exact ho.elim | rfl

theorem burnsRegs : BurnsRegs burningRegs := ⟨fun _ _ => id, fun _ _ => id⟩

theorem noFile_burningRegs {p : Prog RegI α} (hp : p.Asks burningRegs.Allows) :
    p.Asks NoFile :=
  hp.mono fun _ => noFile_of_allows (by simp [burningRegs, readingInfo, commanding])

theorem noFile_writeBurnMode {reg : BurnStaReg} :
    (writeBurnMode reg timeout).Asks NoFile :=
  RVMcu.asks_writeReg trivial

theorem noFile_readBurnSta {reg : BurnStaReg} : (readBurnSta reg timeout).Asks NoFile :=
  noFile_burningRegs burnsRegs.readBurnSta

theorem noFile_readPartition : (RVMcu.readPartition timeout).Asks NoFile :=
  noFile_burningRegs burnsRegs.readPartition

theorem wlp_burnFile (fuel : Nat) (fd : Int) (reg : BurnStaReg) :
    (burnFile fuel fd reg).wlp (watching fileAfter) FileUse (fun _ s => s = some fd) (some fd) := by
  rw [burnFile, wlp_bind]
  refine wlp_loop (fun _ s => s = some fd) ?_ fuel rfl
  rintro reg _ rfl
  refine wlp_watching rfl fun r => wlp_conseq (wlp_noFile (Q := fun _ s => s = some fd)
    (noFile_burningRegs (burnsRegs.burnFileRound reg r)) fun _ => rfl) ?_
  rintro (reg | r) _ rfl
  · exact rfl
  · exact wlp_noFile (noFile_burningRegs (burnsRegs.burnFinish fuel r)) fun _ => rfl

theorem wlp_close {Q : Int → Option Int → Prop} (fd ret : Int) (hQ : Q ret none) :
    (do File.close fd; return ret : Prog RegI Int).wlp (watching fileAfter) FileUse Q (some fd) :=
  wlp_watching rfl fun _ => hQ

theorem wlp_burnMcu (fuel : Nat) (path : String) :
    (burnMcu fuel path).wlp (watching fileAfter) FileUse (fun _ s => s = none) none := by
  rw [burnMcu]
  dsimp only
  rw [wlp_bind]
  refine wlp_noFile noFile_writeBurnMode fun ret => ?_
  split
  · rfl
  rw [wlp_bind]
  refine wlp_noFile noFile_readBurnSta fun (ret, reg) => ?_
  dsimp only
  split
  · rfl
  split
  · rfl
  rw [wlp_bind]
  refine wlp_noFile noFile_writeBurnMode fun ret => ?_
  split
  · rfl
  rw [wlp_bind]
  refine wlp_noFile (noFile_burningRegs (asks_clean (burnsRegs.writes _ _ (by simp [burningRegs]))))
    fun _ => wlp_watching rfl fun fd => ?_
  show wlp _ _ (if (fd : Int) < 0 then _ else _) _ (if (fd : Int) < 0 then _ else _)
  split
  · rfl
  · rw [wlp_bind]
    refine wlp_conseq (wlp_burnFile fuel fd _) ?_
    rintro ret _ rfl
    exact wlp_close fd ret rfl

theorem wlp_getBurnFirmwarePart (path : String) :
    (getBurnFirmwarePart path).wlp (watching fileAfter) FileUse (fun _ s => s = none) none := by
  refine wlp_watching rfl fun fd => ?_
  show wlp _ _ (if (fd : Int) < 0 then _ else _) _ (if (fd : Int) < 0 then _ else _)
  split
  · rfl
  refine wlp_watching rfl fun r => ?_
  cases r with
  | error code => exact wlp_close fd _ rfl
  | ok head_data =>
      show wlp _ _ (if head_data.val.length ≠ HEAD_DATA_SIZE then _ else _) _ _
      split
      · exact wlp_close fd _ rfl
      split <;> exact wlp_close fd _ rfl

theorem wlp_burnChecked (fuel : Nat) (path : String) (reg : BurnStaReg) :
    (RVMcu.burnChecked fuel path reg).wlp (watching fileAfter) FileUse (fun _ s => s = none)
      none := by
  rw [RVMcu.burnChecked, wlp_bind]
  refine wlp_noFile noFile_readBurnSta fun (ret, reg) => ?_
  dsimp only
  split
  · rfl
  split
  · rfl
  split
  · rw [wlp_bind]
    refine wlp_conseq (wlp_getBurnFirmwarePart path) ?_
    rintro part _ rfl
    split
    · exact wlp_noFile (noFile_writeBurnMode.bind fun _ => trivial) fun _ => rfl
    · exact wlp_burnMcu fuel path
  · exact wlp_burnMcu fuel path

theorem wlp_update (fuel : Nat) (path : String) :
    (RVMcu.burnMcu fuel path).wlp (watching fileAfter) FileUse (fun _ s => s = none) none := by
  rw [RVMcu.burnMcu]
  dsimp only
  rw [wlp_bind]
  refine wlp_noFile noFile_readPartition fun (ret, partition) => ?_
  dsimp only
  split
  · rfl
  split
  · rw [wlp_bind]
    refine wlp_noFile noFile_writeBurnMode fun ret => ?_
    split
    · rfl
    · exact wlp_watching trivial fun _ => wlp_burnChecked fuel path _
  · exact wlp_burnChecked fuel path _

theorem wlp_forceUpdate (fuel : Nat) (path : String) :
    (RVMcu.forceBurnMcu fuel path).wlp (watching fileAfter) FileUse (fun _ s => s = none) none := by
  have hround : ∀ u, (RVMcu.forceRound u).Asks NoFile := by
    intro u
    apply noFile_readPartition.bind
    intro (ret, partition)
    dsimp only
    split <;> trivial
  rw [RVMcu.forceBurnMcu, wlp_bind]
  exact wlp_noFile (asks_loop hround fuel ()) fun _ => wlp_burnChecked fuel path _

theorem footprint_noFile (env : RunEnv) (config : ToolConfig) (hmode : config.mode ≠ .FUN_UPDATE)
    (hforce : config.mode ≠ .FUN_FORCE_UPDATE) (path : String) :
    ¬ (footprint env config).opens path := by
  unfold footprint
  cases hfun : config.mode with
  | FUN_UPDATE => exact absurd hfun hmode
  | FUN_FORCE_UPDATE => exact absurd hfun hforce
  | FUN_RW => cases config.is_write <;> simp
  | _ => simp [readingInfo, readingField, writingField, commanding, wdogFeeding, canSending,
      canReceiving]

theorem wlp_run (env : RunEnv) (config : ToolConfig) :
    (run env config).wlp (watching fileAfter) FileUse (fun _ s => s = none) none := by
  by_cases hupdate : config.mode = .FUN_UPDATE
  · rw [run, hupdate]
    exact wlp_update _ _
  by_cases hforce : config.mode = .FUN_FORCE_UPDATE
  · rw [run, hforce]
    exact wlp_forceUpdate _ _
  · have hnone := footprint_noFile env config hupdate hforce
    exact wlp_noFile ((asks_run env config).mono fun _ => noFile_of_allows hnone) fun _ => rfl

end FileUse

/-- In every run of every mode, whatever the MCU and the files answer, the firmware file is opened
only when it is not open, only its open descriptor is read or closed, and when the mode returns it
has been closed as often as it was opened. -/
theorem files_closed (env : RunEnv) (config : ToolConfig) :
    (∀ t e u q, Reach (run env config) (t ++ e :: u) q → FileUse (openFd t) e.1) ∧
      ∀ t ret, Runs (run env config) t ret → openFd t = none :=
  ⟨fun _ _ _ _ hrun => wlp_watched (FileUse.wlp_run env config) hrun,
    fun t _ hrun => wlp_exec (s := none) (t := openFd t) (FileUse.wlp_run env config)
      (steps_watching hrun none)⟩

end McuRegWr
