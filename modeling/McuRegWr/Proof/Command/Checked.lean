import McuRegWr.Base.History
import McuRegWr.Proof.Command.Footprint

/-!
# Commands that need a look first

Three commands take the MCU out of service: the way into the bootloader, the way out of it, and the
erasing of its memory. Each of them is sent right after a read that shows what it depends on, with
nothing in between, in every mode that sends it.
-/

namespace McuRegWr

open Base Prog Footprint

namespace Checked

/-- The last event is a successful read of the `McuInfo`, with a partition that meets `P`. -/
def Partition (P : UInt32 → Prop) (h : List RegI.Event) : Prop :=
  ∃ timeout bytes, P (infoPartition bytes.val) ∧
    h.getLast? = some ⟨.readReg ROREG_INFO_START MCU_INFO_SIZE timeout, .ok bytes⟩

/-- The last event is a successful read of the erase register, with the word `w`. -/
def EraseWord (w : UInt32) (h : List RegI.Event) : Prop :=
  ∃ timeout bytes, word32 bytes.val = w ∧
    h.getLast? = some ⟨.readReg (RWREG_MPU_BUSINESS_REG_START + NVM_ERASE) 4 timeout, .ok bytes⟩

end Checked

open Checked

/-- What comes right before the three commands in a run of a mode. -/
structure Checked (mode : RunFun) (h : List RegI.Event) (o : RegOp) : Prop where
  gotoBootloader : ∀ timeout,
    o = .writeReg RWREG_BURN_START [BURNMODE_APP_GOTO_BOOTLOADER] timeout →
    Partition (· ≠ BFP_BOOT) h
  exitBootloader : mode = .FUN_EXIT_BOOTLOADER →
    ∀ timeout, o = .writeReg RWREG_BURN_START [BURNMODE_EXIT_BURN] timeout →
      Partition (· = BFP_BOOT) h
  eraseNvm : ∀ data timeout,
    o = .writeReg (RWREG_MPU_BUSINESS_REG_START + NVM_ERASE) data timeout → EraseWord 0 h

namespace Checked

variable {mode : RunFun} {h : List RegI.Event} {F : Footprint} {α : Type}

theorem of_not_write {o : RegOp} (ho : ∀ a d timeout, o ≠ .writeReg a d timeout) :
    Checked mode h o :=
  ⟨fun _ heq => absurd heq (ho _ _ _), fun _ _ heq => absurd heq (ho _ _ _),
    fun _ _ heq => absurd heq (ho _ _ _)⟩

theorem readReg {a n : UInt16} {timeout : UInt32} : Checked mode h (.readReg a n timeout) :=
  of_not_write nofun

theorem usleep {usec : Nat} : Checked mode h (.usleep usec) := of_not_write nofun

theorem gotoBootloader_write {timeout : UInt32} (hmode : mode ≠ .FUN_EXIT_BOOTLOADER)
    (hpart : Partition (· ≠ BFP_BOOT) h) :
    Checked mode h (.writeReg RWREG_BURN_START [BURNMODE_APP_GOTO_BOOTLOADER] timeout) where
  gotoBootloader _ _ := hpart
  exitBootloader heq := absurd heq hmode
  eraseNvm _ _ heq := by
    injection heq with haddr
    exact absurd haddr (by decide)

/-- A footprint without the three commands. -/
structure Harmless (mode : RunFun) (F : Footprint) : Prop where
  gotoBootloader : ¬ F.writes RWREG_BURN_START [BURNMODE_APP_GOTO_BOOTLOADER]
  exitBootloader : mode = .FUN_EXIT_BOOTLOADER →
    ¬ F.writes RWREG_BURN_START [BURNMODE_EXIT_BURN]
  eraseNvm : ∀ data, ¬ F.writes (RWREG_MPU_BUSINESS_REG_START + NVM_ERASE) data

namespace Harmless

variable {F' : Footprint} {reg_addr offset : UInt16} {datas : List UInt8 → Prop}
  {cnts : UInt16 → Prop}

theorem union (hF : Harmless mode F) (hF' : Harmless mode F') : Harmless mode (F ∪ F') where
  gotoBootloader h := h.elim hF.gotoBootloader hF'.gotoBootloader
  exitBootloader hmode h := h.elim (hF.exitBootloader hmode) (hF'.exitBootloader hmode)
  eraseNvm data h := h.elim (hF.eraseNvm data) (hF'.eraseNvm data)

theorem reading : Harmless mode (reading reg_addr cnts) := ⟨by simp, by simp, by simp⟩

theorem opening (path : String) : Harmless mode (opening path) := ⟨by simp, by simp, by simp⟩

theorem writing (hburn : RWREG_BURN_START ≠ reg_addr)
    (hnvm : RWREG_MPU_BUSINESS_REG_START + NVM_ERASE ≠ reg_addr) :
    Harmless mode (writing reg_addr datas) :=
  ⟨fun h => hburn h.1, fun _ h => hburn h.1, fun _ h => hnvm h.1⟩

theorem commanding {burn_mode : UInt8} (hgoto : BURNMODE_APP_GOTO_BOOTLOADER ≠ burn_mode)
    (hmode : mode ≠ .FUN_EXIT_BOOTLOADER) : Harmless mode (commanding burn_mode) where
  gotoBootloader h := hgoto (List.cons.inj h.2).1
  exitBootloader h := absurd h hmode
  eraseNvm _ h := absurd h.1 (by decide)

theorem wdogFeeding : Harmless mode wdogFeeding := reading.union (writing (by decide) (by decide))

theorem canReceiving : Harmless mode canReceiving := reading.union reading

theorem canSending : Harmless mode (canSending datas) :=
  reading.union (writing (by decide) (by decide))

theorem fileBurning (path : String) (hmode : mode ≠ .FUN_EXIT_BOOTLOADER) :
    Harmless mode (fileBurning path) :=
  have hcommand {burn_mode : UInt8} (hgoto : BURNMODE_APP_GOTO_BOOTLOADER ≠ burn_mode) :=
    commanding hgoto hmode
  (((reading.union reading).union
    (((hcommand (by decide)).union (hcommand (by decide))).union (hcommand (by decide)) |>.union
      (hcommand (by decide)))).union
    (((writing (by decide) (by decide)).union reading).union
      (writing (by decide) (by decide)))).union (opening path)

end Harmless

theorem Harmless.checked (hF : Harmless mode F) {o : RegOp} (ho : F.Allows o) :
    Checked mode h o := by
  cases o with
  | writeReg a d timeout =>
      constructor
      · intro _ heq
        injection heq with haddr hdata
        subst haddr hdata
        exact absurd ho hF.gotoBootloader
      · intro hmode _ heq
        injection heq with haddr hdata
        subst haddr hdata
        exact absurd ho (hF.exitBootloader hmode)
      · intro _ _ heq
        injection heq with haddr
        subst haddr
        exact absurd ho (hF.eraseNvm d)
  | _ => exact of_not_write nofun

theorem Harmless.wlp (hF : Harmless mode F) {p : Prog RegI α} (hp : p.Asks F.Allows) :
    p.wlp recording (Checked mode) (fun _ _ => True) h :=
  hp.wlp_recording (K := fun _ => True) (fun _ _ _ ho => hF.checked ho) (fun _ _ _ _ _ => trivial)
    trivial

/-! ### The reads -/

theorem infoPartition_storeAt {bytes : List UInt8} (hlen : bytes.length = MCU_INFO_SIZE.toNat)
    (wr_buf : List UInt8) : infoPartition (storeAt wr_buf 0 bytes) = infoPartition bytes := by
  have hlen : bytes.length = 88 := hlen
  have hdrop : MCU_INFO_PARTITION ≤ bytes.length := by
    rw [hlen]
    decide
  have htake : 4 ≤ (bytes.drop MCU_INFO_PARTITION).length := by
    rw [List.length_drop, hlen]
    decide
  rw [infoPartition, infoPartition, storeAt, List.take_zero, List.nil_append,
    List.drop_append_of_le_length hdrop, List.take_append_of_le_length htake]

theorem wlp_commandMcu {stays : UInt32 → Bool} {burn_mode : UInt8}
    (hcheck : ∀ h, Partition (fun part => stays part = false) h →
      ∀ timeout, Checked mode h (.writeReg RWREG_BURN_START [burn_mode] timeout))
    (config : MainConfig) :
    (commandMcu config stays burn_mode).wlp recording (Checked mode) (fun _ _ => True) h := by
  refine wlp_recording readReg fun r => ?_
  cases r with
  | error code =>
      show wlp _ _ (if code.val < 0 then _ else _) _ _
      rw [if_pos code.property]
      trivial
  | ok bytes =>
      show wlp _ _ (if stays (infoPartition (storeAt config.wr_buf.val 0 bytes.val)) then _
        else _) _ _
      rw [infoPartition_storeAt bytes.property]
      split
      · trivial
      · rename_i hstays
        rw [writeBurnMode_eq]
        rw [Bool.not_eq_true] at hstays
        refine wlp_recording (hcheck _ ⟨200, bytes, hstays, ?_⟩ _) fun r => ?_
        · exact List.getLast?_concat
        · cases r <;> trivial

theorem wlp_update (fuel : Nat) (path : String) :
    (RVMcu.burnMcu fuel path).wlp recording (Checked .FUN_UPDATE) (fun _ _ => True) h := by
  have hrest : ∀ reg h, (RVMcu.burnChecked fuel path reg).wlp recording (Checked .FUN_UPDATE)
      (fun _ _ => True) h := fun reg _ =>
    (Harmless.fileBurning path (by decide)).wlp ((burns_fileBurning path).burnChecked fuel reg)
  refine wlp_recording readReg fun r => ?_
  cases r with
  | error code =>
      show wlp _ _ (if code.val < 0 then _ else _) _ _
      rw [if_pos code.property]
      trivial
  | ok bytes =>
      show wlp _ _ (if infoPartition (storeAt (List.replicate MCU_INFO_SIZE.toNat 0) 0 bytes.val) ≠
        BFP_BOOT then _ else _) _ _
      rw [infoPartition_storeAt bytes.property]
      split
      · rename_i hpart
        rw [writeBurnMode_eq]
        have hlooked : Partition (· ≠ BFP_BOOT) (h ++ [⟨.readReg ROREG_INFO_START MCU_INFO_SIZE 200,
            .ok bytes⟩]) := ⟨200, bytes, hpart, List.getLast?_concat⟩
        refine wlp_recording (gotoBootloader_write (by decide) hlooked) fun r => ?_
        cases r with
        | error code =>
            show wlp _ _ (if code.val < 0 then _ else _) _ _
            rw [if_pos code.property]
            trivial
        | ok _ => exact wlp_recording usleep fun _ => hrest _ _
      · exact hrest _ _

theorem wlp_cleanNvm (nvm_index : Int) :
    (RVMcu.cleanNvm nvm_index).wlp recording (Checked .FUN_CLEAN_NVM) (fun _ _ => True) h := by
  refine wlp_recording readReg fun r => ?_
  cases r with
  | error code =>
      show wlp _ _ (if code.val < 0 then _ else _) _ _
      rw [if_pos code.property]
      trivial
  | ok bytes =>
      show wlp _ _ (if word32 (storeAt (bytes32 0) 0 bytes.val) ≠ 0 then _ else _) _ _
      rw [storeAt_bytes32 bytes.property]
      split
      · trivial
      · rename_i hidle
        refine wlp_recording ⟨?_, nofun, ?_⟩ fun r => ?_
        · intro _ heq
          injection heq with haddr
          exact absurd haddr (by decide)
        · exact fun _ _ _ => ⟨200, bytes, not_not.mp hidle, List.getLast?_concat⟩
        · cases r <;> trivial

/-! ### The modes -/

/-- The modes that do not look at anything before they write. -/
theorem footprint_harmless (env : RunEnv) (config : ToolConfig)
    (hmode : config.mode ∉ [RunFun.FUN_RW, .FUN_UPDATE, .FUN_GOTO_BOOTLOADER,
      .FUN_EXIT_BOOTLOADER, .FUN_CLEAN_NVM]) :
    Harmless config.mode (footprint env config) := by
  unfold footprint
  cases hfun : config.mode with
  | FUN_RW => simp [hfun] at hmode
  | FUN_UPDATE => simp [hfun] at hmode
  | FUN_GOTO_BOOTLOADER => simp [hfun] at hmode
  | FUN_EXIT_BOOTLOADER => simp [hfun] at hmode
  | FUN_CLEAN_NVM => simp [hfun] at hmode
  | FUN_FORCE_UPDATE => exact .fileBurning _ (by decide)
  | FUN_SHOW_MCU_INFO => exact Harmless.reading.union .reading
  | FUN_READ_CAN_EVENT => exact Harmless.reading.union .reading
  | FUN_LOOK_MPU_DTC => exact .reading
  | FUN_SET_OR_CLEAN_MPU_DTC =>
      exact (Harmless.reading.union .wdogFeeding).union (.writing (by decide) (by decide))
  | FUN_MPU_ONLINE => exact .wdogFeeding
  | FUN_SEND_CAN_MSG => exact .canSending
  | FUN_LOOP_RECEIVE_CAN_MSG => exact (Harmless.writing (by decide) (by decide)).union .canReceiving
  | FUN_SETTING_WDOG => exact Harmless.wdogFeeding.union (.writing (by decide) (by decide))
  | FUN_RESET_MCU => exact .writing (by decide) (by decide)
  | FUN_SET_REARVIEW_TYPE => exact .writing (by decide) (by decide)
  | FUN_SET_MCU_DEBUG_LEVEL => exact .writing (by decide) (by decide)
  | FUN_CAN_ECHO_TEST => exact Harmless.canReceiving.union .canSending
  | FUN_WRITE_SHANQI_PRODUCTION_DATE => exact .writing (by decide) (by decide)

theorem wlp_run (env : RunEnv) (config : ToolConfig) (hmode : config.mode ≠ .FUN_RW) :
    (run env config).wlp recording (Checked config.mode) (fun _ _ => True) [] := by
  by_cases hlook : config.mode ∈ [RunFun.FUN_RW, .FUN_UPDATE, .FUN_GOTO_BOOTLOADER,
      .FUN_EXIT_BOOTLOADER, .FUN_CLEAN_NVM]
  · unfold run
    cases hfun : config.mode with
    | FUN_RW => exact absurd hfun hmode
    | FUN_UPDATE => exact wlp_update _ _
    | FUN_GOTO_BOOTLOADER =>
        apply wlp_commandMcu
        intro h hpart timeout
        obtain ⟨timeout, bytes, hstays, hlast⟩ := hpart
        exact gotoBootloader_write (by decide)
          ⟨timeout, bytes, beq_eq_false_iff_ne.mp hstays, hlast⟩
    | FUN_EXIT_BOOTLOADER =>
        apply wlp_commandMcu
        intro h hpart timeout
        refine ⟨fun _ heq => ?_, fun _ _ _ => ?_, fun _ _ heq => ?_⟩
        · injection heq with _ hdata
          exact absurd hdata (by decide)
        · obtain ⟨timeout, bytes, hstays, hlast⟩ := hpart
          exact ⟨timeout, bytes, bne_eq_false_iff_eq.mp hstays, hlast⟩
        · injection heq with haddr
          exact absurd haddr (by decide)
    | FUN_CLEAN_NVM => exact wlp_cleanNvm _
    | _ => simp [hfun] at hlook
  · exact (footprint_harmless env config hlook).wlp (asks_run env config)

end Checked

/-- In every run of every mode but the bare register access, the MCU is sent into the bootloader only
right after it has said that it is not in it, its memory is erased only right after the erase
register was seen idle, and the mode that leaves the bootloader does so only right after the MCU has
said that it is in it. -/
theorem commands_checked (env : RunEnv) (config : ToolConfig) (hmode : config.mode ≠ .FUN_RW)
    {t u : List RegI.Event} {e : RegI.Event} {q : Prog RegI Int}
    (hrun : Reach (run env config) (t ++ e :: u) q) : Checked config.mode t e.1 :=
  wlp_event (Checked.wlp_run env config hmode) hrun

/-- `-E 1` on an MCU that is not erasing. -/
theorem commands_checked_cleanNvm : ∃ t e u,
    Runs (run ⟨0, fun _ _ => 0, 0, 0⟩
        { ToolConfig.start with clean_nvm := 1, mode := .FUN_CLEAN_NVM }) (t ++ e :: u) 0 ∧
      e.1 = .writeReg 0x1072 [1, 0, 0, 0] 200 ∧ EraseWord 0 t := by
  let idle : RegI.Event := ⟨.readReg 0x1072 4 200, .ok ⟨[0, 0, 0, 0], rfl⟩⟩
  let erase : RegI.Event := ⟨.writeReg 0x1072 [1, 0, 0, 0] 200, .ok ()⟩
  have hrun : Runs (run ⟨0, fun _ _ => 0, 0, 0⟩
      { ToolConfig.start with clean_nvm := 1, mode := .FUN_CLEAN_NVM }) ([idle] ++ erase :: []) 0 :=
    .ask (.ask (.refl _))
  exact ⟨[idle], erase, [], hrun, rfl,
    (commands_checked _ _ (by decide) hrun).eraseNvm _ _ rfl⟩

end McuRegWr
