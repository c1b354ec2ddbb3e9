import McuRegWr.CommandLine
import McuRegWr.Proof.Business.Board
import McuRegWr.Proof.Business.DtcEdit
import McuRegWr.Proof.Command.Checked
import McuRegWr.Proof.Command.Frames

/-!
# Sessions of the tool

The modes of the tool that go by the fields of the MCU, as programs that get and set fields, and
whole sessions of command lines, down to the line.
-/

namespace McuRegWr

open Base Prog Board

/-- The modes that go by the fields alone. -/
def plainModes : List RunFun :=
  [.FUN_SHOW_MCU_INFO, .FUN_READ_CAN_EVENT, .FUN_LOOK_MPU_DTC, .FUN_SET_OR_CLEAN_MPU_DTC,
    .FUN_SETTING_WDOG, .FUN_RESET_MCU, .FUN_SET_REARVIEW_TYPE, .FUN_SET_MCU_DEBUG_LEVEL,
    .FUN_GOTO_BOOTLOADER, .FUN_EXIT_BOOTLOADER, .FUN_CLEAN_NVM, .FUN_WRITE_SHANQI_PRODUCTION_DATE]

/-- The four bytes that `RVMcu_ShanQiProductionDate` writes. -/
def MainConfig.date (config : MainConfig) : {bytes : List UInt8 // bytes.length = 4} :=
  ⟨config.wr_buf.val.take 4, by rw [List.length_take, config.wr_buf.property]; rfl⟩

/-- A command for the MCU unless its partition is one that `stays`. -/
def commandAct (stays : UInt32 → Bool) (burn_mode : UInt8) : Prog FieldI Int := do
  let mcu_info ← Field.get .mcu_info
  if stays (infoPartition mcu_info.val) then return 0
  Field.set .burn_mode burn_mode
  return 0

/-- What a mode is for. The CAN events are no fields. -/
def ToolConfig.act (config : ToolConfig) : Prog FieldI Int :=
  match config.mode with
  | .FUN_SHOW_MCU_INFO => do
      let _ ← Field.get .mcu_info
      let _ ← Field.get .is_left_rearview
      return 0
  | .FUN_LOOK_MPU_DTC => do
      let _ ← Field.get .dtc_map
      return 0
  | .FUN_SET_OR_CLEAN_MPU_DTC => do
      if config.set_dtc = config.clean_dtc then return 0
      let dtc_map ← Field.get .dtc_map
      let _ ← BusinessOp.act (.wdogFeed 0xff)
      Field.set .dtc_map (editedMap config.set_dtc config.clean_dtc dtc_map)
      return 0
  | .FUN_SETTING_WDOG =>
      BusinessOp.act (.wdogConfig (if !config.is_close_wdog && config.is_opne_wdog then 1 else 0))
  | .FUN_RESET_MCU => do
      Field.set .reset_mcu 1
      return 0
  | .FUN_SET_REARVIEW_TYPE => do
      Field.set .is_left_rearview config.rearview_type.toUInt8
      return 0
  | .FUN_SET_MCU_DEBUG_LEVEL => do
      Field.set .mcu_debug_level (UInt32.ofInt config.mcu_debug_level)
      return 0
  | .FUN_GOTO_BOOTLOADER => commandAct (· == BFP_BOOT) BURNMODE_APP_GOTO_BOOTLOADER
  | .FUN_EXIT_BOOTLOADER => commandAct (· != BFP_BOOT) BURNMODE_EXIT_BURN
  | .FUN_CLEAN_NVM => do
      let sta ← Field.get .nvm_erase
      if sta ≠ 0 then return -4
      Field.set .nvm_erase config.clean_nvm
      return 0
  | .FUN_WRITE_SHANQI_PRODUCTION_DATE => do
      Field.set .production_date config.date
      return 0
  | _ => return 0

theorem ofInt8_toInt (v : UInt32) : UInt8.ofInt v.toBitVec.toInt = v.toUInt8 := by
  have hback : (v.toBitVec.toInt % 256).toNat = v.toNat % 256 := by
    have hint := BitVec.toInt_eq_toNat_cond v.toBitVec
    have hnat : v.toBitVec.toNat = v.toNat := rfl
    omega
  apply UInt8.toNat_inj.mp
  rw [UInt8.ofInt, UInt8.toNat_ofNat', UInt32.toNat_toUInt8]
  norm_cast at hback ⊢
  omega

namespace Board

variable {ρ φ α : Type} {R : Registers ρ} {W : World SysI (Mcu ρ)} {kept : Set BoardField}
  {board : ρ → Board kept} {effect : Effect kept} {files : World FileI φ}
  (hW : Mcu.Faultless R W) (hR : R.Keeps board effect)
include hW hR

theorem does_funSetOrCleanMpuDtc (config : RunConfig) :
    Does R files board effect (do let (ret, _) ← funSetOrCleanMpuDtc config 0xff; return ret) (do
      if config.set_dtc = config.clean_dtc then return 0
      let dtc_map ← Field.get .dtc_map
      let _ ← BusinessOp.act (.wdogFeed 0xff)
      Field.set .dtc_map (editedMap config.set_dtc config.clean_dtc dtc_map)
      return 0) := by
  rw [funSetOrCleanMpuDtc]
  by_cases hsame : config.set_dtc = config.clean_dtc
  · rw [if_pos hsame, if_pos hsame]
    exact refines_pure 0
  · rw [if_neg hsame, if_neg hsame]
    rw [bind_assoc]
    refine BusinessOp.does_readMpuDtc_bind hW hR fun dtc_map => ?_
    dsimp only
    rw [if_neg (lt_irrefl (0 : Int)), setDtcBit_set, setDtcBit_clean, bind_assoc]
    refine (BusinessOp.does_wdogFeed hW hR 0xff).bind ?_
    rintro ⟨ret, last_cnt⟩
    dsimp only
    rw [bind_assoc]
    exact does_writeReg_bind hW hR .dtc_map
      (editedMap config.set_dtc config.clean_dtc dtc_map) (by rfl) (refines_pure 0)

theorem does_funShowMpuDtc :
    Does R files board effect funShowMpuDtc (do
      let dtc_map ← Field.get .dtc_map
      return (0, dbgInforaw "MPU DTC (只显示MPU可控故障):\r\n" [] ::
        ((List.range 12).filter fun i => getBit (bytes32 MPU_DTC_MAP_MASK) i ≠ 0).map
          (dtcLine dtc_map))) := by
  exact BusinessOp.does_readMpuDtc_bind hW hR fun dtc_map => refines_pure _

theorem does_commandMcu (config : MainConfig) (stays : UInt32 → Bool) (burn_mode : UInt8) :
    Does R files board effect (commandMcu config stays burn_mode) (commandAct stays burn_mode) := by
  refine does_readReg_bind hW hR .mcu_info (by rfl) _ fun mcu_info => ?_
  show Does R files board effect
    (if stays (infoPartition (storeAt config.wr_buf.val 0 mcu_info.val)) then _ else _)
    (if stays (infoPartition mcu_info.val) then _ else _)
  rw [Checked.infoPartition_storeAt mcu_info.property]
  by_cases hstays : stays (infoPartition mcu_info.val)
  · rw [if_pos hstays, if_pos hstays]
    exact refines_pure 0
  · rw [if_neg hstays, if_neg hstays]
    exact does_writeReg hW hR .burn_mode _ (by rfl)

theorem does_funShowMcuInfo (config : MainConfig) :
    Does R files board effect (do let (ret, _) ← funShowMcuInfo config; return ret) (do
      let _ ← Field.get .mcu_info
      let _ ← Field.get .is_left_rearview
      return 0) := by
  rw [funShowMcuInfo, bind_assoc]
  refine does_readReg_bind hW hR .mcu_info (by rfl) _ fun mcu_info => ?_
  show Does R files board effect (((RVMcu.getRearviewType 0) >>= _) >>= _) _
  rw [bind_assoc, RVMcu.getRearviewType, bind_assoc]
  refine does_readField_bind hW hR .is_left_rearview (by rfl) (by rfl) fun sta => ?_
  exact refines_pure 0

theorem does_funShowMcuCanEvent :
    Does R files board effect (do let shown ← funShowMcuCanEvent; return shown.ret) (return 0) := by
  rw [funShowMcuCanEvent, bind_assoc]
  refine does_readReg_other hW hR (by decide) fun valid => ?_
  dsimp only
  rw [if_neg (lt_irrefl (0 : Int))]
  split
  · exact refines_pure 0
  · rw [bind_assoc]
    refine does_readReg_other hW hR ?_ fun event => refines_pure 0
    have hlt : validMaxEvent valid CAN_EVENT_USE_CNT < CAN_EVENT_USE_CNT :=
      validMaxEvent_lt (by decide)
    have hsmall : CAN_EVENT_USE_CNT ≤ 1022 := by decide
    rw [UInt16.toNat_ofNat']
    omega

theorem does_run (env : RunEnv) {config : ToolConfig} (hmode : config.mode ∈ plainModes) :
    Does R files board effect (run env config) config.act := by
  unfold run ToolConfig.act
  cases hfun : config.mode with
  | FUN_SHOW_MCU_INFO => exact does_funShowMcuInfo hW hR _
  | FUN_READ_CAN_EVENT => exact does_funShowMcuCanEvent hW hR
  | FUN_LOOK_MPU_DTC => exact (does_funShowMpuDtc hW hR).bind fun _ => refines_pure _
  | FUN_SET_OR_CLEAN_MPU_DTC => exact does_funSetOrCleanMpuDtc hW hR config.toRunConfig
  | FUN_SETTING_WDOG =>
      have hsta : (if config.is_close_wdog then 0 else if config.is_opne_wdog then 1 else 0 : Int) =
          if !config.is_close_wdog && config.is_opne_wdog then 1 else 0 := by
        cases config.is_close_wdog <;> cases config.is_opne_wdog <;> rfl
      show Does R files board effect (RVMcu.wdogConfig (if config.is_close_wdog then 0 else
        if config.is_opne_wdog then 1 else 0)) _
      rw [hsta]
      exact BusinessOp.does_code hW hR (.wdogConfig _)
  | FUN_RESET_MCU => exact does_writeReg hW hR .reset_mcu _ (by rfl)
  | FUN_SET_REARVIEW_TYPE =>
      rw [← ofInt8_toInt]
      exact does_writeReg hW hR .is_left_rearview _ (by rfl)
  | FUN_SET_MCU_DEBUG_LEVEL => exact does_writeReg hW hR .mcu_debug_level _ (by rfl)
  | FUN_GOTO_BOOTLOADER => exact does_commandMcu hW hR _ _ _
  | FUN_EXIT_BOOTLOADER => exact does_commandMcu hW hR _ _ _
  | FUN_CLEAN_NVM =>
      have hdoes : Does R files board effect (RVMcu.cleanNvm config.clean_nvm.toBitVec.toInt) _ :=
        BusinessOp.does_cleanNvm hW hR _
      rw [BusinessOp.act, Footprint.ofInt_toInt] at hdoes
      exact hdoes
  | FUN_WRITE_SHANQI_PRODUCTION_DATE =>
      exact does_writeReg hW hR .production_date config.date (by rfl)
  | _ => simp [hfun, plainModes] at hmode

end Board

/-! ### Sessions -/

/-- Command lines, one process after the other, with what each of them ends with. -/
def session (calls : List (RunEnv × List CStr)) : Prog RegI (List Int) :=
  calls.mapM fun c => mainRun c.1 c.2

/-- A command line that ends before it touches the MCU, or has chosen a plain mode. -/
def isPlain (argv : List CStr) : Bool :=
  match mainConfig argv with
  | .error _ => true
  | .ok config => config.mode ∈ plainModes

/-- What a command line is for. -/
def mainAct (argv : List CStr) : Prog FieldI Int :=
  match mainConfig argv with
  | .error exit => return exit.status
  | .ok config => config.act

/-- What a session is for. -/
def sessionAct (calls : List (RunEnv × List CStr)) : Prog FieldI (List Int) :=
  calls.mapM fun c => mainAct c.2

theorem mode_of_isPlain {argv : List CStr} (hplain : isPlain argv) {config : ToolConfig}
    (hconfig : mainConfig argv = .ok config) : config.mode ∈ plainModes := by
  rw [isPlain, hconfig] at hplain
  exact of_decide_eq_true hplain

theorem fits_mainRun (env : RunEnv) {argv : List CStr} (hplain : isPlain argv) :
    (mainRun env argv).Asks RegOp.Fits := by
  unfold mainRun
  cases hconfig : mainConfig argv with
  | error exit => trivial
  | ok config =>
      have hmode := mode_of_isPlain hplain hconfig
      exact fits_run env fun h => absurd (h ▸ hmode) (by decide)

variable {calls : List (RunEnv × List CStr)}

theorem fits_session (hplain : ∀ c ∈ calls, isPlain c.2) :
    (session calls).Asks RegOp.Fits := by
  rw [session]
  induction calls with
  | nil => trivial
  | cons c calls ih =>
      rw [List.mapM_cons]
      have hhead := fits_mainRun c.1 (hplain c List.mem_cons_self)
      have htail := ih fun d hd => hplain d (List.mem_cons_of_mem c hd)
      exact hhead.bind fun ret => htail.bind fun rets => trivial

section

variable {ρ φ : Type} {R : Registers ρ} {W : World SysI (Mcu ρ)} {kept : Set BoardField}
  {board : ρ → Board kept} {effect : Effect kept} {files : World FileI φ}
  (hW : Mcu.Faultless R W) (hR : R.Keeps board effect)
include hW hR

theorem does_mainRun (env : RunEnv) {argv : List CStr} (hplain : isPlain argv) :
    Does R files board effect (mainRun env argv) (mainAct argv) := by
  unfold mainRun mainAct
  cases hconfig : mainConfig argv with
  | error exit => exact refines_pure exit.status
  | ok config => exact does_run hW hR env (mode_of_isPlain hplain hconfig)

theorem does_session (hplain : ∀ c ∈ calls, isPlain c.2) :
    Does R files board effect (session calls) (sessionAct calls) :=
  refines_mapM fun c hc => does_mainRun hW hR c.1 (hplain c hc)

/-- On a line without faults, whatever has been left on it, processes that are run one after the
other on plain command lines do what their command lines are for, on the fields that only the host
changes, whatever the others hold and whatever the MCU makes of a command. -/
theorem session_exact (h : SpiRegHandle) (hplain : ∀ c ∈ calls, isPlain c.2) :
    ((session calls).lower (SpiReg.access h)).Refines (Guard.alone W files)
      (Board.world effect) (fun s => board s.1.regs) (sessionAct calls) := by
  have hdoes : Does R files board effect (session calls) (sessionAct calls) :=
    does_session hW hR hplain
  exact (Mcu.refines_access hW h (fits_session hplain)).trans hdoes

end

/-- `-s 3`, an unknown option and `-x 1`. -/
def threeLines : List (RunEnv × List CStr) :=
  [["p", "-s", "3"], ["p", "-k"], ["p", "-x", "1"]].map fun argv =>
    (⟨0, fun _ _ => 0, 0, 0⟩, argv.map CStr.ofAscii)

theorem session_exact_threeLines :
    ((session threeLines).lower (SpiReg.access ⟨3, 4, 5⟩)).Ends
      (Guard.alone swiftMcu.line fun _ _ _ _ => False) (⟨fun _ => 0, .data [0x06], [SPI_ACK]⟩, ())
      fun r s => r = [0, 1, 0] ∧
        (s.1.regs.board : Board hostFields).dtcMap dtc_map_mem = 4 ∧ s.1.regs 0x1069 = 1 := by
  have hside : BoardField.is_left_rearview ∈ hostFields := by simp [hostFields]
  have hplain : ∀ c ∈ threeLines, isPlain c.2 := by decide
  refine (session_exact (Mcu.faultless_server _) keeps_swiftMcu _ hplain _ (fun r b =>
    r = [0, 1, 0] ∧ b.dtcMap dtc_map_mem = 4 ∧ b ⟨_, hside⟩ = (1 : UInt8)) ?_).mono ?_
  · refine ends_get fun dtc_map hdtc => ends_get fun cnt _ => ends_set rfl (ends_set rfl ?_)
    refine ends_set rfl ⟨rfl, ?_, put_self _ hside _⟩
    have hzero : dtc_map = (0 : UInt32) := hdtc dtc_map_mem
    subst hzero
    rfl
  · rintro r s ⟨hr, hdtc, hb⟩
    exact ⟨hr, hdtc, hb⟩

end McuRegWr
