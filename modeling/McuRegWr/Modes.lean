import McuRegWr.CanEvent
import McuRegWr.CanMsg
import McuRegWr.General.HexDump
import McuRegWr.Main
import McuRegWr.MpuBusiness

/-!
# The modes of the tool

The other modes of `run.c`, and `run`, which goes to the mode that the command line has chosen.
-/

namespace McuRegWr

open Base

/-- `offsetof(McuInfo, ..)` -/
def MCU_INFO_SN : Nat := 4
def MCU_INFO_SOFTWARE_MODEL : Nat := 40

/-- A string that begins at an offset, as `%s` prints it. -/
def stringAt (bytes : List UInt8) (off : Nat) : String :=
  String.ofList (((bytes.drop off).takeWhile (· ≠ 0)).map fun b => Char.ofNat b.toNat)

/-- `RunConfig` with the field that only the receiving of messages reads. -/
structure ToolConfig extends MainConfig where
  is_can_print_asc : Bool

/-- The values of `run_config` before the options are parsed. -/
def ToolConfig.start : ToolConfig := { MainConfig.start with is_can_print_asc := false }

/-- What a run meets that its configuration does not say: the bound on the rounds of the loops
without one, the values of `rand()`, and the variables of `fun_loop_receive_can_msg` that are not
initialized. -/
structure RunEnv where
  fuel : Nat
  rand : UInt32 → Nat → UInt8
  last_rtime : UInt16
  rtime : Rat

/-- The last branch of `fun_wr`, with the dump it prints. -/
def funRead (config : MainConfig) : Prog RegI (Int × List (List UInt8)) := do
  let (ret, wr_buf) ← RVMcu.readReg config.reg_addr.toUInt16 config.wr_buf.val config.reg_cnt 400
  if ret < 0 then return (-1, [])
  return (0, debugPhex wr_buf config.reg_cnt.toNat)

theorem funWr_read (rand : UInt32 → Nat → UInt8) {config : MainConfig} (hcnt : config.test_cnt = 0)
    (hread : config.is_write = false) :
    funWr rand config = (do
      let (ret, _) ← funRead config
      return ret) := by
  rw [funWr, if_neg (not_not.mpr hcnt), hread, funRead, bind_assoc]
  refine congrArg (_ >>= ·) (funext fun (ret, wr_buf) => ?_)
  dsimp only
  split <;> rfl

/-- `mcu_info->partition` in `wr_buf` after a read of the `McuInfo`. -/
def infoPartition (wr_buf : List UInt8) : UInt32 :=
  word32 ((wr_buf.drop MCU_INFO_PARTITION).take 4)

def readMcuInfo (wr_buf : List UInt8) : Prog RegI (Int × List UInt8) :=
  RVMcu.readReg ROREG_INFO_START wr_buf MCU_INFO_SIZE 200

/-- The lines of `fun_show_mcu_info` about the `McuInfo`. -/
def mcuInfoLines (mcu_info : List UInt8) : List DbgLine :=
  let partition := infoPartition mcu_info
  [dbgInforaw "mcu mode: %s\n" [.str (if partition = BFP_BOOT then "bootloader"
      else if partition = BFP_APP_A then "app_A" else "app_B")],
    dbgInforaw "mcu sn: %s\n" [.str (stringAt mcu_info MCU_INFO_SN)],
    dbgInforaw "mcu software model: %s\n" [.str (stringAt mcu_info MCU_INFO_SOFTWARE_MODEL)],
    dbgInforaw "mcu ver: V%d.%d.%d\n" [.int (mcu_info.getD 0 0).toNat,
      .int (mcu_info.getD 1 0).toNat, .int (mcu_info.getD 2 0).toNat]]

/-- `fun_show_mcu_info`, with the lines it prints. -/
def funShowMcuInfo (config : MainConfig) : Prog RegI (Int × List DbgLine) := do
  let (ret, mcu_info) ← readMcuInfo config.wr_buf.val
  if ret < 0 then
    return (-1, [dbgErrfl "fun_show_mcu_info" 95 "SpiReg_Read error! ret = %d" [.int ret]])
  let (ret, is_left_rearview) ← RVMcu.getRearviewType 0
  if ret = 0 then
    return (0, mcuInfoLines mcu_info ++ [dbgInforaw "rearview type: %s\n"
      [.str (if is_left_rearview ≠ 0 then "左镜" else "右镜")]])
  return (0, mcuInfoLines mcu_info)

/-- The line of a fault. -/
def dtcLine (dtc_map : UInt32) (i : Nat) : DbgLine :=
  dbgInforaw "DTC: %02d     %d\r\n" [.int (i + 1), .int (getBit (bytes32 dtc_map) i).toNat]

/-- `fun_show_mpu_dtc`, with the lines it prints. -/
def funShowMpuDtc : Prog RegI (Int × List DbgLine) := do
  let (ret, dtc_map) ← RVMcu.readMpuDtc 0
  if ret < 0 then
    return (-1, [dbgErrfl "fun_show_mpu_dtc" 338 "RVMcu_ReadDtc error! ret = %d" [.int ret]])
  return (0, dbgInforaw "MPU DTC (只显示MPU可控故障):\r\n" [] ::
    ((List.range 12).filter fun i => getBit (bytes32 MPU_DTC_MAP_MASK) i ≠ 0).map (dtcLine dtc_map))

/-- One round of `fun_mpu_online`. -/
def mpuOnlineRound (last_cnt : UInt8) : Prog RegI (UInt8 ⊕ Int) := do
  File.usleep 100000
  let (_, last_cnt) ← RVMcu.wdogFeed last_cnt
  return .inl last_cnt

/-- `fun_mpu_online` never returns: it is what it has done within any number of rounds. -/
def funMpuOnline (fuel : Nat) (last_cnt : UInt8) : Prog RegI Int :=
  Prog.loop mpuOnlineRound fuel last_cnt

/-- The message `fun_send_can_msg` sends. -/
def sentCanMsg (config : MainConfig) : PCanMsg :=
  let can_len := if config.reg_cnt > 8 then 8 else config.reg_cnt.toUInt8
  ⟨config.reg_addr, storeAt (List.replicate 8 0) 0 (config.wr_buf.val.take can_len.toNat), 0,
    can_len, 0⟩

/-- The bytes of a message, on this host. -/
def PCanMsg.toBytes (msg : PCanMsg) : List UInt8 :=
  bytes32 msg.can_id ++ msg.can_data ++ leBytes 2 msg.can_time.toNat ++ [msg.can_len, msg.flag]

/-- `fun_send_can_msg` -/
def funSendCanMsg (config : MainConfig) : Prog RegI Int :=
  RVMcu.sendCanMsg (sentCanMsg config).toBytes 200

/-- `fun_setting_wdog` -/
def funSettingWdog (config : MainConfig) : Prog RegI Int :=
  let sta : Int := if config.is_close_wdog then 0 else if config.is_opne_wdog then 1 else 0
  RVMcu.wdogConfig sta

/-- The body of `fun_goto_bootloader` and `fun_exit_bootloader`: a command that the MCU gets unless
the partition it runs is one that `stays`. -/
def commandMcu (config : MainConfig) (stays : UInt32 → Bool) (burn_mode : UInt8) :
    Prog RegI Int := do
  let (ret, mcu_info) ← readMcuInfo config.wr_buf.val
  if ret < 0 then return -1
  if stays (infoPartition mcu_info) then return 0
  writeBurnMode ⟨burn_mode, 0⟩ 200

/-- `fun_goto_bootloader` -/
def funGotoBootloader (config : MainConfig) : Prog RegI Int :=
  commandMcu config (· == 0) BURNMODE_APP_GOTO_BOOTLOADER

/-- `fun_exit_bootloader` -/
def funExitBootloader (config : MainConfig) : Prog RegI Int :=
  commandMcu config (· != 0) BURNMODE_EXIT_BURN

/-- `run`, without the lines it prints. The watchdog has not been fed before. -/
def run (env : RunEnv) (config : ToolConfig) : Prog RegI Int :=
  match config.mode with
  | .FUN_RW => funWr env.rand config.toMainConfig
  | .FUN_SHOW_MCU_INFO => do
      let (ret, _) ← funShowMcuInfo config.toMainConfig
      return ret
  | .FUN_UPDATE => RVMcu.burnMcu env.fuel (config.mcu_firmware.getD "")
  | .FUN_FORCE_UPDATE => RVMcu.forceBurnMcu env.fuel (config.mcu_force_firmware.getD "")
  | .FUN_READ_CAN_EVENT => do
      let shown ← funShowMcuCanEvent
      return shown.ret
  | .FUN_LOOK_MPU_DTC => do
      let (ret, _) ← funShowMpuDtc
      return ret
  | .FUN_SET_OR_CLEAN_MPU_DTC => do
      let (ret, _) ← funSetOrCleanMpuDtc config.toRunConfig 0xff
      return ret
  | .FUN_MPU_ONLINE => funMpuOnline env.fuel 0xff
  | .FUN_SEND_CAN_MSG => funSendCanMsg config.toMainConfig
  | .FUN_LOOP_RECEIVE_CAN_MSG =>
      funLoopReceiveCanMsg config.is_can_print_asc env.last_rtime env.rtime env.fuel
  | .FUN_SETTING_WDOG => funSettingWdog config.toMainConfig
  | .FUN_RESET_MCU => RVMcu.mcuReset
  | .FUN_SET_REARVIEW_TYPE => RVMcu.setRearviewType config.rearview_type.toBitVec.toInt
  | .FUN_SET_MCU_DEBUG_LEVEL => RVMcu.setMcuDbgLevel config.mcu_debug_level
  | .FUN_GOTO_BOOTLOADER => funGotoBootloader config.toMainConfig
  | .FUN_EXIT_BOOTLOADER => funExitBootloader config.toMainConfig
  | .FUN_CLEAN_NVM => RVMcu.cleanNvm config.clean_nvm.toBitVec.toInt
  | .FUN_CAN_ECHO_TEST => funLoopCanEchoTest env.fuel
  | .FUN_WRITE_SHANQI_PRODUCTION_DATE => RVMcu.shanQiProductionDate config.wr_buf.val

end McuRegWr
