import McuRegWr.General.Bits
import McuRegWr.RearviewMcu

/-!
# The commands of the tool

The modes of `run.c`, with the fields of `RunConfig` they read.
-/

namespace McuRegWr

open Base

def MPU_DTC_MAP_MASK : UInt32 := 0x0000078F

structure RunConfig where
  set_dtc : UInt32
  clean_dtc : UInt32

/-- `dtc && dtc <= 32 && Get_Bit(&dtc_map_mask, dtc-1)` -/
def controlsDtc (dtc : UInt32) : Bool :=
  dtc ≠ 0 && dtc ≤ 32 && getBit (bytes32 MPU_DTC_MAP_MASK) (dtc.toNat - 1) ≠ 0

/-- `Set_Bit(&dtc_map, dtc-1, val)` -/
def setDtcBit (dtc_map dtc : UInt32) (val : Int) : UInt32 :=
  word32 (setBit (bytes32 dtc_map) (dtc.toNat - 1) val)

/-- `fun_set_or_clean_mpu_dtc`. `last_cnt` is the static variable of `RVMcu_WdogFeed`. -/
def funSetOrCleanMpuDtc (config : RunConfig) (last_cnt : UInt8) : Prog RegI (Int × UInt8) := do
  if config.set_dtc = config.clean_dtc then return (0, last_cnt)
  let (ret, dtc_map) ← RVMcu.readMpuDtc 0
  if ret < 0 then return (-1, last_cnt)
  let dtc_map := if controlsDtc config.set_dtc then setDtcBit dtc_map config.set_dtc 1 else dtc_map
  let dtc_map :=
    if controlsDtc config.clean_dtc then setDtcBit dtc_map config.clean_dtc 0 else dtc_map
  let (_, last_cnt) ← RVMcu.wdogFeed last_cnt
  let ret ← RVMcu.writeMpuDtc dtc_map
  if ret < 0 then return (-1, last_cnt)
  return (0, last_cnt)

/-! ### The echo test -/

def TEST_CAN_BUF_SIZE : UInt32 := 64 - 4

/-- The variables of `fun_loop_can_echo_test`, with its two pointers as numbers of messages. -/
structure CanEcho where
  can_msg : List UInt8
  can_msg_pos : Nat
  can_msg_end : Nat
  test_msg_cnt : UInt32

/-- The variables before the first batch. -/
def CanEcho.start : CanEcho :=
  ⟨List.replicate (PCAN_MSG_SIZE.toNat * TEST_CAN_BUF_SIZE.toNat) 0, 0, 0, 0⟩

/-- One round of the two loops of `fun_loop_can_echo_test`: of the inner one while it has messages
to send, and else of the outer one up to the inner. -/
def canEchoRound (b : CanEcho) : Prog RegI (CanEcho ⊕ Int) := do
  if b.can_msg_pos < b.can_msg_end then
    let ret ← RVMcu.sendCanMsgBlock (b.can_msg.drop (PCAN_MSG_SIZE.toNat * b.can_msg_pos))
      (UInt32.ofNat (b.can_msg_end - b.can_msg_pos)) 100
    if ret < 0 then
      File.usleep 500
      return .inl b
    return .inl { b with can_msg_pos := b.can_msg_pos + ret.toNat }
  else
    let (ret, can_msg) ← RVMcu.receiveCanMsgBlock b.can_msg TEST_CAN_BUF_SIZE 100
    let b := { b with can_msg := can_msg }
    if ret < 0 then return .inl b
    if ret = 0 then
      File.usleep 500
      return .inl b
    return .inl { b with
      can_msg_pos := 0
      can_msg_end := ret.toNat
      test_msg_cnt := b.test_msg_cnt + UInt32.ofNat ret.toNat }

/-- `fun_loop_can_echo_test` never returns: it is what it has done within any number of rounds. -/
def funLoopCanEchoTest (fuel : Nat) : Prog RegI Int := Prog.loop canEchoRound fuel .start

/-! ### Register accesses -/

def WR_BUF_MAX : Nat := 1024

/-- `enum RUN_FUN` -/
inductive RunFun where
  | FUN_MPU_ONLINE
  | FUN_RW
  | FUN_SHOW_MCU_INFO
  | FUN_UPDATE
  | FUN_FORCE_UPDATE
  | FUN_READ_CAN_EVENT
  | FUN_LOOK_MPU_DTC
  | FUN_SET_OR_CLEAN_MPU_DTC
  | FUN_SEND_CAN_MSG
  | FUN_LOOP_RECEIVE_CAN_MSG
  | FUN_SETTING_WDOG
  | FUN_RESET_MCU
  | FUN_SET_REARVIEW_TYPE
  | FUN_SET_MCU_DEBUG_LEVEL
  | FUN_EXIT_BOOTLOADER
  | FUN_GOTO_BOOTLOADER
  | FUN_CLEAN_NVM
  | FUN_CAN_ECHO_TEST
  | FUN_WRITE_SHANQI_PRODUCTION_DATE
  deriving DecidableEq, Repr

/-- `RunConfig` with the fields that the command line fills in. The `is_` fields are truth values.
-/
structure MainConfig extends RunConfig where
  wr_buf : {bytes : List UInt8 // bytes.length = WR_BUF_MAX}
  reg_addr : UInt32
  reg_cnt : UInt16
  test_cnt : UInt32
  rearview_type : UInt32
  clean_nvm : UInt32
  mcu_debug_level : Int
  is_write : Bool
  is_show_mcu_info : Bool
  is_look_dtc : Bool
  is_loop_reveive : Bool
  is_read : Bool
  is_send_can : Bool
  is_read_can_event : Bool
  is_opne_wdog : Bool
  is_close_wdog : Bool
  is_reset_mcu : Bool
  is_exit_bootloader : Bool
  is_goto_bootloader : Bool
  is_can_echo_test : Bool
  is_write_shanqi_production_date : Bool
  mcu_firmware : Option String
  mcu_force_firmware : Option String
  mode : RunFun

/-- `make_data`, with the values of `rand()` after the seeding. -/
def makeData (rand : Nat → UInt8) (wr_buf : List UInt8) (cnt : UInt16) : List UInt8 :=
  storeAt wr_buf 0 ((List.range cnt.toNat).map rand)

/-- The variables of `_run_test`. -/
structure RunTest where
  i : UInt32
  wr_buf : List UInt8

/-- One round of `_run_test`. `rand i` are the values of `rand()` in test `i`. -/
def runTestRound (rand : UInt32 → Nat → UInt8) (config : MainConfig) (s : RunTest) :
    Prog RegI (RunTest ⊕ Int) := do
  if s.i < config.test_cnt then
    if config.is_write then
      let wr_buf := makeData (rand s.i) s.wr_buf config.reg_cnt
      let _ ← RVMcu.writeReg config.reg_addr.toUInt16 wr_buf config.reg_cnt 400
      return .inl ⟨s.i + 1, wr_buf⟩
    else
      let (_, wr_buf) ← RVMcu.readReg config.reg_addr.toUInt16 s.wr_buf config.reg_cnt 400
      return .inl ⟨s.i + 1, wr_buf⟩
  else return .inr 0

/-- `_run_test`. Every round but the last counts a test, so the fuel is never used up. -/
def runTest (rand : UInt32 → Nat → UInt8) (config : MainConfig) : Prog RegI Int :=
  Prog.loop (runTestRound rand config) (config.test_cnt.toNat + 1) ⟨0, config.wr_buf.val⟩

/-- `fun_wr` -/
def funWr (rand : UInt32 → Nat → UInt8) (config : MainConfig) : Prog RegI Int := do
  if config.test_cnt ≠ 0 then runTest rand config
  else if config.is_write then
    let ret ← RVMcu.writeReg config.reg_addr.toUInt16 config.wr_buf.val config.reg_cnt 400
    if ret < 0 then return -1
    return 0
  else
    let (ret, _) ← RVMcu.readReg config.reg_addr.toUInt16 config.wr_buf.val config.reg_cnt 400
    if ret < 0 then return -1
    return 0

end McuRegWr
