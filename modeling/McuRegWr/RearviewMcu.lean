import McuRegWr.RegwrCb

/-!
# The mirror's MCU

`rearview_mcu.c`: burning the MCU's firmware, its CAN rings, its watchdog and its fault map.
-/

namespace McuRegWr

open Base

def BURNMODE_FORBID : UInt8 := 0
def BURNMODE_WAIT_BURN : UInt8 := 1
def BURNMODE_START_ERASE : UInt8 := 2
def BURNMODE_ERASE_OK : UInt8 := 3
def BURNMODE_START_BURN : UInt8 := 4
def BURNMODE_FINISH_TRANSFER : UInt8 := 5
def BURNMODE_FINISH_BURN : UInt8 := 6
def BURNMODE_BURN_ERROR : UInt8 := 7
def BURNMODE_EXIT_BURN : UInt8 := 8
def BURNMODE_APP_GOTO_BOOTLOADER : UInt8 := 0xFF

def BFP_BOOT : UInt32 := 0
def BFP_APP_A : UInt32 := 1
def BFP_APP_B : UInt32 := 2

structure BurnStaReg where
  burn_mode : UInt8
  parameter : UInt8
  deriving DecidableEq, Repr

namespace BurnStaReg

def toBytes (reg : BurnStaReg) : List UInt8 := [reg.burn_mode, reg.parameter]

def ofBytes (bytes : List UInt8) : BurnStaReg := ⟨bytes.getD 0 0, bytes.getD 1 0⟩

theorem ofBytes_storeAt {bytes : List UInt8} (h : bytes.length = 2) (reg : BurnStaReg) :
    ofBytes (storeAt reg.toBytes 0 bytes) = .ofBytes bytes := by
  match bytes, h with
  | [_, _], _ => rfl

end BurnStaReg

def ROREG_INFO_START : UInt16 := 0x0000
def RWREG_BURN_START : UInt16 := 0x1400
/-- Behind the two bytes of a `BurnStaReg`. -/
def RWREG_CB_BURN_START : UInt16 := 0x1402
def RWREG_CB_MPU_BUSINESS_SEND_CAN_START : UInt16 := 0x1000
def RWREG_CB_MPU_BUSINESS_RECEIVE_CAN_START : UInt16 := 0x1008
def RWREG_MPU_BUSINESS_REG_START : UInt16 := 0x1010

/-- The size of a `McuInfo`, and where its `partition` lies. -/
def MCU_INFO_SIZE : UInt16 := 88
def MCU_INFO_PARTITION : Nat := 36

/-- `'p' | 'i' << 8 | '_' << 16 | '_' << 24` -/
def PROGRAM_MAGIC : UInt32 := 0x5f5f6970
def PROGRAM_INFO_START_ADDR : Nat := 0x410
/-- Where `part` lies in a `ProgramInfo`. -/
def PROGRAM_INFO_PART : Nat := 20
/-- The size of `head_data`. -/
def HEAD_DATA_SIZE : Nat := 0x1000

def BURN_WR_MAX_RETRY : Nat := 5
def BURN_PARTICLE_SIZE : Nat := 512

/-- The size of a `PCanMsg`. -/
def PCAN_MSG_SIZE : UInt32 := 16

/-- `offsetof(MpuBusinessReg, ..)` -/
def MPU_ONLINE_CNT : UInt16 := 1
def OFFLINE_TIMEOUT_RESET : UInt16 := 2
def DTC_MAP : UInt16 := 4

def regWrCbHandle : RegWrCbHandle RegI := ⟨RVMcu.writeReg, RVMcu.readReg⟩

/-! ### Burning -/

/-- `_GetBurnFirmwarePart` -/
def getBurnFirmwarePart (mcu_firmware_path : String) : Prog RegI Int := do
  let firmware_fd ← File.openRdonly mcu_firmware_path
  if firmware_fd < 0 then return -1
  match ← File.read firmware_fd HEAD_DATA_SIZE with
  | .error ret =>
      File.close firmware_fd
      return ret.val
  | .ok head_data =>
      if head_data.val.length ≠ HEAD_DATA_SIZE then
        File.close firmware_fd
        return head_data.val.length
      let info := head_data.val.drop PROGRAM_INFO_START_ADDR
      if word32 (info.take 4) ≠ PROGRAM_MAGIC then
        File.close firmware_fd
        return -1
      File.close firmware_fd
      return int32 ((info.drop PROGRAM_INFO_PART).take 4)

/-- `RVMcu_ReadReg(RWREG_BURN_START, (uint8_t *)&reg, sizeof(reg), timeout)` -/
def readBurnSta (reg : BurnStaReg) (timeout : UInt32) : Prog RegI (Int × BurnStaReg) := do
  let (ret, bytes) ← RVMcu.readReg RWREG_BURN_START reg.toBytes 2 timeout
  return (ret, .ofBytes bytes)

/-- `RVMcu_WriteReg(RWREG_BURN_START, (uint8_t*)&reg, sizeof(reg.burn_mode), timeout)` -/
def writeBurnMode (reg : BurnStaReg) (timeout : UInt32) : Prog RegI Int :=
  RVMcu.writeReg RWREG_BURN_START reg.toBytes 1 timeout

theorem readBurnSta_eq (reg : BurnStaReg) (timeout : UInt32) :
    readBurnSta reg timeout =
      .ask (.readReg RWREG_BURN_START 2 timeout) fun
        | .error code => .done (code.val, reg)
        | .ok bytes => .done (0, .ofBytes bytes.val) := by
  refine congrArg (@Prog.ask RegI _ _) (funext fun ans => ?_)
  cases ans with
  | error code => rfl
  | ok bytes =>
      show Prog.done ((0 : Int), BurnStaReg.ofBytes (storeAt reg.toBytes 0 bytes.val)) = _
      rw [BurnStaReg.ofBytes_storeAt bytes.property]

theorem writeBurnMode_eq (reg : BurnStaReg) (timeout : UInt32) :
    writeBurnMode reg timeout =
      .ask (.writeReg RWREG_BURN_START [reg.burn_mode] timeout) fun
        | .error code => .done code.val
        | .ok _ => .done 0 := by
  refine congrArg (@Prog.ask RegI _ _) (funext fun ans => ?_)
  cases ans <;> rfl

/-- The variables of the loop over one chunk. -/
structure ChunkState where
  start : Nat
  retry : Nat
  reg : BurnStaReg

/-- One round of `while(start < end)`. A round that leaves has written the whole chunk, or gives the
`ret` with which the code goes to `burn_out`. -/
def burnChunkRound (firmware_data : List UInt8) (s : ChunkState) :
    Prog RegI (ChunkState ⊕ Except Int BurnStaReg) := do
  if s.start < firmware_data.length then
    let ret ← RegWrCb.write regWrCbHandle RWREG_CB_BURN_START (firmware_data.drop s.start)
      (UInt32.ofNat (firmware_data.length - s.start)) 200
    if ret > 0 then return .inl { s with start := s.start + ret.toNat }
    if ret = 0 then
      let (ret, reg) ← readBurnSta s.reg 500
      if ret < 0 then return .inr (.error ret)
      if reg.burn_mode = BURNMODE_BURN_ERROR then return .inr (.error (-reg.parameter.toNat))
      if s.retry > BURN_WR_MAX_RETRY then return .inr (.error ret)
      return .inl ⟨s.start, s.retry + 1, reg⟩
    else
      if s.retry > BURN_WR_MAX_RETRY then return .inr (.error ret)
      return .inl { s with retry := s.retry + 1 }
  else return .inr (.ok s.reg)

/-- The loop over one chunk. Every round but the last moves `start` or counts a retry, so the fuel
is never used up. -/
def burnChunk (firmware_data : List UInt8) (reg : BurnStaReg) : Prog RegI (Except Int BurnStaReg) :=
  let fuel := firmware_data.length + BURN_WR_MAX_RETRY + 3
  Prog.loop (burnChunkRound firmware_data) fuel ⟨0, 0, reg⟩

/-- One round of the loop over the file. -/
def burnFileRound (firmware_fd : Int) (reg : BurnStaReg) :
    Prog RegI (BurnStaReg ⊕ Except Int BurnStaReg) := do
  match ← File.read firmware_fd BURN_PARTICLE_SIZE with
  | .error _ => return .inr (.ok reg)
  | .ok firmware_data =>
      if firmware_data.val = [] then return .inr (.ok reg)
      match ← burnChunk firmware_data.val reg with
      | .error ret => return .inr (.error ret)
      | .ok reg => return .inl reg

/-- One round of the wait for the result. -/
def burnResultRound (reg : BurnStaReg) : Prog RegI (BurnStaReg ⊕ Except Int BurnStaReg) := do
  let (ret, reg) ← readBurnSta reg 500
  if ret < 0 then return .inr (.error ret)
  if reg.burn_mode ≠ BURNMODE_FINISH_TRANSFER then return .inr (.ok reg)
  File.usleep 2000
  return .inl reg

/-- What `_BurnMcu` does with the open file. The two loops without a bound run on `fuel` rounds. -/
def burnFile (fuel : Nat) (firmware_fd : Int) (reg : BurnStaReg) : Prog RegI Int := do
  match ← Prog.loop (burnFileRound firmware_fd) fuel reg with
  | .error ret => return ret
  | .ok _ =>
      let reg : BurnStaReg := ⟨BURNMODE_FINISH_TRANSFER, 0⟩
      let _ ← writeBurnMode reg 500
      match ← Prog.loop burnResultRound fuel reg with
      | .error ret => return ret
      | .ok reg =>
          let ret : Int := -reg.parameter.toNat
          if ret < 0 then return ret
          let _ ← writeBurnMode { reg with burn_mode := BURNMODE_EXIT_BURN } 200
          return ret

/-- `_BurnMcu` -/
def burnMcu (fuel : Nat) (mcu_firmware_path : String) : Prog RegI Int := do
  let reg : BurnStaReg := ⟨BURNMODE_START_ERASE, 0⟩
  let ret ← writeBurnMode reg 500
  if ret < 0 then return ret
  let (ret, reg) ← readBurnSta reg 5000
  if ret < 0 then return ret
  if reg.burn_mode ≠ BURNMODE_ERASE_OK then return -reg.parameter.toNat
  let reg := { reg with burn_mode := BURNMODE_START_BURN }
  let ret ← writeBurnMode reg 500
  if ret < 0 then return ret
  let _ ← RegWrCb.clean regWrCbHandle RWREG_CB_BURN_START 200
  let firmware_fd ← File.openRdonly mcu_firmware_path
  if firmware_fd < 0 then return firmware_fd
  let ret ← burnFile fuel firmware_fd reg
  File.close firmware_fd
  return ret

namespace RVMcu

/-- `info.partition` after a read of the whole `McuInfo`. -/
def readPartition (timeout : UInt32) : Prog RegI (Int × UInt32) := do
  let (ret, info) ← readReg ROREG_INFO_START (List.replicate MCU_INFO_SIZE.toNat 0) MCU_INFO_SIZE
    timeout
  return (ret, word32 ((info.drop MCU_INFO_PARTITION).take 4))

/-- The second half of `RVMcu_BurnMcu` and of `RVMcu_ForceBurnMcu`, which is the same text. -/
def burnChecked (fuel : Nat) (mcu_firmware_path : String) (reg : BurnStaReg) : Prog RegI Int := do
  let (ret, reg) ← readBurnSta reg 500
  if ret < 0 then return ret
  if reg.burn_mode ≠ BURNMODE_WAIT_BURN then return -1
  if reg.parameter.toUInt32 = BFP_APP_A ∨ reg.parameter.toUInt32 = BFP_APP_B then
    let part ← getBurnFirmwarePart mcu_firmware_path
    if (reg.parameter.toNat : Int) ≠ part then
      let _ ← writeBurnMode { reg with burn_mode := BURNMODE_EXIT_BURN } 500
      return -1
    burnMcu fuel mcu_firmware_path
  else
    burnMcu fuel mcu_firmware_path

def burnMcu (fuel : Nat) (mcu_firmware_path : String) : Prog RegI Int := do
  let reg : BurnStaReg := ⟨0, 0⟩
  let (ret, partition) ← readPartition 200
  if ret < 0 then return ret
  if partition ≠ BFP_BOOT then
    let reg := { reg with burn_mode := BURNMODE_APP_GOTO_BOOTLOADER }
    let ret ← writeBurnMode reg 200
    if ret < 0 then return ret
    File.usleep 400000
    burnChecked fuel mcu_firmware_path reg
  else
    burnChecked fuel mcu_firmware_path reg

/-- One round of the wait of `RVMcu_ForceBurnMcu` for the boot partition. -/
def forceRound (_ : Unit) : Prog RegI (Unit ⊕ Unit) := do
  let (ret, partition) ← readPartition 10
  if ret = 0 ∧ partition = 0 then return .inr ()
  return .inl ()

def forceBurnMcu (fuel : Nat) (mcu_firmware_path : String) : Prog RegI Int := do
  let _ ← Prog.loop forceRound fuel ()
  burnChecked fuel mcu_firmware_path ⟨0, 0⟩

/-! ### CAN messages -/

def sendCanMsgBlock (can_msg : List UInt8) (cnt timeout : UInt32) : Prog RegI Int :=
  RegWrCb.granWrite regWrCbHandle RWREG_CB_MPU_BUSINESS_SEND_CAN_START can_msg PCAN_MSG_SIZE cnt
    timeout

def sendCanMsg (can_msg : List UInt8) (timeout : UInt32) : Prog RegI Int :=
  sendCanMsgBlock can_msg 1 timeout

def receiveCanMsgBlock (can_msg : List UInt8) (cnt timeout : UInt32) :
    Prog RegI (Int × List UInt8) :=
  RegWrCb.granRead regWrCbHandle RWREG_CB_MPU_BUSINESS_RECEIVE_CAN_START can_msg PCAN_MSG_SIZE cnt
    timeout

def receiveCanMsg (can_msg : List UInt8) (timeout : UInt32) : Prog RegI (Int × List UInt8) :=
  receiveCanMsgBlock can_msg 1 timeout

def cleanRxFifo (timeout : UInt32) : Prog RegI Int :=
  RegWrCb.clean regWrCbHandle RWREG_CB_MPU_BUSINESS_RECEIVE_CAN_START timeout

/-! ### The watchdog and the fault map -/

def wdogConfig (is_on_wdog : Int) : Prog RegI Int := do
  let sta : UInt8 := if is_on_wdog ≠ 0 then 1 else 0
  let (_, cnt) ← readReg (RWREG_MPU_BUSINESS_REG_START + MPU_ONLINE_CNT) [0] 1 200
  let mpu_online_cnt := cnt.headD 0 + 1
  let _ ← writeReg (RWREG_MPU_BUSINESS_REG_START + MPU_ONLINE_CNT) [mpu_online_cnt] 1 200
  writeReg (RWREG_MPU_BUSINESS_REG_START + OFFLINE_TIMEOUT_RESET) [sta] 1 200

/-- `RVMcu_WdogFeed`: `last_cnt` is the function's static variable, returned as the call leaves it.
-/
def wdogFeed (last_cnt : UInt8) : Prog RegI (Int × UInt8) := do
  let last_cnt ← (if last_cnt = 0xff then do
      let (_, cnt) ← readReg (RWREG_MPU_BUSINESS_REG_START + MPU_ONLINE_CNT) [last_cnt] 1 200
      return cnt.headD last_cnt + 1
    else return last_cnt)
  let ret ← writeReg (RWREG_MPU_BUSINESS_REG_START + MPU_ONLINE_CNT) [last_cnt] 1 200
  return (ret, last_cnt + 1)

def writeMpuDtc (dtc_map : UInt32) : Prog RegI Int :=
  writeReg (RWREG_MPU_BUSINESS_REG_START + DTC_MAP) (bytes32 dtc_map) 4 200

def readMpuDtc (dtc_map : UInt32) : Prog RegI (Int × UInt32) := do
  let (ret, bytes) ← readReg (RWREG_MPU_BUSINESS_REG_START + DTC_MAP) (bytes32 dtc_map) 4 200
  return (ret, word32 bytes)

end RVMcu

end McuRegWr
