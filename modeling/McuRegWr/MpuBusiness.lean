import McuRegWr.RearviewMcu

/-!
# The business registers

The other functions of `rearview_mcu.c`, which read or write one field of `MpuBusinessReg` each.
-/

namespace McuRegWr

open Base

/-- `offsetof(MpuBusinessReg, ..)` of the fields behind the fault map. The structure is packed. -/
def MPU_CONFIG_BYTE : UInt16 := 8
def RESET_MCU : UInt16 := 88
def IS_LEFT_REARVIEW : UInt16 := 89
def MPU_SUPPLY_VOLTAGE : UInt16 := 90
def MCU_DEBUG_LEVEL : UInt16 := 94
def NVM_ERASE : UInt16 := 98
def PRODUCTION_DATE : UInt16 := 102
def SHANQI_APP_MSG_CMD_STA : UInt16 := 166

namespace RVMcu

/-- `RVMcu_ReadReg` of a field of `cnt` bytes, into a variable that holds `field`. -/
def readField (offset : UInt16) (field : List UInt8) (cnt : UInt16) :
    Prog RegI (Int × List UInt8) :=
  readReg (RWREG_MPU_BUSINESS_REG_START + offset) field cnt 200

/-- `RVMcu_WriteReg` of a field of `cnt` bytes. -/
def writeField (offset : UInt16) (field : List UInt8) (cnt : UInt16) : Prog RegI Int :=
  writeReg (RWREG_MPU_BUSINESS_REG_START + offset) field cnt 200

/-- `RVMcu_WdogGetSta`, with what it leaves in `*is_on_wdog`. -/
def wdogGetSta (is_on_wdog : Int) : Prog RegI (Int × Int) := do
  let (ret, sta) ← readField OFFLINE_TIMEOUT_RESET [0] 1
  if ret < 0 then return (ret, is_on_wdog)
  return (0, (sta.headD 0).toNat)

def setMcuDbgLevel (level : Int) : Prog RegI Int :=
  writeField MCU_DEBUG_LEVEL (bytes32 (UInt32.ofInt level)) 4

/-- `RVMcu_CleanNvm`: -4 when the MCU is still erasing. -/
def cleanNvm (nvm_index : Int) : Prog RegI Int := do
  let (ret, nvm_index_tmp) ← readField NVM_ERASE (bytes32 0) 4
  if ret < 0 then return ret
  if word32 nvm_index_tmp ≠ 0 then return -4
  writeField NVM_ERASE (bytes32 (UInt32.ofInt nvm_index)) 4

def shanQiProductionDate (production_date : List UInt8) : Prog RegI Int :=
  writeField PRODUCTION_DATE production_date 4

def shanQiCmsMsgSet (msg_data : List UInt8) : Prog RegI Int :=
  writeField SHANQI_APP_MSG_CMD_STA msg_data 8

def mcuReset : Prog RegI Int := writeField RESET_MCU [1] 1

def setRearviewType (is_left_rearview : Int) : Prog RegI Int :=
  writeField IS_LEFT_REARVIEW [UInt8.ofInt is_left_rearview] 1

/-- `RVMcu_GetRearviewType`, with what it leaves in `*is_left_rearview`. -/
def getRearviewType (is_left_rearview : Int) : Prog RegI (Int × Int) := do
  let (ret, sta) ← readField IS_LEFT_REARVIEW [0] 1
  if ret < 0 then return (ret, is_left_rearview)
  return (ret, (sta.headD 0).toNat)

def getConfig80Byte (config_80byte : List UInt8) : Prog RegI (Int × List UInt8) :=
  readField MPU_CONFIG_BYTE config_80byte 80

def setSupplyVoltage (mv : UInt32) : Prog RegI Int := writeField MPU_SUPPLY_VOLTAGE (bytes32 mv) 4

end RVMcu

end McuRegWr
