import McuRegWr.Base.Strtol
import McuRegWr.Run

/-!
# The command line

What `main.c` makes of the arguments that are left when the options are parsed. A command line it
refuses ends the program before the MCU is touched.
-/

namespace McuRegWr

open Base

/-- The values of `run_config` before the options are parsed. -/
def MainConfig.start : MainConfig where
  set_dtc := 0
  clean_dtc := 0
  wr_buf := ⟨List.replicate WR_BUF_MAX 0, List.length_replicate⟩
  reg_addr := 0
  reg_cnt := 0
  test_cnt := 0
  rearview_type := 0xFFFFFFFF
  clean_nvm := 0
  mcu_debug_level := -1
  is_write := false
  is_show_mcu_info := false
  is_look_dtc := false
  is_loop_reveive := false
  is_read := false
  is_send_can := false
  is_read_can_event := false
  is_opne_wdog := false
  is_close_wdog := false
  is_reset_mcu := false
  is_exit_bootloader := false
  is_goto_bootloader := false
  is_can_echo_test := false
  is_write_shanqi_production_date := false
  mcu_firmware := none
  mcu_force_firmware := none
  mode := .FUN_MPU_ONLINE

/-! ### Bytes in hexadecimal -/

/-- The loop of `hex_string_to_byte_array`, and whether it runs to the end of the string. -/
def hexLoop (byteArray : List UInt8) (i : Nat) : List UInt8 → Bool × List UInt8
  | a :: b :: hexString =>
      let (value, moved) := CStr.strtol [a, b] 16
      let byteArray := byteArray.set i (UInt8.ofInt value)
      if moved then hexLoop byteArray (i + 1) hexString else (false, byteArray)
  | _ => (true, byteArray)

theorem length_hexLoop (byteArray : List UInt8) (i : Nat) (hexString : List UInt8) :
    (hexLoop byteArray i hexString).2.length = byteArray.length := by
  fun_induction hexLoop with
  | case1 byteArray i a b hexString value stored heq ih => exact ih.trans List.length_set
  | case2 byteArray i a b hexString value moved heq stored hmoved => exact List.length_set
  | case3 => rfl

/-- A `size_t` as an `int`. -/
def intOfSize (n : Nat) : Int := (BitVec.ofNat 32 n).toInt

/-- `hex_string_to_byte_array`: the result and the array. -/
def hexStringToByteArray (hexString : CStr) (byteArray : List UInt8) (byteArraySize : Nat) :
    Int × List UInt8 :=
  let len := hexString.val.length
  if len % 2 ≠ 0 ∨ len / 2 > byteArraySize then (-1, byteArray)
  else
    match hexLoop byteArray 0 hexString.val with
    | (true, byteArray) => (intOfSize (len / 2), byteArray)
    | (false, byteArray) => (-1, byteArray)

theorem length_hexStringToByteArray (hexString : CStr) (byteArray : List UInt8)
    (byteArraySize : Nat) :
    (hexStringToByteArray hexString byteArray byteArraySize).2.length = byteArray.length := by
  have hlen := length_hexLoop byteArray 0 hexString.val
  rw [hexStringToByteArray]
  split
  · rfl
  split <;> rename_i heq <;> rwa [heq] at hlen

/-! ### The arguments -/

/-- Why a command line is refused. -/
inductive ParseError where
  | usage
  | regCnt (reg_cnt : UInt16)
  | writeData
  | productionDate
  deriving DecidableEq, Repr

/-- What is said before the help is shown. -/
def ParseError.message : ParseError → Option String
  | .usage => none
  | .regCnt reg_cnt =>
      some ("ERROR: 请输入合理的大小 config->reg_cnt = " ++ toString reg_cnt.toNat ++ "\n")
  | .writeData =>
      some ("ERROR: 请勿超过" ++ toString (WR_BUF_MAX - 2) ++
        "个字节,请勿出现奇数个16进制!!\n")
  | .productionDate => some "ERROR: 请输入生产日期比如20231202\n"

namespace MainConfig

def setRegAddr (config : MainConfig) (reg_addr : UInt32) : MainConfig :=
  { config with reg_addr := reg_addr }

def setRegCnt (config : MainConfig) (reg_cnt : UInt16) : MainConfig :=
  { config with reg_cnt := reg_cnt }

/-- The configuration with what `hex_string_to_byte_array` leaves in `wr_buf`. -/
def storeHex (config : MainConfig) (hexString : CStr) (byteArraySize : Nat) : MainConfig :=
  { config with wr_buf := ⟨(hexStringToByteArray hexString config.wr_buf.val byteArraySize).2,
      (length_hexStringToByteArray _ _ _).trans config.wr_buf.property⟩ }

/-- The second argument of a read or of a test: a number of registers. -/
def parseCount (config : MainConfig) (data : CStr) : Except ParseError MainConfig :=
  let (cnt, moved) := CStr.strtol data.val 0
  let reg_cnt := UInt16.ofInt cnt
  if moved = false ∨ reg_cnt.toNat > WR_BUF_MAX - 2 ∨ reg_cnt = 0 then .error (.regCnt reg_cnt)
  else .ok (config.setRegCnt reg_cnt)

/-- The second argument of a write: the bytes. -/
def parseBytes (config : MainConfig) (data : CStr) : Except ParseError MainConfig :=
  let reg_cnt := (hexStringToByteArray data config.wr_buf.val WR_BUF_MAX).1
  if reg_cnt < 0 then .error .writeData
  else .ok ((config.storeHex data WR_BUF_MAX).setRegCnt (UInt16.ofInt reg_cnt))

/-- The arguments of `-w`, `-r` and `-m`. -/
def parseAccess (config : MainConfig) (argv : List CStr) : Except ParseError MainConfig :=
  if config.is_write ∨ config.is_read ∨ config.is_send_can then
    match argv with
    | [addr, data] =>
        let (reg_addr, moved) := CStr.strtoul addr.val 0
        if moved = false then .error .usage
        else if config.test_cnt ≠ 0 ∨ config.is_read then
          (config.setRegAddr reg_addr.toUInt32).parseCount data
        else (config.setRegAddr reg_addr.toUInt32).parseBytes data
    | _ => .error .usage
  else .ok config

/-- The argument of `--write-shanqi-production-date`. -/
def parseProductionDate (config : MainConfig) (argv : List CStr) : Except ParseError MainConfig :=
  if config.is_write_shanqi_production_date then
    match argv with
    | [date] =>
        let reg_cnt := (hexStringToByteArray date config.wr_buf.val 4).1
        if reg_cnt ≠ 4 then .error .productionDate else .ok (config.storeHex date 4)
    | _ => .error .usage
  else .ok config

/-- The mode the options choose: the last of them that is given, but for `-i`. -/
def chooseMode (config : MainConfig) : RunFun :=
  let mode := config.mode
  if config.is_show_mcu_info then .FUN_SHOW_MCU_INFO
  else
    let mode := if config.is_write ∨ config.is_read then .FUN_RW else mode
    let mode := if config.mcu_firmware.isSome then .FUN_UPDATE else mode
    let mode := if config.mcu_force_firmware.isSome then .FUN_FORCE_UPDATE else mode
    let mode := if config.is_read_can_event then .FUN_READ_CAN_EVENT else mode
    let mode := if config.is_look_dtc then .FUN_LOOK_MPU_DTC else mode
    let mode :=
      if config.set_dtc ≠ 0 ∨ config.clean_dtc ≠ 0 then .FUN_SET_OR_CLEAN_MPU_DTC else mode
    let mode := if config.is_send_can then .FUN_SEND_CAN_MSG else mode
    let mode := if config.is_loop_reveive then .FUN_LOOP_RECEIVE_CAN_MSG else mode
    let mode := if config.is_opne_wdog ∨ config.is_close_wdog then .FUN_SETTING_WDOG else mode
    let mode := if config.is_reset_mcu then .FUN_RESET_MCU else mode
    let mode := if config.rearview_type ≠ 0xFFFFFFFF then .FUN_SET_REARVIEW_TYPE else mode
    let mode := if config.is_goto_bootloader then .FUN_GOTO_BOOTLOADER else mode
    let mode := if config.is_exit_bootloader then .FUN_EXIT_BOOTLOADER else mode
    let mode := if config.mcu_debug_level ≠ -1 then .FUN_SET_MCU_DEBUG_LEVEL else mode
    let mode := if config.clean_nvm ≠ 0 then .FUN_CLEAN_NVM else mode
    let mode := if config.is_can_echo_test then .FUN_CAN_ECHO_TEST else mode
    if config.is_write_shanqi_production_date then .FUN_WRITE_SHANQI_PRODUCTION_DATE else mode

def setMode (config : MainConfig) (mode : RunFun) : MainConfig := { config with mode := mode }

end MainConfig

/-- `other_argparse_parse`: `argv` are the arguments that are no options. -/
def otherArgparseParse (config : MainConfig) (argv : List CStr) :
    Except ParseError MainConfig :=
  if config.is_write ∧ config.is_read then .error .usage
  else do
    let config ← config.parseAccess argv
    let config ← config.parseProductionDate argv
    return config.setMode config.chooseMode

end McuRegWr
