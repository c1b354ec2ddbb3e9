import McuRegWr.General.Argparse
import McuRegWr.Modes

/-!
# The command line as a whole

`main` up to the MCU: the table of options, the configuration they fill in, and the mode that the
rest of the arguments leads to.
-/

namespace McuRegWr

open Base

/-- The fields of `run_config` that the options point to. -/
inductive RunField where
  | is_write
  | is_read
  | is_send_can
  | is_loop_reveive
  | is_can_print_asc
  | is_read_can_event
  | is_show_mcu_info
  | is_look_dtc
  | is_opne_wdog
  | is_close_wdog
  | is_reset_mcu
  | is_exit_bootloader
  | is_goto_bootloader
  | is_can_echo_test
  | is_write_shanqi_production_date
  | mcu_firmware
  | mcu_force_firmware
  | test_cnt
  | set_dtc
  | rearview_type
  | clean_dtc
  | clean_nvm
  | mcu_debug_level
  deriving DecidableEq, Repr

/-- `OPT_BOOLEAN(..)`, `OPT_STRING(..)` and `OPT_INTEGER(..)` without a callback and flags. -/
def toolOption (type : ArgparseOptionType) (short_name : Char) (long_name : String)
    (value : RunField) : ArgparseOption RunField :=
  ⟨type, UInt8.ofNat short_name.toNat, some (CStr.ofAscii long_name), some value, false, 0, false⟩

def OPT_BOOLEAN := toolOption .ARGPARSE_OPT_BOOLEAN
def OPT_STRING := toolOption .ARGPARSE_OPT_STRING
def OPT_INTEGER := toolOption .ARGPARSE_OPT_INTEGER

/-- `OPT_HELP()` -/
def OPT_HELP : ArgparseOption RunField :=
  ⟨.ARGPARSE_OPT_BOOLEAN, 0x68, some (CStr.ofAscii "help"), none, true, 0, true⟩

/-- `OPT_GROUP(..)` -/
def OPT_GROUP : ArgparseOption RunField :=
  ⟨.ARGPARSE_OPT_GROUP, 0, none, none, false, 0, false⟩

/-- `options` of `main`. -/
def toolOptions : List (ArgparseOption RunField) := [
  OPT_HELP,
  OPT_GROUP,
  OPT_BOOLEAN 'w' "write" .is_write,
  OPT_BOOLEAN 'r' "read" .is_read,
  OPT_BOOLEAN 'm' "send-can-msg" .is_send_can,
  OPT_BOOLEAN 'd' "reveive-can-msg" .is_loop_reveive,
  OPT_BOOLEAN 'a' "can-print-asc" .is_can_print_asc,
  OPT_BOOLEAN 'c' "read-can-event" .is_read_can_event,
  OPT_BOOLEAN 'i' "show-mcu-info" .is_show_mcu_info,
  OPT_BOOLEAN 'l' "look-mpu-dtc" .is_look_dtc,
  OPT_BOOLEAN 'o' "open-wdog" .is_opne_wdog,
  OPT_BOOLEAN 'z' "close-wdog" .is_close_wdog,
  OPT_BOOLEAN 'b' "mcu-reset" .is_reset_mcu,
  OPT_BOOLEAN 'y' "exit-bootloader" .is_exit_bootloader,
  OPT_BOOLEAN 'f' "goto-bootloader" .is_goto_bootloader,
  OPT_BOOLEAN 'T' "can-echo-test" .is_can_echo_test,
  OPT_BOOLEAN ' ' "write-shanqi-production-date" .is_write_shanqi_production_date,
  OPT_STRING 'u' "update" .mcu_firmware,
  OPT_STRING 'U' "Update" .mcu_force_firmware,
  OPT_INTEGER 't' "test" .test_cnt,
  OPT_INTEGER 's' "set-mpu-dtc" .set_dtc,
  OPT_INTEGER 'x' "set-rearview-type" .rearview_type,
  OPT_INTEGER 'e' "clean-mpu-dtc" .clean_dtc,
  OPT_INTEGER 'E' "clean-nvm" .clean_nvm,
  OPT_INTEGER 'g' "set-mcu-debug-level" .mcu_debug_level]

/-- What the fields are before. -/
def startValues : ArgparseValues RunField where
  int
    | .rearview_type => -1
    | .mcu_debug_level => -1
    | _ => 0
  str _ := none

/-- The name of a file, as `open` is told it. -/
def CStr.toName (s : CStr) : String := String.ofList (s.val.map fun b => Char.ofNat b.toNat)

/-- `run_config` after the options. -/
def ToolConfig.ofValues (values : ArgparseValues RunField) : ToolConfig :=
  { ToolConfig.start with
    is_write := values.int .is_write ≠ 0
    is_read := values.int .is_read ≠ 0
    is_send_can := values.int .is_send_can ≠ 0
    is_loop_reveive := values.int .is_loop_reveive ≠ 0
    is_can_print_asc := values.int .is_can_print_asc ≠ 0
    is_read_can_event := values.int .is_read_can_event ≠ 0
    is_show_mcu_info := values.int .is_show_mcu_info ≠ 0
    is_look_dtc := values.int .is_look_dtc ≠ 0
    is_opne_wdog := values.int .is_opne_wdog ≠ 0
    is_close_wdog := values.int .is_close_wdog ≠ 0
    is_reset_mcu := values.int .is_reset_mcu ≠ 0
    is_exit_bootloader := values.int .is_exit_bootloader ≠ 0
    is_goto_bootloader := values.int .is_goto_bootloader ≠ 0
    is_can_echo_test := values.int .is_can_echo_test ≠ 0
    is_write_shanqi_production_date := values.int .is_write_shanqi_production_date ≠ 0
    mcu_firmware := (values.str .mcu_firmware).map CStr.toName
    mcu_force_firmware := (values.str .mcu_force_firmware).map CStr.toName
    test_cnt := UInt32.ofInt (values.int .test_cnt)
    set_dtc := UInt32.ofInt (values.int .set_dtc)
    rearview_type := UInt32.ofInt (values.int .rearview_type)
    clean_dtc := UInt32.ofInt (values.int .clean_dtc)
    clean_nvm := UInt32.ofInt (values.int .clean_nvm)
    mcu_debug_level := values.int .mcu_debug_level }

/-- Why `main` ends before the MCU is touched. -/
inductive MainExit where
  | options (exit : ArgparseExit)
  | arguments (error : ParseError)
  deriving DecidableEq

/-- The status of the process. -/
def MainExit.status : MainExit → Int
  | .options exit => exit.status
  | .arguments _ => 1

/-- The configuration that `main` gives to `run`. -/
def mainConfig (argv : List CStr) : Except MainExit ToolConfig :=
  match Argparse.parse toolOptions ⟨false, false⟩ startValues argv with
  | .error exit => .error (.options exit)
  | .ok (argc, argv, values) =>
      let config := ToolConfig.ofValues values
      match otherArgparseParse config.toMainConfig ((argv.take argc).filterMap id) with
      | .error error => .error (.arguments error)
      | .ok parsed => .ok { parsed with is_can_print_asc := config.is_can_print_asc }

/-- What `main` does with the registers, between `RVMcu_Init` and `RVMcu_Exit`, and its status. -/
def mainRun (env : RunEnv) (argv : List CStr) : Prog RegI Int :=
  match mainConfig argv with
  | .error exit => .done exit.status
  | .ok config => run env config

end McuRegWr
