import McuRegWr.General.Bits
import McuRegWr.General.Debug
import McuRegWr.Reg

/-!
# CAN events

`fun_show_mcu_can_event`: the event registers of `can-event.h` and what the tool prints of them. An
event counts only while its bit in the validity bitmap is set.
-/

namespace McuRegWr

open Base

def ROREG_CAN_EVENT_START : UInt16 := 0x0400

/-- `CAN_EVENT_TYPE`, in the order of the event registers. -/
inductive CanEventType where
  | CET_IGNITION_POSITION
  | CET_LEFT_DOOR_SWITCH
  | CET_LEFT_DOOR_LOCK
  | CET_RIGHT_DOOR_SWITCH
  | CET_RIGHT_DOOR_LOCK
  | CET_ACC_PIN_H
  | CET_SCREEN_UP_DOWN_SWITCH_CNT
  | CET_MCU_STATE_MACHINE
  | CET_CAN_BUS_VALID
  | CET_OTHER_WAKE_UP_SOURCES_CNT
  | CET_CAN_BUS_DCM_VALID
  | CET_CAN_BUS_GW_VALID
  | CET_VEHICLE_SPEED_U16_L
  | CET_VEHICLE_SPEED_U16_H
  | CET_TURN_SPEED_U16_L
  | CET_TURN_SPEED_U16_H
  | CET_TIME_SEC
  | CET_TIME_MIN
  | CET_TIME_HOUR
  | CET_TIME_DAY
  | CET_TIME_MONTH
  | CET_TIME_YEAR
  | CET_DC_VOL_U16_L
  | CET_DC_VOL_U16_H
  | CET_ROAD_HAUL_U32_BYTE0
  | CET_ROAD_HAUL_U32_BYTE1
  | CET_ROAD_HAUL_U32_BYTE2
  | CET_ROAD_HAUL_U32_BYTE3
  | CET_REARVIEW_SELECT
  | CET_REARVIEW_VERTICAL_ADJUSTMENT
  | CET_REARVIEW_HORIZONTAL_ADJUSTMENT
  | CET_REVERSE_LIGHT
  | CET_LEFT_TURN_LIGHT
  | CET_RIGHT_TURN_LIGHT
  | CET_POSITION_LIGHT
  | CET_R1_LIGHT
  | CET_R2_LIGHT
  | CET_R3_LIGHT
  | CET_R4_LIGHT
  | CET_STEERING_ANGLE_I16_L
  | CET_STEERING_ANGLE_I16_H
  | CET_ENGINE_RUN_TIME_U32_BYTE0
  | CET_ENGINE_RUN_TIME_U32_BYTE1
  | CET_ENGINE_RUN_TIME_U32_BYTE2
  | CET_ENGINE_RUN_TIME_U32_BYTE3
  | CET_GEARS
  | CET_COUNTDOWN_U16_L
  | CET_COUNTDOWN_U16_H
  | CET_MAX
  deriving DecidableEq, Repr

open CanEventType

/-- The number of events in use. -/
def CAN_EVENT_USE_CNT : Nat := CET_MAX.ctorIdx

/-- `CET_IGNITION_POSITION_EVENT` -/
inductive IgnitionPosition where
  | CIPE_OFF
  | CIPE_ACC
  | CIPE_ON
  | CIPE_START

/-- `CET_STATE_MACHINE_EVENT` -/
inductive StateMachine where
  | CIPE_JUST_BOOT
  | CIPE_DORMANCY
  | CIPE_MPU_RUN_NORMAL
  | CIPE_MPU_RUN_WAIT_SCREEN_OFF
  | CIPE_MPU_RUN_WAIT_DORMANCY
  | CIPE_MPU_RUN_FORCE_WAIT_SCREEN_OFF
  | CIPE_MPU_RUN_FORCE_SCREEN_OFF
  | CIPE_MPU_RUN_CAN_ERROR

/-- `CET_DOOR_LOCK_EVENT` -/
inductive DoorLock where
  | CDLE_DOOR_UNLOCK
  | CDLE_DOOR_LOCK

/-- `CET_DOOR_SWITCH_EVENT` -/
inductive DoorSwitch where
  | CDSE_DOOR_OFF
  | CDSE_DOOR_ON

/-- `CET_REARVIEW_SELECT_EVENT` -/
inductive RearviewSelect where
  | CRS_NONE
  | CRS_LEFT
  | CRS_RIGHT
  | CRS_ALL

/-- `CET_REARVIEW_VERTICAL_ADJUSTMENT_EVENT` -/
inductive RearviewVertical where
  | CRVA_NONE
  | CRVA_UP_ADJUSTMENT
  | CRVA_DOWN_ADJUSTMENT

/-- `CET_REARVIEW_HORIZONTAL_ADJUSTMENT_EVENT` -/
inductive RearviewHorizontal where
  | CRHA_NONE
  | CRHA_LEFT_ADJUSTMENT
  | CRHA_RIGHT_ADJUSTMENT

/-- `CET_REVERSE_LIGHT_EVENT` -/
inductive ReverseLight where
  | CRLE_OFF
  | CRLE_ON
  | CRLE_INVALID

/-- `CET_LEFT_TURN_LIGHT_EVENT` -/
inductive LeftTurnLight where
  | CLTLE_OFF
  | CLTLE_NORMAL_BLINK
  | CLTLE_FAST_BLINK
  | CLTLE_BRIGHT
  | CLTLE_INVALID

/-- `CET_RIGHT_TURN_LIGHT_EVENT` -/
inductive RightTurnLight where
  | CRTLE_OFF
  | CRTLE_NORMAL_BLINK
  | CRTLE_FAST_BLINK
  | CRTLE_BRIGHT
  | CRTLE_INVALID

/-- `CET_GEARS_EVENT` -/
inductive Gears where
  | CGE_NEUTRAL
  | CGE_REVERSE
  | CGE_OTHER

/-- `RoRegCanEvent` -/
structure RoRegCanEvent where
  period_event_valid : List UInt8
  event : List UInt8
  deriving DecidableEq, Repr

namespace RoRegCanEvent

/-- `RoRegCanEvent can_event = {0}` -/
def zero : RoRegCanEvent := ⟨List.replicate 64 0, List.replicate CAN_EVENT_USE_CNT 0⟩

end RoRegCanEvent

/-! ### The values -/

/-- `event[x]` -/
def eventAt (event : List UInt8) (x : CanEventType) : UInt8 := event.getD x.ctorIdx 0

/-- `event[l] | (event[h] << 8)`, an `int`. -/
def eventU16 (event : List UInt8) (l h : CanEventType) : Int :=
  ((eventAt event l).toNat ||| (eventAt event h).toNat <<< 8 : Nat)

/-- `(int16_t)` of an `int`. -/
def toInt16 (n : Int) : Int := (BitVec.ofInt 16 n).toInt

/-- `event[b0] | (event[b1] << 8) | (event[b2] << 16) | (event[b3] << 24)`, stored in a `uint32_t`.
-/
def eventU32 (event : List UInt8) (b0 b1 b2 b3 : CanEventType) : UInt32 :=
  (eventAt event b0).toUInt32 ||| (eventAt event b1).toUInt32 <<< 8 |||
    (eventAt event b2).toUInt32 <<< 16 ||| (eventAt event b3).toUInt32 <<< 24

/-- `rh_u64 = rh_u32*5`: the product is of two `uint32_t`. -/
def roadHaul (rh_u32 : UInt32) : UInt64 := (rh_u32 * 5).toUInt64

/-- A chain of `b == value ? text :` up to the last text. -/
def textOf {ε : Type} (value : ε → Nat) (b : UInt8) (texts : List (ε × String)) (other : String) :
    DbgArg :=
  .str (((texts.find? fun t => b.toNat = value t.1).map Prod.snd).getD other)

/-- `b ? yes : no` -/
def truthOf (b : UInt8) (yes no : String) : DbgArg := .str (if b ≠ 0 then yes else no)

def intOf (b : UInt8) : DbgArg := .int b.toNat

/-! ### The lines -/

/-- The tests of `fun_show_mcu_can_event` in order: the events that have to be valid and the line
printed of them. -/
def canEventTests (event : List UInt8) : List (List CanEventType × DbgLine) := [
  ([CET_IGNITION_POSITION], dbgInfoln "点火位置： %s"
    [textOf IgnitionPosition.ctorIdx (eventAt event CET_IGNITION_POSITION)
      [(.CIPE_OFF, "OFF"), (.CIPE_ACC, "ACC"), (.CIPE_ON, "ON"), (.CIPE_START, "START")] "ERR"]),
  ([CET_LEFT_DOOR_SWITCH], dbgInfoln "左门状态：  %s"
    [textOf DoorSwitch.ctorIdx (eventAt event CET_LEFT_DOOR_SWITCH)
      [(.CDSE_DOOR_OFF, "门关")] "门开"]),
  ([CET_LEFT_DOOR_LOCK], dbgInfoln "左门锁状态： %s"
    [textOf DoorLock.ctorIdx (eventAt event CET_LEFT_DOOR_LOCK)
      [(.CDLE_DOOR_UNLOCK, "门解锁")] "门已锁"]),
  ([CET_RIGHT_DOOR_SWITCH], dbgInfoln "右门状态：  %s"
    [textOf DoorSwitch.ctorIdx (eventAt event CET_RIGHT_DOOR_SWITCH)
      [(.CDSE_DOOR_OFF, "门关")] "门开"]),
  ([CET_RIGHT_DOOR_LOCK], dbgInfoln "右门锁状态： %s"
    [textOf DoorLock.ctorIdx (eventAt event CET_RIGHT_DOOR_LOCK)
      [(.CDLE_DOOR_UNLOCK, "门解锁")] "门已锁"]),
  ([CET_ACC_PIN_H], dbgInfoln "ACC %s" [truthOf (eventAt event CET_ACC_PIN_H) "H" "L"]),
  ([CET_SCREEN_UP_DOWN_SWITCH_CNT], dbgInfoln "开关屏按下次数(只能记录到0xff自动溢出):%d"
    [intOf (eventAt event CET_SCREEN_UP_DOWN_SWITCH_CNT)]),
  ([CET_MCU_STATE_MACHINE], dbgInfoln "MCU状态机状态: %s"
    [textOf StateMachine.ctorIdx (eventAt event CET_MCU_STATE_MACHINE)
      [(.CIPE_JUST_BOOT, "刚上电状态"), (.CIPE_DORMANCY, "休眠状态"),
        (.CIPE_MPU_RUN_NORMAL, "正常工作状态"),
        (.CIPE_MPU_RUN_WAIT_SCREEN_OFF, "等待关屏状态 120S倒计时"),
        (.CIPE_MPU_RUN_WAIT_DORMANCY, "等待休眠状态 300S倒计时"),
        (.CIPE_MPU_RUN_FORCE_WAIT_SCREEN_OFF, "强制等待关屏状态 120S倒计时")] "错误状态"]),
  ([CET_COUNTDOWN_U16_L, CET_COUNTDOWN_U16_H], dbgInfoln "MCU状态机倒计时:%d"
    [.int (eventU16 event CET_COUNTDOWN_U16_L CET_COUNTDOWN_U16_H)]),
  ([CET_CAN_BUS_VALID], dbgInfoln "CAN: %s"
    [truthOf (eventAt event CET_CAN_BUS_VALID) "有效" "无效"]),
  ([CET_OTHER_WAKE_UP_SOURCES_CNT], dbgInfoln "其他唤醒源唤醒次数: %d"
    [intOf (eventAt event CET_OTHER_WAKE_UP_SOURCES_CNT)]),
  ([CET_CAN_BUS_DCM_VALID], dbgInfoln "门窗控制器: %s"
    [truthOf (eventAt event CET_CAN_BUS_DCM_VALID) "有效" "无效"]),
  ([CET_CAN_BUS_GW_VALID], dbgInfoln "网关: %s"
    [truthOf (eventAt event CET_CAN_BUS_GW_VALID) "有效" "无效"]),
  ([CET_VEHICLE_SPEED_U16_L, CET_VEHICLE_SPEED_U16_H], dbgInfoln "车速: %d km/h"
    [.int (eventU16 event CET_VEHICLE_SPEED_U16_L CET_VEHICLE_SPEED_U16_H)]),
  ([CET_TURN_SPEED_U16_L, CET_TURN_SPEED_U16_H], dbgInfoln "发动机转速: %d rpm"
    [.int (eventU16 event CET_TURN_SPEED_U16_L CET_TURN_SPEED_U16_H)]),
  ([CET_TIME_SEC, CET_TIME_MIN, CET_TIME_HOUR, CET_TIME_DAY, CET_TIME_MONTH, CET_TIME_YEAR],
    dbgInfoln "时间: %02d/%02d/%02d %02d:%02d:%02d"
      [.int ((eventAt event CET_TIME_YEAR).toNat + 1985), intOf (eventAt event CET_TIME_MONTH),
        intOf (eventAt event CET_TIME_DAY), intOf (eventAt event CET_TIME_HOUR),
        intOf (eventAt event CET_TIME_MIN), intOf (eventAt event CET_TIME_SEC)]),
  ([CET_DC_VOL_U16_L, CET_DC_VOL_U16_H], dbgInfoln "电源电压: %.1fv"
    [.real (eventU16 event CET_DC_VOL_U16_L CET_DC_VOL_U16_H * (1 / 10))]),
  ([CET_ROAD_HAUL_U32_BYTE0, CET_ROAD_HAUL_U32_BYTE1, CET_ROAD_HAUL_U32_BYTE2,
      CET_ROAD_HAUL_U32_BYTE3], dbgInfoln "总里程: %llu"
    [.int (roadHaul (eventU32 event CET_ROAD_HAUL_U32_BYTE0 CET_ROAD_HAUL_U32_BYTE1
      CET_ROAD_HAUL_U32_BYTE2 CET_ROAD_HAUL_U32_BYTE3)).toNat]),
  ([CET_REARVIEW_SELECT], dbgInfoln "后视镜选择: %s"
    [textOf RearviewSelect.ctorIdx (eventAt event CET_REARVIEW_SELECT)
      [(.CRS_NONE, "未选中任何后视镜"), (.CRS_LEFT, "选择左镜"), (.CRS_RIGHT, "选择右镜")]
      "全部选中"]),
  ([CET_REARVIEW_VERTICAL_ADJUSTMENT], dbgInfoln "垂直调节: %s"
    [textOf RearviewVertical.ctorIdx (eventAt event CET_REARVIEW_VERTICAL_ADJUSTMENT)
      [(.CRVA_NONE, "不调节"), (.CRVA_UP_ADJUSTMENT, "上调")] "下调"]),
  ([CET_REARVIEW_HORIZONTAL_ADJUSTMENT], dbgInfoln "水平调节: %s"
    [textOf RearviewHorizontal.ctorIdx (eventAt event CET_REARVIEW_HORIZONTAL_ADJUSTMENT)
      [(.CRHA_NONE, "不调节"), (.CRHA_LEFT_ADJUSTMENT, "左调")] "右调"]),
  ([CET_REVERSE_LIGHT], dbgInfoln "倒车灯: %s"
    [textOf ReverseLight.ctorIdx (eventAt event CET_REVERSE_LIGHT) [(.CRLE_OFF, "灯灭")] "灯亮"]),
  ([CET_LEFT_TURN_LIGHT], dbgInfoln "左转灯: %s"
    [textOf LeftTurnLight.ctorIdx (eventAt event CET_LEFT_TURN_LIGHT)
      [(.CLTLE_OFF, "灯灭"), (.CLTLE_NORMAL_BLINK, "正常闪烁"), (.CLTLE_FAST_BLINK, "快速闪烁"),
        (.CLTLE_BRIGHT, "灯亮")] "无效"]),
  ([CET_RIGHT_TURN_LIGHT], dbgInfoln "右转灯: %s"
    [textOf RightTurnLight.ctorIdx (eventAt event CET_RIGHT_TURN_LIGHT)
      [(.CRTLE_OFF, "灯灭"), (.CRTLE_NORMAL_BLINK, "正常闪烁"), (.CRTLE_FAST_BLINK, "快速闪烁"),
        (.CRTLE_BRIGHT, "灯亮")] "无效"]),
  ([CET_STEERING_ANGLE_I16_L, CET_STEERING_ANGLE_I16_H], dbgInfoln "方向盘角度: %0.3f"
    [.real (toInt16 (eventU16 event CET_STEERING_ANGLE_I16_L CET_STEERING_ANGLE_I16_H) / 1000)]),
  ([CET_ENGINE_RUN_TIME_U32_BYTE0, CET_ENGINE_RUN_TIME_U32_BYTE1, CET_ENGINE_RUN_TIME_U32_BYTE2,
      CET_ENGINE_RUN_TIME_U32_BYTE3], dbgInfoln "发动机运行时间: %.2fh"
    [.real ((eventU32 event CET_ENGINE_RUN_TIME_U32_BYTE0 CET_ENGINE_RUN_TIME_U32_BYTE1
      CET_ENGINE_RUN_TIME_U32_BYTE2 CET_ENGINE_RUN_TIME_U32_BYTE3).toNat / 60 / 60)]),
  ([CET_GEARS], dbgInfoln "档位: %s"
    [textOf Gears.ctorIdx (eventAt event CET_GEARS)
      [(.CGE_NEUTRAL, "空挡"), (.CGE_REVERSE, "倒车挡")] "其他挡"])]

/-- The lines printed: those whose events are all valid. -/
def RoRegCanEvent.lines (can_event : RoRegCanEvent) : List DbgLine :=
  ((canEventTests can_event.event).filter fun test =>
    test.1.all fun x => getBit can_event.period_event_valid x.ctorIdx ≠ 0).map Prod.snd

/-! ### The command -/

/-- `for(i=0;i<CAN_EVENT_USE_CNT;i++) if(Get_Bit(valid, i)) valid_max_event = i;` -/
def validMaxEvent (valid : List UInt8) : Nat → Nat
  | 0 => 0
  | i + 1 => if getBit valid i ≠ 0 then i else validMaxEvent valid i

/-- What a call leaves: its result, its variable `can_event` and the lines it has printed. -/
structure CanEventShown where
  ret : Int
  can_event : RoRegCanEvent
  lines : List DbgLine

/-- The place of an error line. -/
def canEventError (line : Nat) (ret : Int) : DbgLine :=
  dbgErrfl "fun_show_mcu_can_event" line "SpiReg_Read error! ret = %d" [.int ret]

def funShowMcuCanEvent : Prog RegI CanEventShown := do
  let can_event := RoRegCanEvent.zero
  let (ret, period_event_valid) ← RVMcu.readReg ROREG_CAN_EVENT_START can_event.period_event_valid
    64 200
  let can_event := { can_event with period_event_valid := period_event_valid }
  if ret < 0 then return ⟨-1, can_event, [canEventError 121 ret]⟩
  let valid_max_event := validMaxEvent can_event.period_event_valid CAN_EVENT_USE_CNT
  if valid_max_event = 0 then return ⟨0, can_event, []⟩
  let (ret, event) ← RVMcu.readReg (ROREG_CAN_EVENT_START + 64) can_event.event
    (UInt16.ofNat (valid_max_event + 1)) 200
  let can_event := { can_event with event := event }
  if ret < 0 then return ⟨-1, can_event, [canEventError 132 ret]⟩
  return ⟨0, can_event, can_event.lines⟩

end McuRegWr
