import McuRegWr.Proof.Command.Footprint
import McuRegWr.Proof.Transport.Mcu

/-!
# What fits into a frame

A frame carries up to 1022 registers. The bare register access takes what it is given; every other
mode of the tool keeps below, and can be carried out frame by frame.
-/

namespace McuRegWr

open Base Prog

/-- Every access of a footprint fits a frame. -/
structure Footprint.Small (F : Footprint) : Prop where
  reads : ∀ reg_addr reg_cnt, F.reads reg_addr reg_cnt → reg_cnt.toNat ≤ 1022
  writes : ∀ reg_addr reg_data, F.writes reg_addr reg_data → reg_data.length ≤ 1022

namespace Footprint.Small

variable {F F' : Footprint} {reg_addr : UInt16} {cnts : UInt16 → Prop} {datas : List UInt8 → Prop}

theorem union (h : F.Small) (h' : F'.Small) : (F ∪ F').Small :=
  ⟨fun a n hr => hr.elim (h.reads a n) (h'.reads a n),
    fun a d hw => hw.elim (h.writes a d) (h'.writes a d)⟩

theorem reading (h : ∀ n, cnts n → n.toNat ≤ 1022) : (reading reg_addr cnts).Small :=
  ⟨fun _ n hr => h n hr.2, nofun⟩

theorem writing (h : ∀ d, datas d → d.length ≤ 1022) : (writing reg_addr datas).Small :=
  ⟨nofun, fun _ d hw => h d hw.2⟩

theorem opening (path : String) : (opening path).Small := ⟨nofun, nofun⟩

theorem reading_eq {cnt : UInt16} (h : cnt.toNat ≤ 1022) :
    (Footprint.reading reg_addr (· = cnt)).Small :=
  reading fun _ hn => hn ▸ h

theorem writing_eq {data : List UInt8} (h : data.length ≤ 1022) :
    (Footprint.writing reg_addr (· = data)).Small :=
  writing fun _ hd => hd ▸ h

theorem commanding (mode : UInt8) : (commanding mode).Small :=
  writing_eq (Nat.succ_le_succ (Nat.zero_le _))

theorem wdogFeeding : wdogFeeding.Small :=
  (reading_eq (by decide)).union (writing fun _ hd => hd.le.trans (by decide))

theorem canReceiving : canReceiving.Small :=
  (reading_eq (by decide)).union (reading fun _ hn => hn.2.trans (by decide))

theorem fileBurning (path : String) : (fileBurning path).Small := by
  apply union _ (opening path)
  apply union
  · apply union
    · exact (reading_eq (by decide)).union (reading_eq (by decide))
    · exact (((commanding _).union (commanding _)).union (commanding _)).union (commanding _)
  · exact ((writing_eq (by decide)).union (reading_eq (by decide))).union
      (writing fun _ hd => hd.trans (by decide))

theorem fits (h : F.Small) {o : RegOp} (ho : F.Allows o) : o.Fits := by
  cases o with
  | readReg reg_addr reg_cnt timeout => exact h.reads _ _ ho
  | writeReg reg_addr reg_data timeout => exact h.writes _ _ ho
  | _ => trivial

end Footprint.Small

theorem footprint_small (env : RunEnv) {config : ToolConfig} (hrw : config.mode ≠ .FUN_RW) :
    (footprint env config).Small := by
  unfold footprint
  cases hfun : config.mode with
  | FUN_RW => exact absurd hfun hrw
  | FUN_SHOW_MCU_INFO => exact .union (.reading_eq (by decide)) (.reading_eq (by decide))
  | FUN_UPDATE => exact .union (.commanding _) (.fileBurning _)
  | FUN_FORCE_UPDATE => exact .fileBurning _
  | FUN_READ_CAN_EVENT =>
      exact .union (.reading_eq (by decide)) (.reading fun _ hn => hn.trans (by decide))
  | FUN_LOOK_MPU_DTC => exact .reading_eq (by decide)
  | FUN_SET_OR_CLEAN_MPU_DTC =>
      refine .union (.union (.reading_eq (by decide)) .wdogFeeding) (.writing ?_)
      rintro _ ⟨dtc_map, rfl⟩
      simp
  | FUN_MPU_ONLINE => exact .wdogFeeding
  | FUN_SEND_CAN_MSG =>
      refine .union (.reading_eq (by decide)) (.writing_eq ?_)
      rw [Footprint.length_sentCanMsg]
      decide
  | FUN_LOOP_RECEIVE_CAN_MSG => exact .union (.writing_eq (by decide)) .canReceiving
  | FUN_SETTING_WDOG => exact .union .wdogFeeding (.writing_eq (by simp))
  | FUN_RESET_MCU => exact .writing_eq (by decide)
  | FUN_SET_REARVIEW_TYPE => exact .writing_eq (by simp)
  | FUN_SET_MCU_DEBUG_LEVEL => exact .writing_eq (by simp)
  | FUN_GOTO_BOOTLOADER => exact .union (.reading_eq (by decide)) (.commanding _)
  | FUN_EXIT_BOOTLOADER => exact .union (.reading_eq (by decide)) (.commanding _)
  | FUN_CLEAN_NVM => exact .union (.reading_eq (by decide)) (.writing_eq (by simp))
  | FUN_CAN_ECHO_TEST =>
      refine .union .canReceiving (.union (.reading_eq (by decide)) (.writing fun _ hd => ?_))
      exact hd.2.trans (by decide)
  | FUN_WRITE_SHANQI_PRODUCTION_DATE =>
      exact .writing_eq ((List.length_take_le 4 _).trans (by decide))

theorem fits_run (env : RunEnv) {config : ToolConfig} (hrw : config.mode ≠ .FUN_RW) :
    (run env config).Asks RegOp.Fits :=
  (asks_run env config).mono fun _ => (footprint_small env hrw).fits

end McuRegWr
