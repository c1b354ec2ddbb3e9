import McuRegWr.CommandLine
import McuRegWr.Proof.Command.Footprint
import McuRegWr.Proof.Command.Options

/-!
# From the command line to the registers

What the tool does with the registers is asked for on its command line: a mode is entered only for
an option of its own, and a line that is written down is carried out as it is meant.
-/

namespace McuRegWr

open Base Prog

/-- The fields whose options lead to a mode. -/
def RunFun.fields : RunFun → List RunField
  | .FUN_MPU_ONLINE => []
  | .FUN_RW => [.is_write, .is_read]
  | .FUN_SHOW_MCU_INFO => [.is_show_mcu_info]
  | .FUN_UPDATE => [.mcu_firmware]
  | .FUN_FORCE_UPDATE => [.mcu_force_firmware]
  | .FUN_READ_CAN_EVENT => [.is_read_can_event]
  | .FUN_LOOK_MPU_DTC => [.is_look_dtc]
  | .FUN_SET_OR_CLEAN_MPU_DTC => [.set_dtc, .clean_dtc]
  | .FUN_SEND_CAN_MSG => [.is_send_can]
  | .FUN_LOOP_RECEIVE_CAN_MSG => [.is_loop_reveive]
  | .FUN_SETTING_WDOG => [.is_opne_wdog, .is_close_wdog]
  | .FUN_RESET_MCU => [.is_reset_mcu]
  | .FUN_SET_REARVIEW_TYPE => [.rearview_type]
  | .FUN_SET_MCU_DEBUG_LEVEL => [.mcu_debug_level]
  | .FUN_EXIT_BOOTLOADER => [.is_exit_bootloader]
  | .FUN_GOTO_BOOTLOADER => [.is_goto_bootloader]
  | .FUN_CLEAN_NVM => [.clean_nvm]
  | .FUN_CAN_ECHO_TEST => [.is_can_echo_test]
  | .FUN_WRITE_SHANQI_PRODUCTION_DATE => [.is_write_shanqi_production_date]

/-- A field that is not as it was before the options. -/
def ArgparseValues.Changed (values : ArgparseValues RunField) (f : RunField) : Prop :=
  values.int f ≠ startValues.int f ∨ values.str f ≠ startValues.str f

namespace MainConfig

variable {config parsed : MainConfig} {argv : List CStr}

/-- The arguments fill in the address, the count and the buffer. -/
def Fills (config parsed : MainConfig) : Prop :=
  ∃ reg_addr reg_cnt wr_buf, parsed =
    { config with reg_addr := reg_addr, reg_cnt := reg_cnt, wr_buf := wr_buf }

theorem parseAccess_fills (h : config.parseAccess argv = .ok parsed) : Fills config parsed := by
  unfold parseAccess at h
  split at h
  · split at h
    · dsimp only at h
      split at h
      · cases h
      split at h
      · obtain ⟨reg_cnt, rfl, -⟩ := parseCount_ok h
        exact ⟨_, _, _, rfl⟩
      · obtain ⟨reg_cnt, rfl, -⟩ := parseBytes_ok h
        exact ⟨_, _, _, rfl⟩
    · cases h
  · cases h
    exact ⟨_, _, _, rfl⟩

theorem parseProductionDate_fills (h : config.parseProductionDate argv = .ok parsed) :
    Fills config parsed := by
  unfold parseProductionDate at h
  split at h
  · split at h
    · dsimp only at h
      split at h <;> cases h
      exact ⟨_, _, _, rfl⟩
    · cases h
  · cases h
    exact ⟨_, _, _, rfl⟩

theorem mode_of_otherArgparseParse (h : otherArgparseParse config argv = .ok parsed) :
    parsed.mode = config.chooseMode := by
  rw [otherArgparseParse] at h
  split at h
  · cases h
  obtain ⟨accessed, haccess, h⟩ := bind_eq_ok h
  obtain ⟨dated, hdate, h⟩ := bind_eq_ok h
  obtain ⟨_, _, _, rfl⟩ := parseAccess_fills haccess
  obtain ⟨_, _, _, rfl⟩ := parseProductionDate_fills hdate
  cases h
  rfl

end MainConfig

namespace MainConfig

/-- The tests of `chooseMode` behind the one for `-i`: fields of which one has to be given, and the
mode that leads to. -/
def modeTests (config : MainConfig) : List (List (RunField × Bool) × RunFun) := [
  ([(.is_write, config.is_write), (.is_read, config.is_read)], .FUN_RW),
  ([(.mcu_firmware, config.mcu_firmware.isSome)], .FUN_UPDATE),
  ([(.mcu_force_firmware, config.mcu_force_firmware.isSome)], .FUN_FORCE_UPDATE),
  ([(.is_read_can_event, config.is_read_can_event)], .FUN_READ_CAN_EVENT),
  ([(.is_look_dtc, config.is_look_dtc)], .FUN_LOOK_MPU_DTC),
  ([(.set_dtc, config.set_dtc ≠ 0), (.clean_dtc, config.clean_dtc ≠ 0)],
    .FUN_SET_OR_CLEAN_MPU_DTC),
  ([(.is_send_can, config.is_send_can)], .FUN_SEND_CAN_MSG),
  ([(.is_loop_reveive, config.is_loop_reveive)], .FUN_LOOP_RECEIVE_CAN_MSG),
  ([(.is_opne_wdog, config.is_opne_wdog), (.is_close_wdog, config.is_close_wdog)],
    .FUN_SETTING_WDOG),
  ([(.is_reset_mcu, config.is_reset_mcu)], .FUN_RESET_MCU),
  ([(.rearview_type, config.rearview_type ≠ 0xFFFFFFFF)], .FUN_SET_REARVIEW_TYPE),
  ([(.is_goto_bootloader, config.is_goto_bootloader)], .FUN_GOTO_BOOTLOADER),
  ([(.is_exit_bootloader, config.is_exit_bootloader)], .FUN_EXIT_BOOTLOADER),
  ([(.mcu_debug_level, config.mcu_debug_level ≠ -1)], .FUN_SET_MCU_DEBUG_LEVEL),
  ([(.clean_nvm, config.clean_nvm ≠ 0)], .FUN_CLEAN_NVM),
  ([(.is_can_echo_test, config.is_can_echo_test)], .FUN_CAN_ECHO_TEST),
  ([(.is_write_shanqi_production_date, config.is_write_shanqi_production_date)],
    .FUN_WRITE_SHANQI_PRODUCTION_DATE)]

/-- The mode of the last test that is met. -/
def lastMode (tests : List (List (RunField × Bool) × RunFun)) (mode : RunFun) : RunFun :=
  tests.foldl (fun mode test => if test.1.any Prod.snd then test.2 else mode) mode

theorem chooseMode_eq (config : MainConfig) :
    config.chooseMode = if config.is_show_mcu_info then .FUN_SHOW_MCU_INFO
      else lastMode config.modeTests config.mode := by
  simp [chooseMode, lastMode, modeTests]

theorem lastMode_cases (tests : List (List (RunField × Bool) × RunFun)) (mode : RunFun) :
    lastMode tests mode = mode ∨
      ∃ test ∈ tests, test.1.any Prod.snd = true ∧ lastMode tests mode = test.2 := by
  induction tests generalizing mode with
  | nil => exact .inl rfl
  | cons test tests ih =>
      rcases ih (if test.1.any Prod.snd then test.2 else mode) with hkept | ⟨later, hmem, hmet⟩
      · by_cases hmet : test.1.any Prod.snd
        · rw [if_pos hmet] at hkept
          refine .inr ⟨test, List.mem_cons_self, hmet, ?_⟩
          rwa [lastMode, List.foldl_cons, if_pos hmet]
        · rw [if_neg hmet] at hkept
          exact .inl (by rwa [lastMode, List.foldl_cons, if_neg hmet])
      · exact .inr ⟨later, List.mem_cons_of_mem _ hmem, hmet⟩

theorem fields_of_modeTests (config : MainConfig) :
    ∀ test ∈ config.modeTests, test.2.fields = test.1.map Prod.fst := by
  simp [modeTests, RunFun.fields]

end MainConfig

theorem changed_of_modeTests (values : ArgparseValues RunField) :
    ∀ test ∈ (ToolConfig.ofValues values).modeTests, ∀ field ∈ test.1, field.2 = true →
      values.Changed field.1 := by
  have hflag : ∀ {f : RunField}, startValues.int f = 0 → decide (values.int f ≠ 0) = true →
      values.Changed f := fun hstart hne => .inl (hstart ▸ of_decide_eq_true hne)
  have hword : ∀ {f : RunField} {n : UInt32}, UInt32.ofInt (startValues.int f) = n →
      decide (UInt32.ofInt (values.int f) ≠ n) = true → values.Changed f := by
    rintro f n rfl hne
    exact .inl fun heq => of_decide_eq_true hne (congrArg UInt32.ofInt heq)
  have hname : ∀ {f : RunField}, ((values.str f).map CStr.toName).isSome = true →
      values.Changed f := by
    intro f hsome
    rw [Option.isSome_map] at hsome
    exact .inr (Option.isSome_iff_ne_none.mp hsome)
  have hlevel : decide (values.int .mcu_debug_level ≠ -1) = true →
      values.Changed .mcu_debug_level := fun hne => .inl (of_decide_eq_true hne)
  simp only [MainConfig.modeTests, List.forall_mem_cons, List.not_mem_nil, false_implies,
    implies_true, and_true]
  exact ⟨⟨hflag rfl, hflag rfl⟩, hname, hname, hflag rfl, hflag rfl, ⟨hword rfl, hword rfl⟩,
    hflag rfl, hflag rfl, ⟨hflag rfl, hflag rfl⟩, hflag rfl, hword (by decide), hflag rfl,
    hflag rfl, hlevel, hword rfl, hflag rfl, hflag rfl⟩

theorem chooseMode_changed (values : ArgparseValues RunField) :
    (ToolConfig.ofValues values).chooseMode = .FUN_MPU_ONLINE ∨
      ∃ f ∈ (ToolConfig.ofValues values).chooseMode.fields, values.Changed f := by
  rw [MainConfig.chooseMode_eq]
  split
  · rename_i hshow
    refine .inr ⟨.is_show_mcu_info, List.mem_singleton_self _, .inl ?_⟩
    exact of_decide_eq_true hshow
  · rcases MainConfig.lastMode_cases (ToolConfig.ofValues values).modeTests
      (ToolConfig.ofValues values).mode with hnone | ⟨test, hmem, hmet, hmode⟩
    · exact .inl hnone
    · obtain ⟨field, hfield, hgiven⟩ := List.any_eq_true.mp hmet
      rw [hmode, MainConfig.fields_of_modeTests _ test hmem]
      exact .inr ⟨field.1, List.mem_map_of_mem hfield,
        changed_of_modeTests values test hmem field hfield hgiven⟩

/-- An argument asks for a mode: it names an option that leads to it. -/
def ArgAsks (arg : CStr) (mode : RunFun) : Prop :=
  ∃ opt ∈ toolOptions, Argparse.Names toolOptions arg opt ∧ ∃ f ∈ mode.fields, opt.value = some f

instance (arg : CStr) (mode : RunFun) : Decidable (ArgAsks arg mode) :=
  inferInstanceAs (Decidable (∃ opt ∈ toolOptions,
    Argparse.Names toolOptions arg opt ∧ ∃ f ∈ mode.fields, opt.value = some f))

theorem asked_of_mainConfig {prog : CStr} {args : List CStr} {config : ToolConfig}
    (h : mainConfig (prog :: args) = .ok config) :
    config.mode = .FUN_MPU_ONLINE ∨ ∃ arg ∈ args, ArgAsks arg config.mode := by
  rw [mainConfig] at h
  split at h
  · cases h
  rename_i argc vec values hparse
  dsimp only at h
  split at h
  · cases h
  rename_i parsed hother
  cases h
  show parsed.mode = _ ∨ ∃ arg ∈ args, ArgAsks arg parsed.mode
  rw [MainConfig.mode_of_otherArgparseParse hother]
  rcases chooseMode_changed values with honline | ⟨f, hf, hchanged⟩
  · exact .inl honline
  right
  by_contra hnot
  have hsame := Argparse.parse_values hparse f fun opt hopt arg harg hname hvalue =>
    hnot ⟨arg, harg, opt, hopt, hname, f, hf, hvalue⟩
  exact hchanged.elim (fun hint => hint hsame.1) fun hstr => hstr hsame.2

/-- On every command line, and whatever the MCU and the files answer, the tool either ends without
touching a register, or keeps to the footprint of one mode: the one that keeps the MCU from resetting
the MPU, or one that an argument asks for. -/
theorem main_asked (env : RunEnv) (prog : CStr) (args : List CStr) :
    (∃ exit : MainExit, mainRun env (prog :: args) = .done exit.status) ∨
      ∃ config, mainConfig (prog :: args) = .ok config ∧
        (mainRun env (prog :: args)).Asks (footprint env config).Allows ∧
        (config.mode = .FUN_MPU_ONLINE ∨ ∃ arg ∈ args, ArgAsks arg config.mode) := by
  cases hconfig : mainConfig (prog :: args) with
  | error exit => exact .inl ⟨exit, by rw [mainRun, hconfig]⟩
  | ok config =>
      refine .inr ⟨config, rfl, ?_, asked_of_mainConfig hconfig⟩
      rw [mainRun, hconfig]
      exact asks_run env config

/-! ### The firmware -/

/-- The modes that can reach the registers of the bootloader. -/
def burnModes : List RunFun :=
  [.FUN_RW, .FUN_UPDATE, .FUN_FORCE_UPDATE, .FUN_GOTO_BOOTLOADER, .FUN_EXIT_BOOTLOADER]

/-- Every write ends before the registers of the bootloader. -/
def Footprint.Below (F : Footprint) : Prop :=
  ∀ a d, F.writes a d → a.toNat + d.length ≤ RWREG_BURN_START.toNat

namespace Footprint.Below

variable {F F' : Footprint} {reg_addr : UInt16} {cnts : UInt16 → Prop} {datas : List UInt8 → Prop}

theorem union (h : F.Below) (h' : F'.Below) : (F ∪ F').Below :=
  fun a d hw => hw.elim (h a d) (h' a d)

theorem reading : (reading reg_addr cnts).Below := nofun

theorem writing (n : Nat) (hn : ∀ d, datas d → d.length ≤ n)
    (h : reg_addr.toNat + n ≤ RWREG_BURN_START.toNat) : (writing reg_addr datas).Below := by
  rintro _ d ⟨rfl, hd⟩
  exact (Nat.add_le_add_left (hn d hd) _).trans h

theorem writing_eq (n : Nat) {data : List UInt8} (hn : data.length ≤ n)
    (h : reg_addr.toNat + n ≤ RWREG_BURN_START.toNat) :
    (Footprint.writing reg_addr (· = data)).Below :=
  writing n (fun _ hd => (congrArg List.length hd).trans_le hn) h

theorem wdogFeeding : wdogFeeding.Below := reading.union (writing 1 (fun _ => le_of_eq) (by decide))

theorem canReceiving : canReceiving.Below := reading.union reading

theorem canSending (h : ∀ d, datas d → d.length ≤ 16 * TEST_CAN_BUF_SIZE.toNat) :
    (canSending datas).Below :=
  reading.union (writing _ h (by decide))

end Footprint.Below

theorem footprint_below (env : RunEnv) (config : ToolConfig) (hmode : config.mode ∉ burnModes) :
    (footprint env config).Below := by
  unfold footprint
  cases hfun : config.mode with
  | FUN_RW => simp [hfun, burnModes] at hmode
  | FUN_UPDATE => simp [hfun, burnModes] at hmode
  | FUN_FORCE_UPDATE => simp [hfun, burnModes] at hmode
  | FUN_GOTO_BOOTLOADER => simp [hfun, burnModes] at hmode
  | FUN_EXIT_BOOTLOADER => simp [hfun, burnModes] at hmode
  | FUN_SHOW_MCU_INFO => exact .union .reading .reading
  | FUN_READ_CAN_EVENT => exact .union .reading .reading
  | FUN_LOOK_MPU_DTC => exact .reading
  | FUN_SET_OR_CLEAN_MPU_DTC =>
      refine .union (.union .reading .wdogFeeding) (.writing 4 ?_ (by decide))
      rintro _ ⟨dtc_map, rfl⟩
      exact (Footprint.length_bytes32 _).le
  | FUN_MPU_ONLINE => exact .wdogFeeding
  | FUN_SEND_CAN_MSG =>
      refine .canSending ?_
      rintro _ rfl
      rw [Footprint.length_sentCanMsg]
      decide
  | FUN_LOOP_RECEIVE_CAN_MSG =>
      exact .union (.writing_eq 1 (le_refl 1) (by decide)) .canReceiving
  | FUN_SETTING_WDOG => exact .union .wdogFeeding (.writing_eq 1 (le_refl 1) (by decide))
  | FUN_RESET_MCU => exact .writing_eq 1 (le_refl 1) (by decide)
  | FUN_SET_REARVIEW_TYPE => exact .writing_eq 1 (le_refl 1) (by decide)
  | FUN_SET_MCU_DEBUG_LEVEL => exact .writing_eq 4 (Footprint.length_bytes32 _).le (by decide)
  | FUN_CLEAN_NVM =>
      exact .union .reading (.writing_eq 4 (Footprint.length_bytes32 _).le (by decide))
  | FUN_CAN_ECHO_TEST => exact .union .canReceiving (.canSending fun _ hd => hd.2)
  | FUN_WRITE_SHANQI_PRODUCTION_DATE =>
      exact .writing_eq 4 (List.length_take_le 4 _) (by decide)

/-- On a command line that asks neither for a burn, nor for the way into the bootloader or out of it,
nor for a bare register access, every write of every run ends before the registers of the bootloader.
-/
theorem firmware_safe (env : RunEnv) {prog : CStr} {args : List CStr}
    (hargs : ∀ arg ∈ args, ∀ mode ∈ burnModes, ¬ ArgAsks arg mode)
    {t : List RegI.Event} {q : Prog RegI Int} (hrun : Reach (mainRun env (prog :: args)) t q) :
    ∀ e ∈ t, ∀ reg_addr reg_data timeout, e.1 = RegOp.writeReg reg_addr reg_data timeout →
      reg_addr.toNat + reg_data.length ≤ RWREG_BURN_START.toNat := by
  have hasks : (mainRun env (prog :: args)).Asks fun o => ∀ reg_addr reg_data timeout,
      o = RegOp.writeReg reg_addr reg_data timeout →
        reg_addr.toNat + reg_data.length ≤ RWREG_BURN_START.toNat := by
    rw [mainRun]
    cases hconfig : mainConfig (prog :: args) with
    | error exit => trivial
    | ok config =>
      have hbelow : config.mode ∉ burnModes := by
        intro hmem
        rcases asked_of_mainConfig hconfig with honline | ⟨arg, harg, hasked⟩
        · rw [honline] at hmem
          exact absurd hmem (by decide)
        · exact hargs arg harg _ hmem hasked
      refine (asks_run env config).mono ?_
      rintro _ ho reg_addr reg_data timeout rfl
      exact footprint_below env config hbelow _ _ ho
  exact hasks.forall_mem hrun

/-- `--mcu-reset`, whose letters name other options. -/
theorem firmware_safe_reset : ∃ t reg_addr,
    Runs (mainRun ⟨0, fun _ _ => 0, 0, 0⟩ (["p", "--mcu-reset"].map CStr.ofAscii)) t 0 ∧
      t = [⟨.writeReg reg_addr [1] 200, .ok ()⟩] ∧
      reg_addr.toNat + 1 ≤ RWREG_BURN_START.toNat := by
  have hargs : ∀ arg ∈ ["--mcu-reset"].map CStr.ofAscii, ∀ mode ∈ burnModes,
      ¬ ArgAsks arg mode := by decide
  have hrun : Runs (mainRun ⟨0, fun _ _ => 0, 0, 0⟩ (["p", "--mcu-reset"].map CStr.ofAscii))
      [⟨.writeReg (RWREG_MPU_BUSINESS_REG_START + RESET_MCU) [1] 200, .ok ()⟩] 0 :=
    .ask (.refl _)
  exact ⟨_, _, hrun, rfl, firmware_safe _ hargs hrun _ List.mem_cons_self _ _ _ rfl⟩

end McuRegWr
