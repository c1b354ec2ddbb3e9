import McuRegWr.Modes
import McuRegWr.Proof.Business.CanEvent
import McuRegWr.Proof.Business.DtcEdit
import McuRegWr.Proof.Command.Access
import McuRegWr.Proof.Ring.Client

/-!
# What the modes touch

The registers that each mode of the tool reads and the bytes it writes to which of them. A footprint
is a union of such accesses, and it bounds a mode whatever the MCU answers.
-/

namespace McuRegWr

open Base Prog

/-- The blocks a program may read, the bytes it may write and the file it may open. -/
structure Footprint where
  reads : UInt16 → UInt16 → Prop
  writes : UInt16 → List UInt8 → Prop
  opens : String → Prop

namespace Footprint

def reading (reg_addr : UInt16) (cnts : UInt16 → Prop) : Footprint :=
  ⟨fun a n => a = reg_addr ∧ cnts n, fun _ _ => False, fun _ => False⟩

def writing (reg_addr : UInt16) (datas : List UInt8 → Prop) : Footprint :=
  ⟨fun _ _ => False, fun a d => a = reg_addr ∧ datas d, fun _ => False⟩

def opening (path : String) : Footprint :=
  ⟨fun _ _ => False, fun _ _ => False, fun p => p = path⟩

instance : Union Footprint where
  union F F' := ⟨fun a n => F.reads a n ∨ F'.reads a n, fun a d => F.writes a d ∨ F'.writes a d,
    fun p => F.opens p ∨ F'.opens p⟩

/-- A descriptor is used only where a file may be opened, and sleeping touches nothing. -/
def Allows (F : Footprint) : RegOp → Prop
  | .readReg reg_addr reg_cnt _ => F.reads reg_addr reg_cnt
  | .writeReg reg_addr reg_data _ => F.writes reg_addr reg_data
  | .openFile path => F.opens path
  | .readFile _ _ => ∃ path, F.opens path
  | .closeFile _ => ∃ path, F.opens path
  | .usleep _ => True

variable {F F' : Footprint} {reg_addr reg_cnt a n : UInt16} {data d : List UInt8} {path p : String}
  {cnts : UInt16 → Prop} {datas : List UInt8 → Prop} {timeout : UInt32}

@[simp] theorem union_reads : (F ∪ F').reads a n ↔ F.reads a n ∨ F'.reads a n := Iff.rfl

@[simp] theorem union_writes : (F ∪ F').writes a d ↔ F.writes a d ∨ F'.writes a d := Iff.rfl

@[simp] theorem union_opens : (F ∪ F').opens p ↔ F.opens p ∨ F'.opens p := Iff.rfl

@[simp] theorem reading_reads : (reading reg_addr cnts).reads a n ↔ a = reg_addr ∧ cnts n := Iff.rfl

@[simp] theorem reading_writes : ¬ (reading reg_addr cnts).writes a d := id

@[simp] theorem reading_opens : ¬ (reading reg_addr cnts).opens p := id

@[simp] theorem writing_reads : ¬ (writing reg_addr datas).reads a n := id

@[simp] theorem writing_writes : (writing reg_addr datas).writes a d ↔ a = reg_addr ∧ datas d :=
  Iff.rfl

@[simp] theorem writing_opens : ¬ (writing reg_addr datas).opens p := id

@[simp] theorem opening_reads : ¬ (opening path).reads a n := id

@[simp] theorem opening_writes : ¬ (opening path).writes a d := id

@[simp] theorem opening_opens : (opening path).opens p ↔ p = path := Iff.rfl

theorem asks_readReg (h : F.reads reg_addr reg_cnt) :
    (RVMcu.readReg reg_addr data reg_cnt timeout).Asks F.Allows :=
  RVMcu.asks_readReg h

theorem asks_writeReg (h : F.writes reg_addr (data.take reg_cnt.toNat)) :
    (RVMcu.writeReg reg_addr data reg_cnt timeout).Asks F.Allows :=
  RVMcu.asks_writeReg h

/-! ### The footprints -/

/-- Of a field of the business registers. -/
def readingField (offset cnt : UInt16) : Footprint :=
  reading (RWREG_MPU_BUSINESS_REG_START + offset) (· = cnt)

def writingField (offset : UInt16) (datas : List UInt8 → Prop) : Footprint :=
  writing (RWREG_MPU_BUSINESS_REG_START + offset) datas

def readingInfo : Footprint := reading ROREG_INFO_START (· = MCU_INFO_SIZE)

/-- Of a command to the bootloader. -/
def commanding (mode : UInt8) : Footprint := writing RWREG_BURN_START (· = [mode])

def wdogFeeding : Footprint :=
  readingField MPU_ONLINE_CNT 1 ∪ writingField MPU_ONLINE_CNT (·.length = 1)

/-- The size of whole messages, at most as many as the buffer of the tool holds. -/
def wholeMessages (n : Nat) : Prop := 16 ∣ n ∧ n ≤ 16 * TEST_CAN_BUF_SIZE.toNat

/-- Of receiving messages. -/
def canReceiving : Footprint :=
  reading (RWREG_CB_MPU_BUSINESS_RECEIVE_CAN_START + CBREG_CMD_GET_SIZE) (· = 4) ∪
    reading (RWREG_CB_MPU_BUSINESS_RECEIVE_CAN_START + CBREG_CMD_READ) (wholeMessages ·.toNat)

/-- Of sending messages. -/
def canSending (datas : List UInt8 → Prop) : Footprint :=
  reading (RWREG_CB_MPU_BUSINESS_SEND_CAN_START + CBREG_CMD_GET_FREESIZE) (· = 4) ∪
    writing (RWREG_CB_MPU_BUSINESS_SEND_CAN_START + CBREG_CMD_WRITE) datas

/-- Of burning, without the file and the way into the bootloader. -/
def burningRegs : Footprint :=
  readingInfo ∪ reading RWREG_BURN_START (· = 2) ∪
    (commanding BURNMODE_START_ERASE ∪ commanding BURNMODE_START_BURN ∪
      commanding BURNMODE_FINISH_TRANSFER ∪ commanding BURNMODE_EXIT_BURN) ∪
    (writing (RWREG_CB_BURN_START + CBREG_CMD_CLEAN) (· = [0x00]) ∪
      reading (RWREG_CB_BURN_START + CBREG_CMD_GET_FREESIZE) (· = 4) ∪
      writing (RWREG_CB_BURN_START + CBREG_CMD_WRITE) (·.length ≤ BURN_PARTICLE_SIZE))

def fileBurning (path : String) : Footprint := burningRegs ∪ opening path

end Footprint

open Footprint

/-- What a mode touches. -/
def footprint (env : RunEnv) (config : ToolConfig) : Footprint :=
  match config.mode with
  | .FUN_RW =>
      if config.is_write then
        writing config.reg_addr.toUInt16 (WrData env.rand config.toMainConfig)
      else reading config.reg_addr.toUInt16 (· = config.reg_cnt)
  | .FUN_SHOW_MCU_INFO => readingInfo ∪ readingField IS_LEFT_REARVIEW 1
  | .FUN_UPDATE =>
      commanding BURNMODE_APP_GOTO_BOOTLOADER ∪ fileBurning (config.mcu_firmware.getD "")
  | .FUN_FORCE_UPDATE => fileBurning (config.mcu_force_firmware.getD "")
  | .FUN_READ_CAN_EVENT =>
      reading ROREG_CAN_EVENT_START (· = 64) ∪
        reading (ROREG_CAN_EVENT_START + 64) (·.toNat ≤ CAN_EVENT_USE_CNT)
  | .FUN_LOOK_MPU_DTC => readingField DTC_MAP 4
  | .FUN_SET_OR_CLEAN_MPU_DTC =>
      readingField DTC_MAP 4 ∪ wdogFeeding ∪ writingField DTC_MAP fun data =>
        ∃ dtc_map, data = bytes32 (editedMap config.set_dtc config.clean_dtc dtc_map)
  | .FUN_MPU_ONLINE => wdogFeeding
  | .FUN_SEND_CAN_MSG => canSending (· = (sentCanMsg config.toMainConfig).toBytes)
  | .FUN_LOOP_RECEIVE_CAN_MSG =>
      writing (RWREG_CB_MPU_BUSINESS_RECEIVE_CAN_START + CBREG_CMD_CLEAN) (· = [0x00]) ∪
        canReceiving
  | .FUN_SETTING_WDOG =>
      wdogFeeding ∪ writingField OFFLINE_TIMEOUT_RESET
        (· = [if !config.is_close_wdog && config.is_opne_wdog then 1 else 0])
  | .FUN_RESET_MCU => writingField RESET_MCU (· = [1])
  | .FUN_SET_REARVIEW_TYPE =>
      writingField IS_LEFT_REARVIEW (· = [UInt8.ofInt config.rearview_type.toBitVec.toInt])
  | .FUN_SET_MCU_DEBUG_LEVEL =>
      writingField MCU_DEBUG_LEVEL (· = bytes32 (UInt32.ofInt config.mcu_debug_level))
  | .FUN_GOTO_BOOTLOADER => readingInfo ∪ commanding BURNMODE_APP_GOTO_BOOTLOADER
  | .FUN_EXIT_BOOTLOADER => readingInfo ∪ commanding BURNMODE_EXIT_BURN
  | .FUN_CLEAN_NVM =>
      readingField NVM_ERASE 4 ∪ writingField NVM_ERASE (· = bytes32 config.clean_nvm)
  | .FUN_CAN_ECHO_TEST => canReceiving ∪ canSending (wholeMessages ·.length)
  | .FUN_WRITE_SHANQI_PRODUCTION_DATE =>
      writingField PRODUCTION_DATE (· = config.wr_buf.val.take 4)

/-! ### The functions under the modes -/

namespace Footprint

variable {F : Footprint} {env : RunEnv} {config : ToolConfig} {timeout : UInt32}

theorem length_bytes32 (v : UInt32) : (bytes32 v).length = 4 := length_leBytes 4 _

theorem take_bytes32 (v : UInt32) : (bytes32 v).take (4 : UInt16).toNat = bytes32 v :=
  List.take_of_length_le (length_bytes32 v).le

theorem asks_readField {offset cnt : UInt16} {field : List UInt8}
    (h : F.reads (RWREG_MPU_BUSINESS_REG_START + offset) cnt) :
    (RVMcu.readField offset field cnt).Asks F.Allows :=
  asks_readReg h

theorem asks_writeField {offset cnt : UInt16} {field : List UInt8}
    (h : F.writes (RWREG_MPU_BUSINESS_REG_START + offset) (field.take cnt.toNat)) :
    (RVMcu.writeField offset field cnt).Asks F.Allows :=
  asks_writeReg h

theorem asks_readMcuInfo {wr_buf : List UInt8} (h : F.reads ROREG_INFO_START MCU_INFO_SIZE) :
    (readMcuInfo wr_buf).Asks F.Allows :=
  asks_readReg h

theorem asks_writeBurnMode {reg : BurnStaReg} (h : F.writes RWREG_BURN_START [reg.burn_mode]) :
    (writeBurnMode reg timeout).Asks F.Allows :=
  asks_writeReg h

theorem asks_readBurnSta {reg : BurnStaReg} (h : F.reads RWREG_BURN_START 2) :
    (readBurnSta reg timeout).Asks F.Allows :=
  (asks_readReg h).bind fun _ => trivial

theorem asks_wdogFeed (hread : F.reads (RWREG_MPU_BUSINESS_REG_START + MPU_ONLINE_CNT) 1)
    (hwrite : ∀ b, F.writes (RWREG_MPU_BUSINESS_REG_START + MPU_ONLINE_CNT) [b])
    (last_cnt : UInt8) : (RVMcu.wdogFeed last_cnt).Asks F.Allows := by
  rw [RVMcu.wdogFeed]
  refine Asks.bind ?_ fun last_cnt => (asks_writeReg (hwrite last_cnt)).bind fun _ => trivial
  split
  · exact (asks_readReg hread).bind fun _ => trivial
  · trivial

theorem asks_wdogConfig {is_on_wdog : Int}
    (hread : F.reads (RWREG_MPU_BUSINESS_REG_START + MPU_ONLINE_CNT) 1)
    (hwrite : ∀ b, F.writes (RWREG_MPU_BUSINESS_REG_START + MPU_ONLINE_CNT) [b])
    (hsta : F.writes (RWREG_MPU_BUSINESS_REG_START + OFFLINE_TIMEOUT_RESET)
      [if is_on_wdog ≠ 0 then 1 else 0]) : (RVMcu.wdogConfig is_on_wdog).Asks F.Allows :=
  (asks_readReg hread).bind fun _ => (asks_writeReg (hwrite _)).bind fun _ => asks_writeReg hsta

/-! ### Rings -/

theorem asks_clean {cb_addr : UInt16} (h : F.writes (cb_addr + CBREG_CMD_CLEAN) [0x00]) :
    (RegWrCb.clean regWrCbHandle cb_addr timeout).Asks F.Allows := by
  rw [RegWrCb.clean_eq]
  refine ⟨h, fun r => ?_⟩
  cases r <;> trivial

theorem asks_ringWrite {cb_addr : UInt16} {data : List UInt8} {data_size : UInt32}
    (hread : F.reads (cb_addr + CBREG_CMD_GET_FREESIZE) 4)
    (hwrite : ∀ n, F.writes (cb_addr + CBREG_CMD_WRITE) (data.take n)) :
    (RegWrCb.write regWrCbHandle cb_addr data data_size timeout).Asks F.Allows := by
  rw [RegWrCb.write_eq]
  refine ⟨hread, fun r => ?_⟩
  cases r with
  | error code => trivial
  | ok size =>
      dsimp only
      split
      · trivial
      split
      · trivial
      refine ⟨hwrite _, fun r => ?_⟩
      cases r <;> trivial

theorem toNat_burst (ret : Int) {nmemb : UInt32} (hn : nmemb.toNat < 4096) :
    ((RegWrCb.grains ret PCAN_MSG_SIZE nmemb.toUInt16).toUInt32 * PCAN_MSG_SIZE).toUInt16.toNat =
        16 * (RegWrCb.grains ret PCAN_MSG_SIZE nmemb.toUInt16).toNat ∧
      (RegWrCb.grains ret PCAN_MSG_SIZE nmemb.toUInt16).toNat ≤ nmemb.toNat := by
  have hle : (RegWrCb.grains ret PCAN_MSG_SIZE nmemb.toUInt16).toNat ≤ nmemb.toNat := by
    have hnum : nmemb.toUInt16.toNat = nmemb.toNat := by
      rw [UInt32.toNat_toUInt16, Nat.mod_eq_of_lt (by omega)]
    rw [← hnum, RegWrCb.grains]
    split
    · exact le_refl _
    · rename_i hnot
      have hnot := UInt32.le_iff_toNat_le.mp (UInt32.not_lt.mp hnot)
      rw [UInt16.toNat_toUInt32] at hnot
      rw [UInt32.toNat_toUInt16]
      exact (Nat.mod_le _ _).trans hnot
  refine ⟨?_, hle⟩
  rw [UInt32.toNat_toUInt16, UInt32.toNat_mul, UInt16.toNat_toUInt32,
    show PCAN_MSG_SIZE.toNat = 16 from rfl]
  omega

theorem wlp_receiveCanMsgBlock {can_msg : List UInt8}
    (hsize : F.reads (RWREG_CB_MPU_BUSINESS_RECEIVE_CAN_START + CBREG_CMD_GET_SIZE) 4)
    (hread : ∀ n : UInt16, wholeMessages n.toNat →
      F.reads (RWREG_CB_MPU_BUSINESS_RECEIVE_CAN_START + CBREG_CMD_READ) n) :
    (RVMcu.receiveCanMsgBlock can_msg TEST_CAN_BUF_SIZE timeout).wlp anything (fun _ => F.Allows)
      (fun a _ => can_msg.length = 16 * TEST_CAN_BUF_SIZE.toNat → a.2.length = can_msg.length)
      () := by
  rw [RVMcu.receiveCanMsgBlock, RegWrCb.granRead_eq]
  refine ⟨hsize, fun r _ _ => ?_⟩
  cases r with
  | error code => exact fun _ => rfl
  | ok size =>
      have hburst := toNat_burst (int32 size.val) (show TEST_CAN_BUF_SIZE.toNat < 4096 by decide)
      have hwhole : wholeMessages ((RegWrCb.grains (int32 size.val) PCAN_MSG_SIZE
          TEST_CAN_BUF_SIZE.toUInt16).toUInt32 * PCAN_MSG_SIZE).toUInt16.toNat :=
        ⟨hburst.1 ▸ Nat.dvd_mul_right _ _, hburst.1 ▸ Nat.mul_le_mul_left 16 hburst.2⟩
      dsimp only
      split
      · exact fun _ => rfl
      split
      · exact fun _ => rfl
      refine ⟨hread _ hwhole, fun r _ _ => ?_⟩
      cases r with
      | error code => exact fun _ => rfl
      | ok bytes =>
          intro hlen
          apply length_storeAt
          rw [bytes.property, hlen, Nat.zero_add]
          exact hwhole.2

theorem asks_receiveCanMsgBlock {can_msg : List UInt8}
    (hsize : F.reads (RWREG_CB_MPU_BUSINESS_RECEIVE_CAN_START + CBREG_CMD_GET_SIZE) 4)
    (hread : ∀ n : UInt16, wholeMessages n.toNat →
      F.reads (RWREG_CB_MPU_BUSINESS_RECEIVE_CAN_START + CBREG_CMD_READ) n) :
    (RVMcu.receiveCanMsgBlock can_msg TEST_CAN_BUF_SIZE timeout).Asks F.Allows :=
  asks_of_wlp (wlp_receiveCanMsgBlock hsize hread)

theorem asks_sendCanMsgBlock {can_msg : List UInt8} {cnt : UInt32}
    (hsize : F.reads (RWREG_CB_MPU_BUSINESS_SEND_CAN_START + CBREG_CMD_GET_FREESIZE) 4)
    (hwrite : ∀ ret, RegWrCb.grains ret PCAN_MSG_SIZE cnt.toUInt16 ≠ 0 →
      F.writes (RWREG_CB_MPU_BUSINESS_SEND_CAN_START + CBREG_CMD_WRITE)
        (can_msg.take ((RegWrCb.grains ret PCAN_MSG_SIZE cnt.toUInt16).toUInt32 *
          PCAN_MSG_SIZE).toUInt16.toNat)) :
    (RVMcu.sendCanMsgBlock can_msg cnt timeout).Asks F.Allows := by
  rw [RVMcu.sendCanMsgBlock, RegWrCb.granWrite_eq]
  refine ⟨hsize, fun r => ?_⟩
  cases r with
  | error code => trivial
  | ok size =>
      dsimp only
      split
      · trivial
      split
      · trivial
      rename_i hnum
      refine ⟨hwrite _ hnum, fun r => ?_⟩
      cases r <;> trivial

theorem asks_sendCanMsg {can_msg : List UInt8} (hlen : can_msg.length = 16)
    (hsize : F.reads (RWREG_CB_MPU_BUSINESS_SEND_CAN_START + CBREG_CMD_GET_FREESIZE) 4)
    (hwrite : F.writes (RWREG_CB_MPU_BUSINESS_SEND_CAN_START + CBREG_CMD_WRITE) can_msg) :
    (RVMcu.sendCanMsg can_msg timeout).Asks F.Allows := by
  apply asks_sendCanMsgBlock hsize
  intro ret hnum
  have hburst := toNat_burst ret (show (1 : UInt32).toNat < 4096 by decide)
  have hpos := Nat.pos_of_ne_zero fun hzero => hnum (UInt16.toNat_inj.mp hzero)
  rw [hburst.1, List.take_of_length_le]
  · exact hwrite
  · omega

/-! ### Burning -/

variable {path : String}

/-- What a burn does with the registers stays in the footprint. -/
structure BurnsRegs (F : Footprint) : Prop where
  reads : ∀ a n, burningRegs.reads a n → F.reads a n
  writes : ∀ a d, burningRegs.writes a d → F.writes a d

/-- A burn of the file, with the way into the bootloader or without, stays in the footprint. -/
structure Burns (F : Footprint) (path : String) : Prop extends BurnsRegs F where
  opens : F.opens path

theorem burns_fileBurning (path : String) : Burns (fileBurning path) path :=
  ⟨⟨fun _ _ => Or.inl, fun _ _ => Or.inl⟩, by simp [fileBurning]⟩

theorem BurnsRegs.command (h : BurnsRegs F) {mode : UInt8}
    (hmode : mode ∈ [BURNMODE_START_ERASE, BURNMODE_START_BURN, BURNMODE_FINISH_TRANSFER,
      BURNMODE_EXIT_BURN]) : F.writes RWREG_BURN_START [mode] := by
  apply h.writes
  simp [burningRegs, commanding, readingInfo] at hmode ⊢
  tauto

theorem BurnsRegs.readBurnSta (h : BurnsRegs F) {reg : BurnStaReg} :
    (readBurnSta reg timeout).Asks F.Allows :=
  asks_readBurnSta (h.reads _ _ (by simp [burningRegs]))

theorem BurnsRegs.readPartition (h : BurnsRegs F) :
    (RVMcu.readPartition timeout).Asks F.Allows :=
  (asks_readReg (h.reads _ _ (by simp [burningRegs, readingInfo]))).bind fun _ => trivial

theorem BurnsRegs.burnChunk (h : BurnsRegs F) {data : List UInt8}
    (hlen : data.length ≤ BURN_PARTICLE_SIZE) (reg : BurnStaReg) :
    (burnChunk data reg).Asks F.Allows := by
  apply asks_loop
  intro cs
  rw [burnChunkRound]
  split
  · refine (asks_ringWrite (h.reads _ _ (by simp [burningRegs])) fun n => ?_).bind fun ret => ?_
    · apply h.writes
      have hle : min n (data.length - cs.start) ≤ BURN_PARTICLE_SIZE := by omega
      simp [burningRegs, hle]
    split
    · trivial
    split
    · apply h.readBurnSta.bind
      intro (ret, reg)
      dsimp only
      split
      · trivial
      split
      · trivial
      split <;> trivial
    · split <;> trivial
  · trivial

theorem BurnsRegs.burnFileRound (h : BurnsRegs F) (reg : BurnStaReg)
    (r : Except Fail {bytes : List UInt8 // bytes.length ≤ BURN_PARTICLE_SIZE}) :
    (match r with
      | .error _ => return .inr (.ok reg)
      | .ok firmware_data => do
          if firmware_data.val = [] then return .inr (.ok reg)
          match ← McuRegWr.burnChunk firmware_data.val reg with
          | .error ret => return .inr (.error ret)
          | .ok reg => return .inl reg :
      Prog RegI (BurnStaReg ⊕ Except Int BurnStaReg)).Asks F.Allows := by
  cases r with
  | error code => trivial
  | ok data =>
      show @Asks RegI _ _ (if data.val = [] then _ else _)
      split
      · trivial
      · apply (h.burnChunk data.property reg).bind
        intro r
        cases r <;> trivial

theorem BurnsRegs.burnFinish (h : BurnsRegs F) (fuel : Nat) (r : Except Int BurnStaReg) :
    (match r with
      | .error ret => return ret
      | .ok _ => do
          let _ ← writeBurnMode ⟨BURNMODE_FINISH_TRANSFER, 0⟩ 500
          match ← Prog.loop burnResultRound fuel ⟨BURNMODE_FINISH_TRANSFER, 0⟩ with
          | .error ret => return ret
          | .ok reg =>
              if -(reg.parameter.toNat : Int) < 0 then return -reg.parameter.toNat
              let _ ← writeBurnMode { reg with burn_mode := BURNMODE_EXIT_BURN } 200
              return -reg.parameter.toNat : Prog RegI Int).Asks F.Allows := by
  have hresult : ∀ reg, (burnResultRound reg).Asks F.Allows := by
    intro reg
    apply h.readBurnSta.bind
    intro (ret, reg)
    dsimp only
    split
    · trivial
    split
    · trivial
    · exact ⟨trivial, fun _ => trivial⟩
  cases r with
  | error ret => trivial
  | ok reg =>
      refine (asks_writeBurnMode (h.command (by simp))).bind fun _ => ?_
      apply (asks_loop hresult fuel _).bind
      intro r
      cases r with
      | error ret => trivial
      | ok reg =>
          dsimp only
          split
          · trivial
          · exact (asks_writeBurnMode (h.command (by simp))).bind fun _ => trivial

theorem Burns.burnFile (h : Burns F path) (fuel : Nat) (fd : Int) (reg : BurnStaReg) :
    (burnFile fuel fd reg).Asks F.Allows := by
  have hfile : ∀ reg, (burnFileRound fd reg).Asks F.Allows := fun reg =>
    ⟨⟨path, h.opens⟩, h.burnFileRound reg⟩
  exact (asks_loop hfile fuel reg).bind (h.burnFinish fuel)

theorem Burns.burnMcu (h : Burns F path) (fuel : Nat) : (burnMcu fuel path).Asks F.Allows := by
  apply (asks_writeBurnMode (h.command (by simp))).bind
  intro ret
  split
  · trivial
  apply h.readBurnSta.bind
  intro (ret, reg)
  dsimp only
  split
  · trivial
  split
  · trivial
  apply (asks_writeBurnMode (h.command (by simp))).bind
  intro ret
  split
  · trivial
  refine (asks_clean (h.writes _ _ (by simp [burningRegs]))).bind fun _ => ⟨h.opens, fun fd => ?_⟩
  show @Asks RegI _ _ (if (fd : Int) < 0 then _ else _)
  split
  · trivial
  · exact (h.burnFile fuel fd _).bind fun ret => ⟨⟨path, h.opens⟩, fun _ => trivial⟩

theorem Burns.getBurnFirmwarePart (h : Burns F path) :
    (getBurnFirmwarePart path).Asks F.Allows := by
  have hfile : ∃ path, F.opens path := ⟨path, h.opens⟩
  refine ⟨h.opens, fun fd => ?_⟩
  show @Asks RegI _ _ (if (fd : Int) < 0 then _ else _)
  split
  · trivial
  refine ⟨hfile, fun r => ?_⟩
  cases r with
  | error code => exact ⟨hfile, fun _ => trivial⟩
  | ok head_data =>
      show @Asks RegI _ _ (if head_data.val.length ≠ HEAD_DATA_SIZE then _ else _)
      split
      · exact ⟨hfile, fun _ => trivial⟩
      split <;> exact ⟨hfile, fun _ => trivial⟩

theorem Burns.burnChecked (h : Burns F path) (fuel : Nat) (reg : BurnStaReg) :
    (RVMcu.burnChecked fuel path reg).Asks F.Allows := by
  apply h.readBurnSta.bind
  intro (ret, reg)
  dsimp only
  split
  · trivial
  split
  · trivial
  split
  · apply h.getBurnFirmwarePart.bind
    intro part
    split
    · exact (asks_writeBurnMode (h.command (by simp))).bind fun _ => trivial
    · exact h.burnMcu fuel
  · exact h.burnMcu fuel

theorem Burns.update (h : Burns F path)
    (hgoto : F.writes RWREG_BURN_START [BURNMODE_APP_GOTO_BOOTLOADER]) (fuel : Nat) :
    (RVMcu.burnMcu fuel path).Asks F.Allows := by
  apply h.readPartition.bind
  intro (ret, partition)
  dsimp only
  split
  · trivial
  split
  · apply (asks_writeBurnMode hgoto).bind
    intro ret
    split
    · trivial
    · exact ⟨trivial, fun _ => h.burnChecked fuel _⟩
  · exact h.burnChecked fuel _

theorem Burns.forceUpdate (h : Burns F path) (fuel : Nat) :
    (RVMcu.forceBurnMcu fuel path).Asks F.Allows := by
  have hround : ∀ u, (RVMcu.forceRound u).Asks F.Allows := by
    intro u
    apply h.readPartition.bind
    intro (ret, partition)
    dsimp only
    split <;> trivial
  exact (asks_loop hround fuel ()).bind fun _ => h.burnChecked fuel _

/-! ### The modes -/

theorem asks_funShowMcuInfo (hinfo : F.reads ROREG_INFO_START MCU_INFO_SIZE)
    (htype : F.reads (RWREG_MPU_BUSINESS_REG_START + IS_LEFT_REARVIEW) 1) (config : MainConfig) :
    (funShowMcuInfo config).Asks F.Allows := by
  apply (asks_readMcuInfo hinfo).bind
  intro (ret, mcu_info)
  dsimp only
  split
  · trivial
  refine Asks.bind ((asks_readField htype).bind ?_) ?_
  · intro (ret, sta)
    dsimp only
    split <;> trivial
  · intro (ret, is_left_rearview)
    dsimp only
    split <;> trivial

theorem asks_funShowMcuCanEvent (hvalid : F.reads ROREG_CAN_EVENT_START 64)
    (hevent : ∀ n : UInt16, n.toNat ≤ CAN_EVENT_USE_CNT → F.reads (ROREG_CAN_EVENT_START + 64) n) :
    funShowMcuCanEvent.Asks F.Allows := by
  apply (asks_readReg hvalid).bind
  intro (ret, valid)
  dsimp only
  split
  · trivial
  split
  · trivial
  refine (asks_readReg (hevent _ ?_)).bind ?_
  · have hlt : validMaxEvent valid CAN_EVENT_USE_CNT < CAN_EVENT_USE_CNT :=
      validMaxEvent_lt (by decide)
    rw [UInt16.toNat_ofNat']
    exact (Nat.mod_le _ _).trans hlt
  · intro (ret, event)
    dsimp only
    split <;> trivial

theorem asks_readMpuDtc (h : F.reads (RWREG_MPU_BUSINESS_REG_START + DTC_MAP) 4)
    (dtc_map : UInt32) : (RVMcu.readMpuDtc dtc_map).Asks F.Allows :=
  (asks_readReg h).bind fun _ => trivial

theorem asks_funSetOrCleanMpuDtc {config : RunConfig}
    (hmap : F.reads (RWREG_MPU_BUSINESS_REG_START + DTC_MAP) 4)
    (hwrite : ∀ dtc_map, F.writes (RWREG_MPU_BUSINESS_REG_START + DTC_MAP)
      (bytes32 (editedMap config.set_dtc config.clean_dtc dtc_map)))
    (hread : F.reads (RWREG_MPU_BUSINESS_REG_START + MPU_ONLINE_CNT) 1)
    (hfeed : ∀ b, F.writes (RWREG_MPU_BUSINESS_REG_START + MPU_ONLINE_CNT) [b])
    (last_cnt : UInt8) : (funSetOrCleanMpuDtc config last_cnt).Asks F.Allows := by
  rw [funSetOrCleanMpuDtc]
  split
  · trivial
  apply (asks_readMpuDtc hmap 0).bind
  rintro ⟨ret, dtc_map⟩
  dsimp only
  split
  · trivial
  apply (asks_wdogFeed hread hfeed last_cnt).bind
  rintro ⟨-, last_cnt⟩
  refine (asks_writeReg ?_).bind fun ret => ?_
  · rw [take_bytes32, setDtcBit_set, setDtcBit_clean]
    exact hwrite dtc_map
  · split <;> trivial

theorem asks_funLoopReceiveCanMsg
    (hclean : F.writes (RWREG_CB_MPU_BUSINESS_RECEIVE_CAN_START + CBREG_CMD_CLEAN) [0x00])
    (hsize : F.reads (RWREG_CB_MPU_BUSINESS_RECEIVE_CAN_START + CBREG_CMD_GET_SIZE) 4)
    (hread : ∀ n : UInt16, wholeMessages n.toNat →
      F.reads (RWREG_CB_MPU_BUSINESS_RECEIVE_CAN_START + CBREG_CMD_READ) n)
    (asc : Bool) (last_rtime : UInt16) (rtime : Rat) (fuel : Nat) :
    (funLoopReceiveCanMsg asc last_rtime rtime fuel).Asks F.Allows := by
  refine (asks_clean hclean).bind fun _ => asks_loop (fun b => ?_) _ _
  apply (asks_receiveCanMsgBlock hsize hread).bind
  intro (ret, can_msg)
  dsimp only
  split
  · trivial
  split
  · exact ⟨trivial, fun _ => trivial⟩
  · trivial

theorem wholeMessages_take {can_msg : List UInt8}
    (hlen : can_msg.length = 16 * TEST_CAN_BUF_SIZE.toNat) (pos : Nat) (num : UInt16) :
    wholeMessages ((can_msg.drop (PCAN_MSG_SIZE.toNat * pos)).take
      (num.toUInt32 * PCAN_MSG_SIZE).toUInt16.toNat).length := by
  have hsize : PCAN_MSG_SIZE.toNat = 16 := rfl
  have hnum : (num.toUInt32 * PCAN_MSG_SIZE).toUInt16.toNat = 16 * num.toNat % 65536 := by
    rw [UInt32.toNat_toUInt16, UInt32.toNat_mul, UInt16.toNat_toUInt32, hsize]
    omega
  rw [List.length_take, List.length_drop, hlen, hnum, hsize, wholeMessages]
  omega

theorem asks_funLoopCanEchoTest
    (hsize : F.reads (RWREG_CB_MPU_BUSINESS_RECEIVE_CAN_START + CBREG_CMD_GET_SIZE) 4)
    (hread : ∀ n : UInt16, wholeMessages n.toNat →
      F.reads (RWREG_CB_MPU_BUSINESS_RECEIVE_CAN_START + CBREG_CMD_READ) n)
    (hfree : F.reads (RWREG_CB_MPU_BUSINESS_SEND_CAN_START + CBREG_CMD_GET_FREESIZE) 4)
    (hwrite : ∀ data : List UInt8, wholeMessages data.length →
      F.writes (RWREG_CB_MPU_BUSINESS_SEND_CAN_START + CBREG_CMD_WRITE) data)
    (fuel : Nat) : (funLoopCanEchoTest fuel).Asks F.Allows := by
  refine asks_of_wlp (Q := fun _ _ => True) (wlp_loop
    (fun b _ => b.can_msg.length = 16 * TEST_CAN_BUF_SIZE.toNat) (fun b _ hlen => ?_) fuel ?_)
  · rw [canEchoRound]
    split
    · simp only [wlp_bind]
      have hsend : (RVMcu.sendCanMsgBlock (b.can_msg.drop (PCAN_MSG_SIZE.toNat * b.can_msg_pos))
          (UInt32.ofNat (b.can_msg_end - b.can_msg_pos)) 100).Asks F.Allows :=
        asks_sendCanMsgBlock hfree fun _ _ => hwrite _ (wholeMessages_take hlen _ _)
      refine hsend.wlp (fun _ _ => id) fun ret _ => ?_
      split
      · exact ⟨trivial, fun _ _ _ => hlen⟩
      · exact hlen
    · simp only [wlp_bind]
      refine wlp_conseq (wlp_receiveCanMsgBlock hsize hread) fun a _ hkept => ?_
      have hlen := (hkept hlen).trans hlen
      obtain ⟨ret, can_msg⟩ := a
      dsimp only
      split
      · exact hlen
      split
      · exact ⟨trivial, fun _ _ _ => hlen⟩
      · exact hlen
  · exact List.length_replicate

theorem length_sentCanMsg (config : MainConfig) : (sentCanMsg config).toBytes.length = 16 := by
  have hlen : (sentCanMsg config).can_len.toNat ≤ 8 := by
    rw [sentCanMsg]
    dsimp only
    split
    · decide
    · rename_i hle
      have hle := UInt16.le_iff_toNat_le.mp (UInt16.not_lt.mp hle)
      exact (Nat.mod_le _ _).trans hle
  have hdata : (sentCanMsg config).can_data.length = 8 := by
    rw [sentCanMsg] at hlen ⊢
    dsimp only at hlen ⊢
    simp only [storeAt, List.take_zero, List.nil_append, List.length_append, List.length_drop,
      List.length_take, List.length_replicate]
    omega
  simp [PCanMsg.toBytes, hdata, length_leBytes]

theorem asks_commandMcu {stays : UInt32 → Bool} {burn_mode : UInt8}
    (hinfo : F.reads ROREG_INFO_START MCU_INFO_SIZE) (hmode : F.writes RWREG_BURN_START [burn_mode])
    (config : MainConfig) : (commandMcu config stays burn_mode).Asks F.Allows := by
  apply (asks_readMcuInfo hinfo).bind
  intro (ret, mcu_info)
  dsimp only
  split
  · trivial
  split
  · trivial
  · exact asks_writeBurnMode hmode

theorem ofInt_toInt (v : UInt32) : UInt32.ofInt v.toBitVec.toInt = v := by
  have hback : (v.toBitVec.toInt % (2 ^ 32 : Nat)).toNat = v.toNat := by
    rw [← BitVec.toNat_ofInt, BitVec.ofInt_toInt]
    rfl
  apply UInt32.toNat_inj.mp
  rw [UInt32.ofInt, UInt32.toNat_ofNat']
  norm_cast at hback ⊢
  rw [hback]
  exact Nat.mod_eq_of_lt v.toNat_lt

theorem asks_cleanNvm {nvm_index : Int}
    (hread : F.reads (RWREG_MPU_BUSINESS_REG_START + NVM_ERASE) 4)
    (hwrite : F.writes (RWREG_MPU_BUSINESS_REG_START + NVM_ERASE)
      (bytes32 (UInt32.ofInt nvm_index))) : (RVMcu.cleanNvm nvm_index).Asks F.Allows := by
  apply (asks_readField hread).bind
  intro (ret, nvm_index_tmp)
  dsimp only
  split
  · trivial
  split
  · trivial
  · exact asks_writeField (by rwa [take_bytes32])

end Footprint

theorem asks_run (env : RunEnv) (config : ToolConfig) :
    (run env config).Asks (footprint env config).Allows := by
  unfold run footprint
  cases config.mode with
  | FUN_RW =>
      apply asks_funWr
      · intro hwrite
        simp [hwrite, Allows]
      · intro hwrite data hdata
        simpa [hwrite, Allows] using hdata
  | FUN_SHOW_MCU_INFO =>
      exact (asks_funShowMcuInfo (by simp [readingInfo]) (by simp [readingField]) _).bind
        fun _ => trivial
  | FUN_UPDATE =>
      have hburn : Burns (commanding BURNMODE_APP_GOTO_BOOTLOADER ∪
          fileBurning (config.mcu_firmware.getD "")) (config.mcu_firmware.getD "") :=
        ⟨⟨fun _ _ h => .inr (.inl h), fun _ _ h => .inr (.inl h)⟩, by simp [fileBurning]⟩
      exact hburn.update (by simp [commanding]) _
  | FUN_FORCE_UPDATE =>
      exact (burns_fileBurning _).forceUpdate _
  | FUN_READ_CAN_EVENT =>
      exact (asks_funShowMcuCanEvent (by simp) (fun n hn => by simp [hn])).bind fun _ => trivial
  | FUN_LOOK_MPU_DTC =>
      refine Asks.bind ?_ fun _ => trivial
      apply (asks_readMpuDtc (by simp [readingField]) 0).bind
      intro (ret, dtc_map)
      dsimp only
      split <;> trivial
  | FUN_SET_OR_CLEAN_MPU_DTC =>
      refine (asks_funSetOrCleanMpuDtc ?_ ?_ ?_ ?_ _).bind fun _ => trivial
      · simp [readingField]
      · exact fun dtc_map => .inr ⟨rfl, dtc_map, rfl⟩
      · simp [wdogFeeding, readingField]
      · simp [wdogFeeding, writingField]
  | FUN_MPU_ONLINE =>
      apply asks_loop
      intro last_cnt
      refine ⟨trivial, fun _ => (Footprint.asks_wdogFeed ?_ ?_ last_cnt).bind fun _ => trivial⟩
      all_goals simp [readingField, writingField, wdogFeeding]
  | FUN_SEND_CAN_MSG =>
      apply asks_sendCanMsg (length_sentCanMsg _)
      all_goals simp [canSending]
  | FUN_LOOP_RECEIVE_CAN_MSG =>
      apply asks_funLoopReceiveCanMsg
      all_goals simp +contextual [canReceiving]
  | FUN_SETTING_WDOG =>
      apply asks_wdogConfig
      · simp [wdogFeeding, readingField]
      · simp [wdogFeeding, writingField]
      · have hsta : (if (if config.is_close_wdog then 0 else if config.is_opne_wdog then 1 else 0 :
            Int) ≠ 0 then 1 else 0 : UInt8) =
              if !config.is_close_wdog && config.is_opne_wdog then 1 else 0 := by
          cases config.is_close_wdog <;> cases config.is_opne_wdog <;> rfl
        rw [hsta]
        simp [writingField]
  | FUN_RESET_MCU => exact asks_writeField (by simp [writingField])
  | FUN_SET_REARVIEW_TYPE => exact asks_writeField (by simp [writingField])
  | FUN_SET_MCU_DEBUG_LEVEL =>
      exact asks_writeField (by rw [take_bytes32]; simp [writingField])
  | FUN_GOTO_BOOTLOADER =>
      apply asks_commandMcu
      all_goals simp [readingInfo, commanding]
  | FUN_EXIT_BOOTLOADER =>
      apply asks_commandMcu
      all_goals simp [readingInfo, commanding]
  | FUN_CLEAN_NVM =>
      apply asks_cleanNvm
      all_goals simp [readingField, writingField, ofInt_toInt]
  | FUN_CAN_ECHO_TEST =>
      apply asks_funLoopCanEchoTest
      all_goals simp +contextual [canReceiving, canSending]
  | FUN_WRITE_SHANQI_PRODUCTION_DATE => exact asks_writeField (by simp [writingField])

end McuRegWr
