import Mathlib.Data.Fintype.OfMap
import McuRegWr.MpuBusiness
import McuRegWr.Proof.Transport.Prompt

/-!
# The fields of the MCU

What the host reads and writes by name: the fields of `MpuBusinessReg` that it uses, the mode of the
bootloader and the `McuInfo`. Some of them only the host changes, others are the MCU's, and a write
of a few is a command to the MCU, on which it may change all of them. A function of the library is a
program that gets and sets fields.
-/

namespace McuRegWr

open Base Prog

theorem bytes32_word32 {bytes : List UInt8} (h : bytes.length = 4) :
    bytes32 (word32 bytes) = bytes := by
  rw [bytes32, toNat_word32 h, ← h]
  exact leBytes_ofLeBytes bytes

inductive FieldType where
  | byte
  | word
  | bytes (n : Nat)

namespace FieldType

abbrev Val : FieldType → Type
  | .byte => UInt8
  | .word => UInt32
  | .bytes n => {bytes : List UInt8 // bytes.length = n}

def size : FieldType → Nat
  | .byte => 1
  | .word => 4
  | .bytes n => n

def encode : (type : FieldType) → type.Val → {bytes : List UInt8 // bytes.length = type.size}
  | .byte, v => ⟨[v], rfl⟩
  | .word, v => ⟨bytes32 v, length_leBytes 4 _⟩
  | .bytes _, v => v

def decode : (type : FieldType) → {bytes : List UInt8 // bytes.length = type.size} → type.Val
  | .byte, data => data.val.headD 0
  | .word, data => word32 data.val
  | .bytes _, data => data

theorem decode_encode (type : FieldType) (v : type.Val) : type.decode (type.encode v) = v := by
  cases type with
  | byte => rfl
  | word => exact word32_bytes32 v
  | bytes n => rfl

theorem encode_decode (type : FieldType) (data : _) : type.encode (type.decode data) = data := by
  cases type with
  | byte =>
      obtain ⟨data, hlen⟩ := data
      obtain ⟨b, rfl⟩ := List.length_eq_one_iff.mp hlen
      rfl
  | word => exact Subtype.ext (bytes32_word32 data.property)
  | bytes n => rfl

end FieldType

inductive BoardField where
  | mpu_online_cnt
  | offline_timeout_reset
  | dtc_map
  | mpu_config_byte
  | reset_mcu
  | is_left_rearview
  | mpu_supply_voltage
  | mcu_debug_level
  | nvm_erase
  | production_date
  | shanqi_app_msg_cmd_sta
  | burn_mode
  | mcu_info
  deriving DecidableEq

namespace BoardField

instance : Fintype BoardField :=
  .ofList [.mpu_online_cnt, .offline_timeout_reset, .dtc_map, .mpu_config_byte, .reset_mcu,
    .is_left_rearview, .mpu_supply_voltage, .mcu_debug_level, .nvm_erase, .production_date,
    .shanqi_app_msg_cmd_sta, .burn_mode, .mcu_info] fun f => by cases f <;> decide

abbrev type : BoardField → FieldType
  | .mpu_online_cnt | .offline_timeout_reset | .reset_mcu | .is_left_rearview | .burn_mode => .byte
  | .dtc_map | .mpu_supply_voltage | .mcu_debug_level | .nvm_erase => .word
  | .mpu_config_byte => .bytes 80
  | .production_date => .bytes 4
  | .shanqi_app_msg_cmd_sta => .bytes 8
  | .mcu_info => .bytes 88

def addr : BoardField → UInt16
  | .mpu_online_cnt => RWREG_MPU_BUSINESS_REG_START + MPU_ONLINE_CNT
  | .offline_timeout_reset => RWREG_MPU_BUSINESS_REG_START + OFFLINE_TIMEOUT_RESET
  | .dtc_map => RWREG_MPU_BUSINESS_REG_START + DTC_MAP
  | .mpu_config_byte => RWREG_MPU_BUSINESS_REG_START + MPU_CONFIG_BYTE
  | .reset_mcu => RWREG_MPU_BUSINESS_REG_START + RESET_MCU
  | .is_left_rearview => RWREG_MPU_BUSINESS_REG_START + IS_LEFT_REARVIEW
  | .mpu_supply_voltage => RWREG_MPU_BUSINESS_REG_START + MPU_SUPPLY_VOLTAGE
  | .mcu_debug_level => RWREG_MPU_BUSINESS_REG_START + MCU_DEBUG_LEVEL
  | .nvm_erase => RWREG_MPU_BUSINESS_REG_START + NVM_ERASE
  | .production_date => RWREG_MPU_BUSINESS_REG_START + PRODUCTION_DATE
  | .shanqi_app_msg_cmd_sta => RWREG_MPU_BUSINESS_REG_START + SHANQI_APP_MSG_CMD_STA
  | .burn_mode => RWREG_BURN_START
  | .mcu_info => ROREG_INFO_START

def size (f : BoardField) : Nat := f.type.size

abbrev Val (f : BoardField) : Type := f.type.Val

/-- A write makes the MCU restart, erase its memory or change its program. -/
def isCommand : BoardField → Bool
  | .reset_mcu | .nvm_erase | .burn_mode => true
  | _ => false

/-- The fields have no register in common. -/
theorem apart : ∀ f g : BoardField, f ≠ g → ∀ i < g.size,
    f.size ≤ (g.addr + UInt16.ofNat i - f.addr).toNat := by
  decide +kernel

theorem size_le (f : BoardField) : f.size ≤ 1022 := by
  cases f <;> decide

end BoardField

/-! ### Fields, read and written -/

inductive FieldOp where
  | get (f : BoardField)
  | set (f : BoardField) (v : f.Val)

@[reducible] def FieldOp.Ans : FieldOp → Type
  | .get f => f.Val
  | .set _ _ => Unit

abbrev FieldI : Iface := ⟨FieldOp, FieldOp.Ans⟩

namespace Field

@[simp] def get (f : BoardField) : Prog FieldI f.Val := @Prog.req FieldI (.get f)

@[simp] def set (f : BoardField) (v : f.Val) : Prog FieldI Unit := @Prog.req FieldI (.set f v)

end Field

/-- The values of the fields that only the host changes. -/
abbrev Board (kept : Set BoardField) : Type := (f : kept) → f.val.Val

namespace Board

variable {kept : Set BoardField}

/-- The map of the faults. -/
abbrev dtcMap (b : Board kept) (hdtc : BoardField.dtc_map ∈ kept) : UInt32 := b ⟨.dtc_map, hdtc⟩

/-- A field that is not among them is not written down. -/
def put (b : Board kept) (f : BoardField) (v : f.Val) : Board kept := fun g =>
  if h : f = g.val then h ▸ v else b g

@[simp] theorem put_self (b : Board kept) {f : BoardField} (hf : f ∈ kept) (v : f.Val) :
    b.put f v ⟨f, hf⟩ = v :=
  dif_pos rfl

theorem put_of_ne (b : Board kept) {f : BoardField} {g : kept} (h : f ≠ g.val) (v : f.Val) :
    b.put f v g = b g :=
  dif_neg h

/-- What the MCU makes of the fields when it is given a command. -/
abbrev Effect (kept : Set BoardField) : Type :=
  (f : BoardField) → f.Val → Board kept → Board kept → Prop

/-- What a field of the MCU's holds is left open. -/
def world (effect : Effect kept) : World FieldI (Board kept)
  | b, .get f, v, b' => b' = b ∧ ∀ hf : f ∈ kept, v = b ⟨f, hf⟩
  | b, .set f v, _, b' => if f.isCommand then effect f v b b' else b' = b.put f v

variable {α : Type} {b : Board kept} {Q : α → Board kept → Prop} {effect : Effect kept}

instance (type : FieldType) : Inhabited type.Val where
  default := match type with
    | .byte => (0 : UInt8)
    | .word => (0 : UInt32)
    | .bytes n => ⟨List.replicate n 0, List.length_replicate⟩

theorem ends_get {f : BoardField} {g : f.Val → Prog FieldI α}
    (h : ∀ v, (∀ hf : f ∈ kept, v = b ⟨f, hf⟩) → (g v).Ends (world effect) b Q) :
    (Field.get f >>= g).Ends (world effect) b Q := by
  classical
  refine ⟨⟨if hf : f ∈ kept then b ⟨f, hf⟩ else default, b, rfl, fun hf => dif_pos hf⟩, ?_⟩
  rintro v b' ⟨hb, hv⟩
  subst hb
  exact h v hv

theorem ends_set {f : BoardField} (hf : f.isCommand = false) {v : f.Val} {g : Prog FieldI α}
    (h : g.Ends (world effect) (b.put f v) Q) :
    (Field.set f v >>= fun _ => g).Ends (world effect) b Q := by
  have hset : ∀ b', world effect b (.set f v) () b' ↔ b' = b.put f v := fun b' => by
    rw [world, hf]
    exact Iff.rfl
  refine ⟨⟨(), b.put f v, (hset _).mpr rfl⟩, fun _ b' hb => ?_⟩
  rw [(hset b').mp hb]
  exact h

end Board

/-- Registers of which the host can rely on the fields `kept`: a read changes none of them and
brings what is there, a write of a field that is no command changes that one alone, and that of a
command has the `effect` of this command. -/
structure Registers.Keeps {ρ : Type} (R : Registers ρ) {kept : Set BoardField}
    (board : ρ → Board kept) (effect : Board.Effect kept) : Prop where
  read {reg_addr reg_cnt : UInt16} {m m' : ρ} {bytes : _}
    (hread : R.read reg_addr reg_cnt m bytes m') : board m' = board m
  shown {f : BoardField} {reg_cnt : UInt16} {m m' : ρ} {bytes : _}
    (hread : R.read f.addr reg_cnt m bytes m') (hcnt : reg_cnt.toNat = f.size) (hf : f ∈ kept) :
    bytes.val = (f.type.encode (board m ⟨f, hf⟩)).val
  write {f : BoardField} {m m' : ρ} {v : f.Val}
    (hwrite : R.write f.addr (f.type.encode v).val m m') (hf : f.isCommand = false) :
    board m' = (board m).put f v
  command {f : BoardField} {m m' : ρ} {v : f.Val}
    (hwrite : R.write f.addr (f.type.encode v).val m m') (hf : f.isCommand = true) :
    effect f v (board m) (board m')

namespace Board

variable {ρ φ α : Type} {R : Registers ρ} {W : World SysI (Mcu ρ)} {kept : Set BoardField}
  {board : ρ → Board kept} {effect : Effect kept} {files : World FileI φ} {timeout : UInt32}

/-- A program does on the registers what another one does on the fields. -/
abbrev Does (R : Registers ρ) (files : World FileI φ) (board : ρ → Board kept)
    (effect : Effect kept) (p : Prog RegI α) (q : Prog FieldI α) : Prop :=
  p.Refines (beside R.world files) (world effect) (fun s => board s.1) q

section

variable (hW : Mcu.Faultless R W) (hR : R.Keeps board effect)
include hW hR

theorem does_readReg_bind (f : BoardField) {cnt : UInt16} (hcnt : cnt.toNat = f.size)
    (data : List UInt8) {k : Int × List UInt8 → Prog RegI α} {g : f.Val → Prog FieldI α}
    (hk : ∀ v, Does R files board effect (k (0, storeAt data 0 (f.type.encode v).val)) (g v)) :
    Does R files board effect (RVMcu.readReg f.addr data cnt timeout >>= k)
      (Field.get f >>= g) := by
  rintro ⟨m, y⟩ Q ⟨-, hends⟩
  refine Mcu.ends_readReg_bind hW (hcnt ▸ f.size_le) fun bytes m' hread => ?_
  let v := f.type.decode ⟨bytes.val, bytes.property.trans hcnt⟩
  have hv : f.type.encode v = ⟨bytes.val, bytes.property.trans hcnt⟩ := f.type.encode_decode _
  have hanswer : world effect (board m) (.get f) v (board m') := by
    refine ⟨hR.read hread, fun hf => ?_⟩
    have hshown : f.type.encode v = f.type.encode (board m ⟨f, hf⟩) := by
      rw [hv]
      exact Subtype.ext (hR.shown hread hcnt hf)
    rw [← f.type.decode_encode v, hshown, f.type.decode_encode]
  have hrun := hk v (m', y) Q (hends v (board m') hanswer)
  rw [hv] at hrun
  exact hrun

theorem does_readReg_other {reg_addr cnt : UInt16} (hcnt : cnt.toNat ≤ 1022) {data : List UInt8}
    {k : Int × List UInt8 → Prog RegI α} {g : Prog FieldI α}
    (hk : ∀ data, Does R files board effect (k (0, data)) g) :
    Does R files board effect (RVMcu.readReg reg_addr data cnt timeout >>= k) g := by
  rintro ⟨m, y⟩ Q hends
  refine Mcu.ends_readReg_bind hW hcnt fun bytes m' hread => ?_
  refine hk _ (m', y) Q ?_
  dsimp only
  rw [hR.read hread]
  exact hends

theorem does_writeReg_bind (f : BoardField) (v : f.Val) {cnt : UInt16} {data : List UInt8}
    (hdata : data.take cnt.toNat = (f.type.encode v).val) {k : Int → Prog RegI α}
    {g : Prog FieldI α} (hk : Does R files board effect (k 0) g) :
    Does R files board effect (RVMcu.writeReg f.addr data cnt timeout >>= k)
      (Field.set f v >>= fun _ => g) := by
  rintro ⟨m, y⟩ Q ⟨-, hends⟩
  have hsmall : (data.take cnt.toNat).length ≤ 1022 := by
    rw [hdata, (f.type.encode v).property]
    exact f.size_le
  refine Mcu.ends_writeReg_bind hW hsmall fun m' hwrite => ?_
  rw [hdata] at hwrite
  refine hk (m', y) Q (hends () (board m') ?_)
  show if f.isCommand then _ else _
  split
  · exact hR.command hwrite ‹_›
  · exact hR.write hwrite (Bool.eq_false_of_not_eq_true ‹_›)

theorem does_writeReg (f : BoardField) (v : f.Val) {cnt : UInt16} {data : List UInt8}
    (hdata : data.take cnt.toNat = (f.type.encode v).val) :
    Does R files board effect (RVMcu.writeReg f.addr data cnt timeout)
      (do Field.set f v; return 0) := by
  have hbind : Does R files board effect (RVMcu.writeReg f.addr data cnt timeout >>= pure)
      (do Field.set f v; return 0) := does_writeReg_bind hW hR f v hdata (refines_pure 0)
  rwa [bind_pure] at hbind

theorem does_readField_bind (f : BoardField) {cnt : UInt16} {data : List UInt8}
    (hcnt : cnt.toNat = f.size) (hdata : data.length = f.size)
    {k : Int × List UInt8 → Prog RegI α} {g : f.Val → Prog FieldI α}
    (hk : ∀ v, Does R files board effect (k (0, (f.type.encode v).val)) (g v)) :
    Does R files board effect (RVMcu.readReg f.addr data cnt timeout >>= k)
      (Field.get f >>= g) := by
  refine does_readReg_bind hW hR f hcnt data fun v => ?_
  rw [storeAt_zero_full (hdata.trans (f.type.encode v).property.symm)]
  exact hk v

end

end Board

/-! ### The functions of the library -/

/-- The functions of the library about the fields. What an argument points to is given with the
value it holds, and the static variable of `RVMcu_WdogFeed` too. -/
inductive BusinessOp where
  | wdogGetSta (is_on_wdog : Int)
  | wdogConfig (is_on_wdog : Int)
  | wdogFeed (last_cnt : UInt8)
  | setMcuDbgLevel (level : Int)
  | cleanNvm (nvm_index : Int)
  | shanQiProductionDate (production_date : {bytes : List UInt8 // bytes.length = 4})
  | shanQiCmsMsgSet (msg_data : {bytes : List UInt8 // bytes.length = 8})
  | writeMpuDtc (dtc_map : UInt32)
  | readMpuDtc (dtc_map : UInt32)
  | mcuReset
  | setRearviewType (is_left_rearview : Int)
  | getRearviewType (is_left_rearview : Int)
  | getConfig80Byte (config_80byte : {bytes : List UInt8 // bytes.length = 80})
  | setSupplyVoltage (mv : UInt32)

namespace BusinessOp

abbrev Ans : BusinessOp → Type
  | .wdogGetSta _ | .getRearviewType _ => Int × Int
  | .wdogFeed _ => Int × UInt8
  | .readMpuDtc _ => Int × UInt32
  | .getConfig80Byte _ => Int × List UInt8
  | _ => Int

def code : (o : BusinessOp) → Prog RegI o.Ans
  | .wdogGetSta is_on_wdog => RVMcu.wdogGetSta is_on_wdog
  | .wdogConfig is_on_wdog => RVMcu.wdogConfig is_on_wdog
  | .wdogFeed last_cnt => RVMcu.wdogFeed last_cnt
  | .setMcuDbgLevel level => RVMcu.setMcuDbgLevel level
  | .cleanNvm nvm_index => RVMcu.cleanNvm nvm_index
  | .shanQiProductionDate production_date => RVMcu.shanQiProductionDate production_date.val
  | .shanQiCmsMsgSet msg_data => RVMcu.shanQiCmsMsgSet msg_data.val
  | .writeMpuDtc dtc_map => RVMcu.writeMpuDtc dtc_map
  | .readMpuDtc dtc_map => RVMcu.readMpuDtc dtc_map
  | .mcuReset => RVMcu.mcuReset
  | .setRearviewType is_left_rearview => RVMcu.setRearviewType is_left_rearview
  | .getRearviewType is_left_rearview => RVMcu.getRearviewType is_left_rearview
  | .getConfig80Byte config_80byte => RVMcu.getConfig80Byte config_80byte.val
  | .setSupplyVoltage mv => RVMcu.setSupplyVoltage mv

/-- What a function is for. -/
def act : (o : BusinessOp) → Prog FieldI o.Ans
  | .wdogGetSta _ => do
      let sta ← Field.get .offline_timeout_reset
      return (0, (sta.toNat : Int))
  | .wdogConfig is_on_wdog => do
      let cnt ← Field.get .mpu_online_cnt
      Field.set .mpu_online_cnt (cnt + 1)
      Field.set .offline_timeout_reset (if is_on_wdog ≠ 0 then 1 else 0)
      return 0
  | .wdogFeed last_cnt => do
      let cnt ← (if last_cnt = 0xff then do
          let cnt ← Field.get .mpu_online_cnt
          return cnt + 1
        else return last_cnt)
      Field.set .mpu_online_cnt cnt
      return (0, cnt + 1)
  | .setMcuDbgLevel level => do
      Field.set .mcu_debug_level (UInt32.ofInt level)
      return 0
  | .cleanNvm nvm_index => do
      let sta ← Field.get .nvm_erase
      if sta ≠ 0 then return -4
      Field.set .nvm_erase (UInt32.ofInt nvm_index)
      return 0
  | .shanQiProductionDate production_date => do
      Field.set .production_date production_date
      return 0
  | .shanQiCmsMsgSet msg_data => do
      Field.set .shanqi_app_msg_cmd_sta msg_data
      return 0
  | .writeMpuDtc dtc_map => do
      Field.set .dtc_map dtc_map
      return 0
  | .readMpuDtc _ => do
      let dtc_map ← Field.get .dtc_map
      return (0, dtc_map)
  | .mcuReset => do
      Field.set .reset_mcu 1
      return 0
  | .setRearviewType is_left_rearview => do
      Field.set .is_left_rearview (UInt8.ofInt is_left_rearview)
      return 0
  | .getRearviewType _ => do
      let sta ← Field.get .is_left_rearview
      return (0, (sta.toNat : Int))
  | .getConfig80Byte _ => do
      let config_80byte ← Field.get .mpu_config_byte
      return (0, config_80byte.val)
  | .setSupplyVoltage mv => do
      Field.set .mpu_supply_voltage mv
      return 0

section

variable {ρ φ : Type} {R : Registers ρ} {W : World SysI (Mcu ρ)} {kept : Set BoardField}
  {board : ρ → Board kept} {effect : Board.Effect kept} {files : World FileI φ}
  (hW : Mcu.Faultless R W) (hR : R.Keeps board effect)
include hW hR

open Board

theorem does_readMpuDtc_bind {α : Type} {v : UInt32} {k : Int × UInt32 → Prog RegI α}
    {g : UInt32 → Prog FieldI α}
    (hk : ∀ dtc_map, Does R files board effect (k (0, dtc_map)) (g dtc_map)) :
    Does R files board effect (RVMcu.readMpuDtc v >>= k) (Field.get .dtc_map >>= g) := by
  rw [RVMcu.readMpuDtc, bind_assoc]
  refine does_readField_bind hW hR .dtc_map rfl (length_leBytes _ _) fun dtc_map => ?_
  show Does R files board effect (k (0, word32 (bytes32 dtc_map))) _
  rw [word32_bytes32]
  exact hk dtc_map

theorem does_cleanNvm (nvm_index : Int) :
    Does R files board effect (RVMcu.cleanNvm nvm_index) (act (.cleanNvm nvm_index)) := by
  refine does_readField_bind hW hR .nvm_erase (by rfl) (by rfl) fun sta => ?_
  show Does R files board effect (if word32 (bytes32 sta) ≠ 0 then _ else _) _
  rw [word32_bytes32]
  by_cases hidle : sta = 0
  · rw [if_neg (not_not.mpr hidle)]
    rw [if_neg (not_not.mpr hidle)]
    exact does_writeReg hW hR .nvm_erase _ (by rfl)
  · rw [if_pos hidle]
    rw [if_pos hidle]
    exact refines_pure _

theorem does_wdogFeed (last_cnt : UInt8) :
    Does R files board effect (RVMcu.wdogFeed last_cnt) (act (.wdogFeed last_cnt)) := by
  have hfeed : ∀ cnt : UInt8, Does R files board effect
      (RVMcu.writeReg (RWREG_MPU_BUSINESS_REG_START + MPU_ONLINE_CNT) [cnt] 1 200 >>= fun ret =>
        pure (ret, cnt + 1))
      (do Field.set .mpu_online_cnt cnt; return (0, cnt + 1)) := fun cnt =>
    does_writeReg_bind hW hR .mpu_online_cnt cnt (by rfl) (refines_pure _)
  rw [RVMcu.wdogFeed, act]
  by_cases hlast : last_cnt = 0xff
  · rw [if_pos hlast, if_pos hlast, bind_assoc]
    exact does_readField_bind hW hR .mpu_online_cnt (by rfl) (by rfl) fun cnt => hfeed (cnt + 1)
  · rw [if_neg hlast, if_neg hlast]
    exact hfeed last_cnt

theorem does_code (o : BusinessOp) : Does R files board effect o.code o.act := by
  cases o with
  | wdogGetSta is_on_wdog =>
      exact does_readField_bind hW hR .offline_timeout_reset (by rfl) (by rfl) fun _ =>
        refines_pure _
  | wdogConfig is_on_wdog =>
      refine does_readField_bind hW hR .mpu_online_cnt (by rfl) (by rfl) fun cnt => ?_
      refine does_writeReg_bind hW hR .mpu_online_cnt (cnt + 1) (by rfl) ?_
      exact does_writeReg hW hR .offline_timeout_reset _ (by rfl)
  | wdogFeed last_cnt => exact does_wdogFeed hW hR last_cnt
  | setMcuDbgLevel level => exact does_writeReg hW hR .mcu_debug_level _ (by rfl)
  | cleanNvm nvm_index => exact does_cleanNvm hW hR nvm_index
  | shanQiProductionDate production_date =>
      exact does_writeReg hW hR .production_date _
        (by exact List.take_of_length_le production_date.property.le)
  | shanQiCmsMsgSet msg_data =>
      exact does_writeReg hW hR .shanqi_app_msg_cmd_sta _
        (by exact List.take_of_length_le msg_data.property.le)
  | writeMpuDtc dtc_map => exact does_writeReg hW hR .dtc_map _ (by rfl)
  | readMpuDtc dtc_map =>
      have hread : Does R files board effect (RVMcu.readMpuDtc dtc_map >>= pure)
          (act (.readMpuDtc dtc_map)) :=
        does_readMpuDtc_bind hW hR fun _ => refines_pure _
      rwa [bind_pure] at hread
  | mcuReset => exact does_writeReg hW hR .reset_mcu _ (by rfl)
  | setRearviewType is_left_rearview => exact does_writeReg hW hR .is_left_rearview _ (by rfl)
  | getRearviewType is_left_rearview =>
      exact does_readField_bind hW hR .is_left_rearview (by rfl) (by rfl) fun _ => refines_pure _
  | getConfig80Byte config_80byte =>
      have hread : Does R files board effect
          (RVMcu.readField MPU_CONFIG_BYTE config_80byte.val 80 >>= pure)
          (act (.getConfig80Byte config_80byte)) :=
        does_readField_bind hW hR .mpu_config_byte rfl config_80byte.property fun v =>
          refines_pure (0, v.val)
      rwa [bind_pure] at hread
  | setSupplyVoltage mv => exact does_writeReg hW hR .mpu_supply_voltage _ (by rfl)

end

theorem fits_writeField (offset : UInt16) {field : List UInt8} {cnt : UInt16}
    (h : cnt.toNat ≤ 1022) : (RVMcu.writeField offset field cnt).Asks RegOp.Fits :=
  RVMcu.asks_writeReg ((List.length_take_le _ _).trans h)

theorem fits_readField (offset : UInt16) (field : List UInt8) {cnt : UInt16}
    (h : cnt.toNat ≤ 1022) : (RVMcu.readField offset field cnt).Asks RegOp.Fits :=
  RVMcu.asks_readReg h

theorem fits_readField_bind {α : Type} (offset : UInt16) (field : List UInt8) {cnt : UInt16}
    (h : cnt.toNat ≤ 1022) {q : Int × List UInt8 → Prog RegI α}
    (hq : ∀ r, (q r).Asks RegOp.Fits) :
    (RVMcu.readField offset field cnt >>= q).Asks RegOp.Fits :=
  (fits_readField offset field h).bind hq

theorem fits_code (o : BusinessOp) : o.code.Asks RegOp.Fits := by
  cases o with
  | wdogGetSta is_on_wdog =>
      refine fits_readField_bind _ _ (by decide) fun (ret, sta) => ?_
      dsimp only
      split <;> trivial
  | getRearviewType is_left_rearview =>
      refine fits_readField_bind _ _ (by decide) fun (ret, sta) => ?_
      dsimp only
      split <;> trivial
  | cleanNvm nvm_index =>
      refine fits_readField_bind _ _ (by decide) fun (ret, nvm_index_tmp) => ?_
      dsimp only
      split
      · trivial
      split
      · trivial
      · exact fits_writeField _ (by decide)
  | wdogConfig is_on_wdog =>
      refine fits_readField_bind _ _ (by decide) fun (ret, cnt) => ?_
      exact (fits_writeField _ (by decide)).bind fun _ => fits_writeField _ (by decide)
  | wdogFeed last_cnt =>
      have hfeed : ∀ cnt : UInt8, (RVMcu.writeReg (RWREG_MPU_BUSINESS_REG_START + MPU_ONLINE_CNT)
          [cnt] 1 200 >>= fun ret => pure (ret, cnt + 1)).Asks RegOp.Fits := fun cnt =>
        (fits_writeField MPU_ONLINE_CNT (by decide)).bind fun _ => trivial
      show (RVMcu.wdogFeed last_cnt).Asks RegOp.Fits
      rw [RVMcu.wdogFeed]
      refine Asks.bind ?_ hfeed
      split
      · exact fits_readField_bind MPU_ONLINE_CNT _ (by decide) fun _ => trivial
      · trivial
  | readMpuDtc dtc_map => exact fits_readField_bind DTC_MAP _ (by decide) fun _ => trivial
  | getConfig80Byte config_80byte => exact fits_readField _ _ (by decide)
  | writeMpuDtc dtc_map => exact fits_writeField DTC_MAP (by decide)
  | _ => exact fits_writeField _ (by decide)

end BusinessOp

abbrev BusinessI : Iface := ⟨BusinessOp, BusinessOp.Ans⟩

/-- On a line without faults, whatever has been left on it, a program of calls of the library does
what the calls are for, on the fields that only the host changes, whatever the others hold and
whatever the MCU makes of a command. -/
theorem business_calls_exact {ρ φ α : Type} {R : Registers ρ} {W : World SysI (Mcu ρ)}
    {kept : Set BoardField} {board : ρ → Board kept} {effect : Board.Effect kept}
    {files : World FileI φ} (hW : Mcu.Faultless R W) (hR : R.Keeps board effect)
    (h : SpiRegHandle) (p : Prog BusinessI α) :
    ((p.lower BusinessOp.code).lower (SpiReg.access h)).Refines (Guard.alone W files)
      (Board.world effect) (fun s => board s.1.regs) (p.lower BusinessOp.act) := by
  have hdoes : Board.Does R files board effect (p.lower BusinessOp.code) (p.lower BusinessOp.act) :=
    Refines.lower (fun o => BusinessOp.does_code hW hR o) p
  exact (Mcu.refines_access hW h (asks_lower BusinessOp.fits_code p)).trans hdoes

/-! ### An MCU with these fields -/

namespace RegFile

variable {kept : Set BoardField}

def board (m : RegFile) : Board kept := fun f =>
  f.val.type.decode ⟨m.load f.val.addr f.val.size, length_load m f.val.addr f.val.size⟩

theorem board_store (m : RegFile) (f : BoardField) (v : f.Val) :
    ((m.store f.addr (f.type.encode v).val).board : Board kept) = m.board.put f v := by
  have hlen : (f.type.encode v).val.length = f.size := (f.type.encode v).property
  funext ⟨g, hg⟩
  by_cases hfg : f = g
  · subst hfg
    have hload := @load_store m f.addr _ (hlen.le.trans (f.size_le.trans (by decide)))
    rw [hlen] at hload
    rw [Board.put_self, board]
    calc f.type.decode ⟨_, length_load _ f.addr f.size⟩
        = f.type.decode (f.type.encode v) := congrArg f.type.decode (Subtype.ext hload)
      _ = v := f.type.decode_encode v
  · rw [Board.put_of_ne _ hfg, board, board]
    congr 2
    apply load_store_of_disjoint
    rw [hlen]
    exact BoardField.apart f g hfg

theorem board_store_other (m : RegFile) {f : BoardField} (hf : f ∉ kept) (v : f.Val) :
    ((m.store f.addr (f.type.encode v).val).board : Board kept) = m.board := by
  rw [board_store]
  funext g
  exact Board.put_of_ne _ (fun heq : f = g.val => hf (heq ▸ g.property)) v

end RegFile

/-- The fields that the MCU has no reason to change by itself. -/
def hostFields : Set BoardField :=
  {f | f ∉ [BoardField.mpu_config_byte, .reset_mcu, .nvm_erase, .burn_mode, .mcu_info]}

/-- An MCU that has erased its memory, and comes back from a reset, before the next access. -/
def swiftMcu : Server RegFile where
  read := Server.regFile.read
  write reg_addr reg_data m :=
    ((m.store reg_addr reg_data).store BoardField.nvm_erase.addr (bytes32 0)).store
      BoardField.reset_mcu.addr [0]

theorem board_swiftMcu {f : BoardField} {m m' : RegFile} {v : f.Val}
    (hwrite : swiftMcu.registers.write f.addr (f.type.encode v).val m m') :
    (m'.board : Board hostFields) = m.board.put f v := by
  subst hwrite
  have hnvm : (BoardField.nvm_erase) ∉ hostFields := by simp [hostFields]
  have hreset : (BoardField.reset_mcu) ∉ hostFields := by simp [hostFields]
  show RegFile.board (((m.store _ _).store _ _).store _ _) = _
  exact ((RegFile.board_store_other _ hreset (0 : UInt8)).trans
    (RegFile.board_store_other _ hnvm (0 : UInt32))).trans (m.board_store f v)

/-- Its commands change no field that the host relies on. -/
theorem keeps_swiftMcu : swiftMcu.registers.Keeps (RegFile.board : RegFile → Board hostFields)
    fun f v b b' => b' = b.put f v where
  read {reg_addr reg_cnt m m' bytes} hread := by
    obtain ⟨-, rfl⟩ := Prod.mk.inj hread
    rfl
  shown {f reg_cnt m m' bytes} hread hcnt hf := by
    obtain ⟨hbytes, -⟩ := Prod.mk.inj hread
    rw [← hbytes, RegFile.board, FieldType.encode_decode]
    exact congrArg (m.load f.addr) hcnt
  write {f m m' v} hwrite _ := board_swiftMcu hwrite
  command {f m m' v} hwrite _ := board_swiftMcu hwrite

theorem dtc_map_mem : BoardField.dtc_map ∈ hostFields := by simp [hostFields]

/-- The fault 3, a feed, and a look at the faults. -/
def threeCalls : Prog BusinessI (Int × UInt32) := do
  let _ ← @req BusinessI (.writeMpuDtc 4)
  let _ ← @req BusinessI (.wdogFeed 0xff)
  @req BusinessI (.readMpuDtc 0)

theorem business_calls_exact_threeCalls :
    ((threeCalls.lower BusinessOp.code).lower (SpiReg.access ⟨3, 4, 5⟩)).Ends
      (Guard.alone swiftMcu.line fun _ _ _ _ => False) (⟨fun _ => 0, .data [0x06], [SPI_ACK]⟩, ())
      fun r s => r = (0, 4) ∧ s.1.regs 0x1011 = 1 := by
  have hcnt : BoardField.mpu_online_cnt ∈ hostFields := by simp [hostFields]
  refine (business_calls_exact (Mcu.faultless_server _) keeps_swiftMcu _ threeCalls _
    (fun r b => r = (0, 4) ∧ b ⟨_, hcnt⟩ = (1 : UInt8)) ?_).mono ?_
  · refine Board.ends_set rfl (Board.ends_get fun cnt hcnt' => ?_)
    refine Board.ends_set rfl (Board.ends_get fun dtc hdtc => ?_)
    have hzero : cnt = (0 : UInt8) := hcnt' hcnt
    have hfour : dtc = (4 : UInt32) := hdtc dtc_map_mem
    subst hzero hfour
    exact ⟨rfl, rfl⟩
  · rintro r s ⟨hr, hb⟩
    exact ⟨hr, hb⟩

end McuRegWr
