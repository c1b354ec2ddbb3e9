import McuRegWr.Proof.Ring.Client
import McuRegWr.Proof.Transport.Prompt

/-!
# A bootloader that keeps to the protocol

The other party of a burn, as `mpu-burn-mcu.h` describes it: it erases, receives and checks when it
is told to, in this order. What it finds in an image is its own affair, and so is how fast it takes
one, within the limits that the host sets. The file lies on a file system with one file.
-/

namespace McuRegWr

open Base Prog

/-- Where a bootloader is in a burn. -/
structure Boot where
  partition : UInt32
  sta : BurnStaReg
  flash : List UInt8
  /-- The room in the ring when the host last looked. -/
  room : Nat
  /-- How often the ring can still be found full in this chunk of the image. -/
  full : Nat
  /-- How often the status can still be read before the image is checked. -/
  checks : Nat

/-- A chunk may find the ring full as often as the host tries it again. -/
def fullMax : Nat := BURN_WR_MAX_RETRY + 1

/-- The bytes of the image that are received. -/
structure Boot.Receives (b : Boot) (data : List UInt8) (b' : Boot) : Prop where
  sta : b'.sta = b.sta
  flash : b'.flash = b.flash ++ data
  /-- With a whole chunk, another one begins. -/
  full : b'.full ≤ b.full ∨ BURN_PARTICLE_SIZE ∣ b'.flash.length ∧ b'.full ≤ fullMax

/-- A bootloader, as the host goes by it: where it is, the partition it burns, the error it finds in
an image, 0 for none, and how often the status is read before it has. -/
structure Bootloader (ρ : Type) where
  boot : ρ → Boot
  part : UInt8
  verdict : List UInt8 → UInt8
  checking : Nat

namespace Bootloader

variable {ρ : Type}

def result (B : Bootloader ρ) (image : List UInt8) : BurnStaReg :=
  if B.verdict image = 0 then ⟨BURNMODE_FINISH_BURN, 0⟩
  else ⟨BURNMODE_BURN_ERROR, B.verdict image⟩

/-- The registers of a bootloader that keeps to the protocol. -/
structure Follows (B : Bootloader ρ) (R : Registers ρ) : Prop where
  info {m m' : ρ} {bytes : _} (hread : R.read ROREG_INFO_START MCU_INFO_SIZE m bytes m') :
    word32 ((bytes.val.drop MCU_INFO_PARTITION).take 4) = (B.boot m).partition ∧
      B.boot m' = B.boot m
  /-- The status that is read is the one the MCU then has. -/
  shown {m m' : ρ} {bytes : _} (hread : R.read RWREG_BURN_START 2 m bytes m') :
    bytes.val = (B.boot m').sta.toBytes
  /-- It does not change by being read, unless the MCU is at work. -/
  steady {m m' : ρ} {bytes : _} (hread : R.read RWREG_BURN_START 2 m bytes m')
    (herase : (B.boot m).sta.burn_mode ≠ BURNMODE_START_ERASE)
    (hcheck : (B.boot m).sta.burn_mode ≠ BURNMODE_FINISH_TRANSFER) : B.boot m' = B.boot m
  /-- After its pause the host finds the bootloader. -/
  gotoBootloader {m m' : ρ} (hwrite : R.write RWREG_BURN_START [BURNMODE_APP_GOTO_BOOTLOADER] m m')
    (happ : (B.boot m).partition ≠ BFP_BOOT) :
    (B.boot m').partition = BFP_BOOT ∧ (B.boot m').sta = ⟨BURNMODE_WAIT_BURN, B.part⟩
  startErase {m m' : ρ} (hwrite : R.write RWREG_BURN_START [BURNMODE_START_ERASE] m m')
    (hmode : (B.boot m).sta.burn_mode = BURNMODE_WAIT_BURN) :
    (B.boot m').sta.burn_mode = BURNMODE_START_ERASE ∨
      (B.boot m').sta.burn_mode = BURNMODE_ERASE_OK
  /-- The status is then read with five seconds to answer, and answered when the MCU has erased. -/
  erased {m m' : ρ} {bytes : _} (hread : R.read RWREG_BURN_START 2 m bytes m')
    (hmode : (B.boot m).sta.burn_mode = BURNMODE_START_ERASE) :
    (B.boot m').sta.burn_mode = BURNMODE_ERASE_OK
  startBurn {m m' : ρ} (hwrite : R.write RWREG_BURN_START [BURNMODE_START_BURN] m m')
    (hmode : (B.boot m).sta.burn_mode = BURNMODE_ERASE_OK) :
    (B.boot m').sta.burn_mode = BURNMODE_START_BURN ∧ (B.boot m').flash = [] ∧
      (B.boot m').full ≤ fullMax
  clean {m m' : ρ} (hwrite : R.write (RWREG_CB_BURN_START + CBREG_CMD_CLEAN) [0x00] m m') :
    B.boot m' = B.boot m
  /-- There is room in the ring, or one time less that there is none. -/
  freeSize {m m' : ρ} {bytes : _}
    (hread : R.read (RWREG_CB_BURN_START + CBREG_CMD_GET_FREESIZE) 4 m bytes m')
    (hmode : (B.boot m).sta.burn_mode = BURNMODE_START_BURN) :
    ∃ n < 2 ^ 31, bytes.val = leBytes 4 n ∧
      if n = 0 then ∃ k < (B.boot m).full, B.boot m' = { B.boot m with full := k }
      else B.boot m' = { B.boot m with room := n }
  receive {m m' : ρ} {data : List UInt8}
    (hwrite : R.write (RWREG_CB_BURN_START + CBREG_CMD_WRITE) data m m')
    (hmode : (B.boot m).sta.burn_mode = BURNMODE_START_BURN)
    (hroom : data.length ≤ (B.boot m).room) : (B.boot m).Receives data (B.boot m')
  finishTransfer {m m' : ρ} (hwrite : R.write RWREG_BURN_START [BURNMODE_FINISH_TRANSFER] m m')
    (hmode : (B.boot m).sta.burn_mode = BURNMODE_START_BURN) :
    (B.boot m').sta.burn_mode = BURNMODE_FINISH_TRANSFER ∧ (B.boot m').flash = (B.boot m).flash ∧
      (B.boot m').checks ≤ B.checking
  /-- The image is still being checked, or has been. -/
  checked {m m' : ρ} {bytes : _} (hread : R.read RWREG_BURN_START 2 m bytes m')
    (hmode : (B.boot m).sta.burn_mode = BURNMODE_FINISH_TRANSFER) :
    (B.boot m').flash = (B.boot m).flash ∧
      ((B.boot m').sta.burn_mode = BURNMODE_FINISH_TRANSFER ∧
          (B.boot m').checks < (B.boot m).checks ∨
        (B.boot m').sta = B.result (B.boot m).flash)
  exitBurn {m m' : ρ} (hwrite : R.write RWREG_BURN_START [BURNMODE_EXIT_BURN] m m')
    (hmode : (B.boot m).sta.burn_mode = BURNMODE_FINISH_BURN) :
    (B.boot m').sta.burn_mode = BURNMODE_EXIT_BURN ∧ (B.boot m').flash = (B.boot m).flash

theorem result_mode (B : Bootloader ρ) (image : List UInt8) :
    (B.result image).burn_mode ≠ BURNMODE_FINISH_TRANSFER := by
  rw [result]
  split
  · show BURNMODE_FINISH_BURN ≠ BURNMODE_FINISH_TRANSFER
    decide
  · show BURNMODE_BURN_ERROR ≠ BURNMODE_FINISH_TRANSFER
    decide

theorem result_parameter (B : Bootloader ρ) (image : List UInt8) :
    (B.result image).parameter = B.verdict image := by
  rw [result]
  split
  · exact Eq.symm ‹_›
  · rfl

/-! ### The file -/

/-- The file system, with what the descriptor has left while it is open. -/
def fileSystem (path : String) (file : List UInt8) :
    Option (List UInt8) → (o : FileI.Op) → FileI.Ans o × Option (List UInt8)
  | y, ⟨.openFile p, _⟩ => if p = path then ((3 : Int), some file) else ((-1 : Int), y)
  | some rest, ⟨.readFile _ count, _⟩ =>
      (.ok ⟨rest.take count, List.length_take_le _ _⟩, some (rest.drop count))
  | none, ⟨.readFile _ _, _⟩ => (.error ⟨-1, SpiReg.minus_one_neg⟩, none)
  | _, ⟨.closeFile _, _⟩ => ((), none)
  | y, ⟨.usleep _, _⟩ => ((), y)
  | y, ⟨.readReg _ _ _, _⟩ => (.error ⟨-1, SpiReg.minus_one_neg⟩, y)
  | y, ⟨.writeReg _ _ _, _⟩ => (.error ⟨-1, SpiReg.minus_one_neg⟩, y)

/-- Its calls are answered at once. -/
abbrev oneFile (path : String) (file : List UInt8) : World FileI (Option (List UInt8)) :=
  fun y o r y' => fileSystem path file y o = (r, y')

section

variable {α : Type} {regs : World RegI ρ} {path : String} {file : List UInt8} {m : ρ}
  {y : Option (List UInt8)} {Q : α → ρ × Option (List UInt8) → Prop}

/-- A call of the file system is answered, and the registers are as before. -/
theorem ends_fileOp_bind {o : RegOp} {ho : o.isAccess = false} {r : RegOp.Ans o}
    {y' : Option (List UInt8)} (hanswer : fileSystem path file y ⟨o, ho⟩ = (r, y'))
    {k : RegOp.Ans o → Prog RegI α}
    (hk : (k r).Ends (beside regs (oneFile path file)) (m, y') Q) :
    (@req RegI o >>= k).Ends (beside regs (oneFile path file)) (m, y) Q := by
  have hbeside : ∀ r₁ m₁ y₁, beside regs (oneFile path file) (m, y) o r₁ (m₁, y₁) ↔
      m₁ = m ∧ fileSystem path file y ⟨o, ho⟩ = (r₁, y₁) := fun r₁ m₁ y₁ => by
    rw [beside, dif_pos ho]
  refine ⟨⟨r, (m, y'), (hbeside _ _ _).mpr ⟨rfl, hanswer⟩⟩, ?_⟩
  rintro r₁ ⟨m₁, y₁⟩ hworld
  obtain ⟨rfl, hanswer'⟩ := (hbeside r₁ m₁ y₁).mp hworld
  obtain ⟨rfl, rfl⟩ := Prod.mk.inj (hanswer.symm.trans hanswer')
  exact hk

theorem ends_openRdonly_bind {k : Int → Prog RegI α}
    (hk : (k 3).Ends (beside regs (oneFile path file)) (m, some file) Q) :
    (File.openRdonly path >>= k).Ends (beside regs (oneFile path file)) (m, y) Q := by
  have hopen : fileSystem path file y (FileI.openFile path) = ((3 : Int), some file) := by
    cases y <;> exact if_pos rfl
  exact ends_fileOp_bind hopen hk

theorem ends_readFile_bind {fd : Int} {count : Nat} {rest : List UInt8}
    {k : _ → Prog RegI α}
    (hk : (k (.ok ⟨rest.take count, List.length_take_le _ _⟩)).Ends
      (beside regs (oneFile path file)) (m, some (rest.drop count)) Q) :
    (File.read fd count >>= k).Ends (beside regs (oneFile path file)) (m, some rest) Q := by
  have hread : fileSystem path file (some rest) (FileI.readFile fd count) =
      (.ok ⟨rest.take count, List.length_take_le _ _⟩, some (rest.drop count)) := rfl
  exact ends_fileOp_bind hread hk

theorem ends_close_bind {fd : Int} {k : Unit → Prog RegI α}
    (hk : (k ()).Ends (beside regs (oneFile path file)) (m, none) Q) :
    (File.close fd >>= k).Ends (beside regs (oneFile path file)) (m, y) Q := by
  have hclose : fileSystem path file y (FileI.closeFile fd) = ((), none) := by cases y <;> rfl
  exact ends_fileOp_bind hclose hk

theorem ends_usleep_bind {usec : Nat} {k : Unit → Prog RegI α}
    (hk : (k ()).Ends (beside regs (oneFile path file)) (m, y) Q) :
    (File.usleep usec >>= k).Ends (beside regs (oneFile path file)) (m, y) Q := by
  have hsleep : fileSystem path file y (FileI.usleep usec) = ((), y) := by cases y <;> rfl
  exact ends_fileOp_bind hsleep hk

end

/-! ### The accesses of a burn -/

section

variable {φ α : Type} {R : Registers ρ} {W : World SysI (Mcu ρ)} {files : World FileI φ}
  {B : Bootloader ρ} {m : ρ} {y : φ} {Q : α → ρ × φ → Prop} {timeout : UInt32}
  (hW : Mcu.Faultless R W) (hB : B.Follows R)
include hW

theorem ends_writeBurnMode_bind {reg : BurnStaReg} {k : Int → Prog RegI α}
    (hk : ∀ m', R.write RWREG_BURN_START [reg.burn_mode] m m' →
      (k 0).Ends (beside R.world files) (m', y) Q) :
    (writeBurnMode reg timeout >>= k).Ends (beside R.world files) (m, y) Q :=
  Mcu.ends_writeReg_bind hW ((List.length_take_le _ _).trans (by decide)) hk

include hB

theorem ends_readBurnSta_bind {reg : BurnStaReg} {k : Int × BurnStaReg → Prog RegI α}
    (hk : ∀ bytes m', R.read RWREG_BURN_START 2 m bytes m' →
      (k (0, (B.boot m').sta)).Ends (beside R.world files) (m', y) Q) :
    (readBurnSta reg timeout >>= k).Ends (beside R.world files) (m, y) Q := by
  rw [readBurnSta, bind_assoc]
  refine Mcu.ends_readReg_bind hW (by decide) fun bytes m' hread => ?_
  have hreg : BurnStaReg.ofBytes (storeAt reg.toBytes 0 bytes.val) = (B.boot m').sta := by
    rw [BurnStaReg.ofBytes_storeAt bytes.property, hB.shown hread]
    rfl
  show (k (0, BurnStaReg.ofBytes _)).Ends _ _ _
  rw [hreg]
  exact hk bytes m' hread

theorem ends_look_bind (herase : (B.boot m).sta.burn_mode ≠ BURNMODE_START_ERASE)
    (hcheck : (B.boot m).sta.burn_mode ≠ BURNMODE_FINISH_TRANSFER) {reg : BurnStaReg}
    {k : Int × BurnStaReg → Prog RegI α}
    (hk : ∀ m', B.boot m' = B.boot m →
      (k (0, (B.boot m).sta)).Ends (beside R.world files) (m', y) Q) :
    (readBurnSta reg timeout >>= k).Ends (beside R.world files) (m, y) Q := by
  refine ends_readBurnSta_bind hW hB fun bytes m' hread => ?_
  have hsame := hB.steady hread herase hcheck
  rw [hsame]
  exact hk m' hsame

theorem ends_readPartition_bind {k : Int × UInt32 → Prog RegI α}
    (hk : ∀ m', B.boot m' = B.boot m →
      (k (0, (B.boot m).partition)).Ends (beside R.world files) (m', y) Q) :
    (RVMcu.readPartition timeout >>= k).Ends (beside R.world files) (m, y) Q := by
  rw [RVMcu.readPartition, bind_assoc]
  refine Mcu.ends_readReg_bind hW (by decide) fun bytes m' hread => ?_
  obtain ⟨hpart, hsame⟩ := hB.info hread
  show (k (0, word32 (((storeAt _ 0 bytes.val).drop MCU_INFO_PARTITION).take 4))).Ends _ _ _
  rw [storeAt_zero_full (by rw [bytes.property, List.length_replicate]), hpart]
  exact hk m' hsame

/-- What is offered is taken as far as there is room. -/
theorem ends_ringWrite_bind {data : List UInt8} (hpos : 0 < data.length)
    (hlen : data.length ≤ BURN_PARTICLE_SIZE)
    (hmode : (B.boot m).sta.burn_mode = BURNMODE_START_BURN) {k : Int → Prog RegI α}
    (hfull : ∀ m' n, n < (B.boot m).full → B.boot m' = { B.boot m with full := n } →
      (k 0).Ends (beside R.world files) (m', y) Q)
    (hroom : ∀ m' n, 0 < n → n ≤ data.length → (B.boot m).Receives (data.take n) (B.boot m') →
      (k (n : Nat)).Ends (beside R.world files) (m', y) Q) :
    (RegWrCb.write regWrCbHandle RWREG_CB_BURN_START data (UInt32.ofNat data.length)
      timeout >>= k).Ends (beside R.world files) (m, y) Q := by
  have hclamp : ∀ n : Nat, (RegWrCb.clamp (UInt32.ofNat data.length).toUInt16 n).toNat =
      min n data.length := by
    have hcut : data.length < 65536 := hlen.trans_lt (by decide)
    intro n
    rw [RegWrCb.toNat_clamp, UInt32.toNat_toUInt16, UInt32.toNat_ofNat']
    omega
  rw [RegWrCb.write_eq, ask_bind]
  refine Mcu.ends_read hW (by decide) fun bytes m₁ hread => ?_
  obtain ⟨n, hlt, hbytes, hfound⟩ := hB.freeSize hread hmode
  dsimp only
  rw [hbytes, int32_leBytes hlt, if_neg (Int.not_lt.mpr (Int.natCast_nonneg _)), hclamp]
  by_cases hn : n = 0
  · rw [if_pos hn] at hfound
    obtain ⟨k, hk, hboot⟩ := hfound
    rw [if_pos (Int.natCast_eq_zero.mpr hn)]
    exact hfull m₁ k hk hboot
  · rw [if_neg hn] at hfound
    rw [if_neg (mt Int.natCast_eq_zero.mp hn)]
    have hlen' : (data.take (min n data.length)).length = min n data.length := by
      rw [List.length_take, min_eq_left (min_le_right _ _)]
    have hsmall : BURN_PARTICLE_SIZE ≤ 1022 := by decide
    refine Mcu.ends_write hW (by omega) fun m₂ hwrite => ?_
    have hmode' : (B.boot m₁).sta.burn_mode = BURNMODE_START_BURN := by rw [hfound]; exact hmode
    have hfits : (data.take (min n data.length)).length ≤ (B.boot m₁).room := by
      rw [hfound, hlen']
      exact min_le_left _ _
    have hreceived := hB.receive hwrite hmode' hfits
    rw [hfound] at hreceived
    refine hroom m₂ (min n data.length) (lt_min (Nat.pos_of_ne_zero hn) hpos) (min_le_right _ _) ?_
    exact ⟨hreceived.sta, hreceived.flash, hreceived.full⟩

end

end Bootloader

end McuRegWr
