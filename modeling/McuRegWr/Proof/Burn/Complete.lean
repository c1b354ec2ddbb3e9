import McuRegWr.CommandLine
import McuRegWr.Proof.Burn.Bootloader
import McuRegWr.Proof.Burn.Erase
import McuRegWr.Proof.Command.Frames

/-!
# A burn comes to its end

Behind a bootloader that keeps to the protocol all three loops of a burn come to an end, and the
flash then holds the file.
-/

namespace McuRegWr

open Base Prog Bootloader

/-- A file that carries the mark of the partition it is for, if the partition is an application's.
-/
def ImageFor (part : UInt8) (file : List UInt8) : Prop :=
  part.toUInt32 = BFP_APP_A ∨ part.toUInt32 = BFP_APP_B →
    HEAD_DATA_SIZE ≤ file.length ∧
      word32 ((file.drop PROGRAM_INFO_START_ADDR).take 4) = PROGRAM_MAGIC ∧
      int32 ((file.drop (PROGRAM_INFO_START_ADDR + PROGRAM_INFO_PART)).take 4) = part.toNat

namespace Bootloader

variable {ρ : Type} {R : Registers ρ} {W : World SysI (Mcu ρ)} {B : Bootloader ρ} {path : String}
  {file : List UInt8} {m m' : ρ} {y : Option (List UInt8)} {cs : ChunkState}
  {data base : List UInt8}

/-- The bytes that have arrived, in a bootloader that waits for more. -/
structure Transferring (B : Bootloader ρ) (flash : List UInt8) (m : ρ) : Prop where
  mode : (B.boot m).sta.burn_mode = BURNMODE_START_BURN
  flash_eq : (B.boot m).flash = flash
  full_le : (B.boot m).full ≤ fullMax

/-- In the middle of a chunk. The retries that are left are enough for the times the ring is still
found full. -/
structure Receiving (B : Bootloader ρ) (base data : List UInt8) (cs : ChunkState) (m : ρ) :
    Prop where
  transferring : Transferring B (base ++ data.take cs.start) m
  start_le : cs.start ≤ data.length
  retry_le : cs.start < data.length → cs.retry + (B.boot m).full ≤ fullMax

namespace Receiving

theorem full (h : Receiving B base data cs m) (hmore : cs.start < data.length) {n : Nat}
    (hn : n < (B.boot m).full) (hboot : B.boot m' = { B.boot m with full := n })
    (reg : BurnStaReg) : Receiving B base data ⟨cs.start, cs.retry + 1, reg⟩ m' := by
  have hretry := h.retry_le hmore
  have hfull : (B.boot m').full = n := by rw [hboot]
  refine ⟨⟨?_, ?_, ?_⟩, h.start_le, fun _ => ?_⟩
  · rw [hboot]
    exact h.transferring.mode
  · rw [hboot]
    exact h.transferring.flash_eq
  · omega
  · dsimp only
    omega

/-- Only at the end of the chunk another one begins. -/
theorem room (h : Receiving B base data cs m) (hbase : BURN_PARTICLE_SIZE ∣ base.length)
    (hlen : data.length ≤ BURN_PARTICLE_SIZE) {n : Nat} (hn : 0 < n)
    (hle : n ≤ data.length - cs.start)
    (hreceived : (B.boot m).Receives ((data.drop cs.start).take n) (B.boot m')) :
    Receiving B base data { cs with start := cs.start + n } m' := by
  have hflash : (B.boot m').flash = base ++ data.take (cs.start + n) := by
    rw [hreceived.flash, h.transferring.flash_eq, List.append_assoc, List.take_add]
  refine ⟨⟨?_, hflash, ?_⟩, ?_, ?_⟩
  · rw [hreceived.sta]
    exact h.transferring.mode
  · rcases hreceived.full with hfull | ⟨-, hfull⟩
    · exact hfull.trans h.transferring.full_le
    · exact hfull
  · dsimp only
    omega
  · dsimp only
    intro hmore
    have hretry := h.retry_le (by omega)
    rcases hreceived.full with hfull | ⟨hwhole, -⟩
    · omega
    · rw [hflash, List.length_append, List.length_take_of_le hmore.le,
        Nat.dvd_add_right hbase] at hwhole
      have hsize := Nat.le_of_dvd (by omega) hwhole
      omega

end Receiving

/-- Between two chunks: what has arrived and what is still to be read are the file. -/
structure Sending (B : Bootloader ρ) (file sent rest : List UInt8) (m : ρ) : Prop where
  transferring : Transferring B sent m
  whole : sent ++ rest = file
  aligned : rest ≠ [] → BURN_PARTICLE_SIZE ∣ sent.length

theorem Sending.next {sent rest : List UInt8} (h : Sending B file sent rest m)
    (harrived : Transferring B (sent ++ rest.take BURN_PARTICLE_SIZE) m') :
    Sending B file (sent ++ rest.take BURN_PARTICLE_SIZE) (rest.drop BURN_PARTICLE_SIZE) m' where
  transferring := harrived
  whole := by rw [List.append_assoc, List.take_append_drop, h.whole]
  aligned := by
    intro hleft
    have hlong : BURN_PARTICLE_SIZE < rest.length := by
      rw [← List.length_pos_iff, List.length_drop] at hleft
      omega
    have hrest : rest ≠ [] := List.ne_nil_of_length_pos (Nat.zero_lt_of_lt hlong)
    rw [List.length_append, List.length_take_of_le hlong.le]
    exact (h.aligned hrest).add (dvd_refl _)

section

variable (hW : Mcu.Faultless R W) (hB : B.Follows R)
include hW hB

/-! ### One chunk -/

theorem ends_burnChunkRound (hbase : BURN_PARTICLE_SIZE ∣ base.length)
    (hlen : data.length ≤ BURN_PARTICLE_SIZE) (h : Receiving B base data cs m)
    (hmore : cs.start < data.length) :
    (burnChunkRound data cs).Ends (beside R.world (oneFile path file)) (m, y) fun r s =>
      ∃ cs', r = .inl cs' ∧ Receiving B base data cs' s.1 ∧ s.2 = y ∧
        data.length - cs'.start + (fullMax - cs'.retry) <
          data.length - cs.start + (fullMax - cs.retry) := by
  have hdrop : (data.drop cs.start).length = data.length - cs.start := List.length_drop
  have hmode := h.transferring.mode
  rw [burnChunkRound, if_pos hmore, ← hdrop]
  refine ends_ringWrite_bind hW hB (by omega) (by omega) hmode ?_ ?_
  · intro m₁ n hn hboot
    have hretry := h.retry_le hmore
    have hleft : cs.retry ≤ BURN_WR_MAX_RETRY := by
      rw [fullMax] at hretry
      omega
    have hmode' : (B.boot m₁).sta.burn_mode = BURNMODE_START_BURN := by rw [hboot]; exact hmode
    dsimp only
    rw [if_neg (lt_irrefl 0), if_pos rfl]
    refine ends_look_bind hW hB (by rw [hmode']; decide) (by rw [hmode']; decide) ?_
    intro m₂ hsame
    dsimp only
    rw [if_neg (lt_irrefl 0), if_neg (by rw [hmode']; decide), if_neg (Nat.not_lt.mpr hleft)]
    refine ends_pure ⟨_, rfl, h.full hmore hn (hsame.trans hboot) _, rfl, ?_⟩
    dsimp only
    omega
  · intro m₁ n hn hle hreceived
    rw [if_pos (by omega)]
    rw [hdrop] at hle
    refine ends_pure ⟨_, rfl, h.room hbase hlen hn hle hreceived, rfl, ?_⟩
    dsimp only
    omega

/-- A chunk arrives as a whole. -/
theorem ends_burnChunk (hbase : BURN_PARTICLE_SIZE ∣ base.length)
    (hlen : data.length ≤ BURN_PARTICLE_SIZE) (h : Transferring B base m) (reg : BurnStaReg) :
    (burnChunk data reg).Ends (beside R.world (oneFile path file)) (m, y) fun r s =>
      (∃ reg', r = .ok reg') ∧ Transferring B (base ++ data) s.1 ∧ s.2 = y := by
  apply ends_loop (fun cs s => Receiving B base data cs s.1 ∧ s.2 = y)
    fun cs _ => data.length - cs.start + (fullMax - cs.retry)
  · rintro cs ⟨m, y⟩ ⟨h, rfl⟩
    by_cases hmore : cs.start < data.length
    · refine (ends_burnChunkRound hW hB hbase hlen h hmore).mono ?_
      rintro r s ⟨cs', rfl, hreceiving, hy, hless⟩
      exact ⟨⟨hreceiving, hy⟩, hless⟩
    · rw [burnChunkRound, if_neg hmore]
      have htake : data.take cs.start = data := List.take_of_length_le (Nat.not_lt.mp hmore)
      have hall := h.transferring
      rw [htake] at hall
      exact ends_pure ⟨⟨cs.reg, rfl⟩, hall, rfl⟩
  · dsimp only [fullMax]
    omega
  · refine ⟨⟨?_, Nat.zero_le _, fun _ => ?_⟩, rfl⟩
    · rw [List.take_zero, List.append_nil]
      exact h
    · rw [Nat.zero_add]
      exact h.full_le

/-! ### The file -/

theorem ends_burnFileRounds {fuel : Nat} (hfuel : file.length < fuel)
    (h : Transferring B [] m) (fd : Int) (reg : BurnStaReg) :
    (Prog.loop (burnFileRound fd) fuel reg).Ends (beside R.world (oneFile path file))
      (m, some file) fun r s => (∃ reg', r = .ok reg') ∧ Transferring B file s.1 := by
  apply ends_loop (fun _ s => ∃ sent rest, s.2 = some rest ∧ Sending B file sent rest s.1)
    fun _ s => (s.2.getD []).length
  · rintro reg ⟨m, y⟩ ⟨sent, rest, rfl, h⟩
    refine ends_readFile_bind ?_
    dsimp only
    by_cases hrest : rest = []
    · subst hrest
      rw [if_pos List.take_nil]
      refine ends_pure ⟨⟨reg, rfl⟩, ?_⟩
      rw [← h.whole, List.append_nil]
      exact h.transferring
    · have hpos : 0 < rest.length := List.length_pos_iff.mpr hrest
      have hsize : 0 < BURN_PARTICLE_SIZE := by decide
      have hdata : rest.take BURN_PARTICLE_SIZE ≠ [] := by
        apply List.ne_nil_of_length_pos
        rw [List.length_take]
        exact lt_min hsize hpos
      rw [if_neg hdata]
      refine (ends_burnChunk hW hB (h.aligned hrest) (List.length_take_le _ _) h.transferring
        reg).bind ?_
      rintro r s ⟨⟨reg', rfl⟩, harrived, hy⟩
      refine ends_pure ⟨⟨_, _, hy, h.next harrived⟩, ?_⟩
      rw [hy]
      show (rest.drop BURN_PARTICLE_SIZE).length < rest.length
      rw [List.length_drop]
      omega
  · exact hfuel
  · exact ⟨[], file, rfl, h, rfl, fun _ => dvd_zero _⟩

/-! ### The result -/

theorem ends_burnResultRounds {fuel : Nat} (hfuel : (B.boot m).checks < fuel)
    (hmode : (B.boot m).sta.burn_mode = BURNMODE_FINISH_TRANSFER) (reg : BurnStaReg) :
    (Prog.loop burnResultRound fuel reg).Ends (beside R.world (oneFile path file)) (m, y)
      fun r s => r = .ok (B.result (B.boot m).flash) ∧ (B.boot s.1).flash = (B.boot m).flash ∧
        (B.boot s.1).sta = B.result (B.boot m).flash := by
  apply ends_loop (fun _ s => (B.boot s.1).sta.burn_mode = BURNMODE_FINISH_TRANSFER ∧
    (B.boot s.1).flash = (B.boot m).flash) fun _ s => (B.boot s.1).checks
  · rintro reg ⟨m₁, y⟩ ⟨hmode, hflash⟩
    refine ends_readBurnSta_bind hW hB fun bytes m₂ hread => ?_
    obtain ⟨hkept, hfound⟩ := hB.checked hread hmode
    dsimp only
    rw [if_neg (lt_irrefl 0)]
    rcases hfound with ⟨hbusy, hless⟩ | hfound
    · rw [if_neg (not_not.mpr hbusy)]
      exact ends_usleep_bind (ends_pure ⟨⟨hbusy, hkept.trans hflash⟩, hless⟩)
    · rw [hflash] at hfound
      rw [hfound, if_pos (B.result_mode _)]
      exact ends_pure ⟨rfl, hkept.trans hflash, hfound⟩
  · exact hfuel
  · exact ⟨hmode, rfl⟩

end

/-- After a burn: told to leave with nothing wrong, or the error is there to be read. -/
structure Burnt (B : Bootloader ρ) (file : List UInt8) (m : ρ) : Prop where
  flash : (B.boot m).flash = file
  left : B.verdict file = 0 → (B.boot m).sta.burn_mode = BURNMODE_EXIT_BURN
  wrong : B.verdict file ≠ 0 → (B.boot m).sta = ⟨BURNMODE_BURN_ERROR, B.verdict file⟩

/-- How every burn of the file ends. -/
def Ended (B : Bootloader ρ) (file : List UInt8) (ret : Int) (s : ρ × Option (List UInt8)) : Prop :=
  ret = -((B.verdict file).toNat : Int) ∧ B.Burnt file s.1 ∧ s.2 = none

/-- Told by an application, or by the bootloader that waits already. -/
def Ready (B : Bootloader ρ) (m : ρ) : Prop :=
  (B.boot m).partition = BFP_BOOT → (B.boot m).sta = ⟨BURNMODE_WAIT_BURN, B.part⟩

theorem take_drop_head {n : Nat} (hn : PROGRAM_INFO_START_ADDR + n + 4 ≤ HEAD_DATA_SIZE) :
    (((file.take HEAD_DATA_SIZE).drop PROGRAM_INFO_START_ADDR).drop n).take 4 =
      (file.drop (PROGRAM_INFO_START_ADDR + n)).take 4 := by
  rw [List.drop_drop, List.drop_take, List.take_take, min_eq_left (by omega)]

theorem ends_getBurnFirmwarePart {regs : World RegI ρ} (hhead : HEAD_DATA_SIZE ≤ file.length)
    (hmagic : word32 ((file.drop PROGRAM_INFO_START_ADDR).take 4) = PROGRAM_MAGIC) :
    (getBurnFirmwarePart path).Ends (beside regs (oneFile path file)) (m, y) fun part s =>
      part = int32 ((file.drop (PROGRAM_INFO_START_ADDR + PROGRAM_INFO_PART)).take 4) ∧
        s = (m, none) := by
  have hfound : word32 (((file.take HEAD_DATA_SIZE).drop PROGRAM_INFO_START_ADDR).take 4) =
      PROGRAM_MAGIC := by
    rw [← List.drop_zero (l := (file.take _).drop _), take_drop_head (by decide)]
    exact hmagic
  refine ends_openRdonly_bind ?_
  rw [if_neg (by decide)]
  refine ends_readFile_bind ?_
  dsimp only
  rw [if_neg (not_not.mpr (List.length_take_of_le hhead)), if_neg (not_not.mpr hfound)]
  refine ends_close_bind ?_
  rw [take_drop_head (by decide)]
  exact ends_pure ⟨rfl, rfl⟩

section

variable {fuel : Nat} (hW : Mcu.Faultless R W) (hB : B.Follows R) (hfile : file.length < fuel)
  (hchecking : B.checking < fuel)
include hW hB hfile hchecking

/-! ### The whole burn -/

theorem ends_burnFile (h : Transferring B [] m) (fd : Int) (reg : BurnStaReg) :
    (burnFile fuel fd reg).Ends (beside R.world (oneFile path file)) (m, some file) fun ret s =>
      ret = -((B.verdict file).toNat : Int) ∧ B.Burnt file s.1 := by
  refine (ends_burnFileRounds hW hB hfile h fd reg).bind ?_
  rintro r ⟨m₁, y⟩ ⟨⟨reg', rfl⟩, hall⟩
  refine ends_writeBurnMode_bind hW fun m₂ hwrite => ?_
  obtain ⟨hmode, hflash, hchecks⟩ := hB.finishTransfer hwrite hall.mode
  rw [hall.flash_eq] at hflash
  refine (ends_burnResultRounds hW hB (hchecks.trans_lt hchecking) hmode _).bind ?_
  rintro r ⟨m₃, y⟩ ⟨rfl, hkept, hsta⟩
  rw [hflash] at hkept hsta
  dsimp only
  rw [hflash, B.result_parameter]
  by_cases hgood : B.verdict file = 0
  · have hfinished : (B.boot m₃).sta.burn_mode = BURNMODE_FINISH_BURN := by
      rw [hsta, result, if_pos hgood]
    rw [if_neg (by rw [hgood]; decide)]
    refine ends_writeBurnMode_bind hW fun m₄ hwrite => ?_
    obtain ⟨hleft, hflash⟩ := hB.exitBurn hwrite hfinished
    exact ends_pure ⟨rfl, hflash.trans hkept, fun _ => hleft, fun hwrong => absurd hgood hwrong⟩
  · have hpos : (B.verdict file).toNat ≠ 0 := fun hzero => hgood (UInt8.toNat_inj.mp hzero)
    rw [if_pos (by omega)]
    refine ends_pure ⟨rfl, hkept, fun hnone => absurd hnone hgood, fun _ => ?_⟩
    rw [hsta, result, if_neg hgood]

theorem ends_burnMcu (hmode : (B.boot m).sta.burn_mode = BURNMODE_WAIT_BURN) :
    (burnMcu fuel path).Ends (beside R.world (oneFile path file)) (m, y) (B.Ended file) := by
  refine ends_writeBurnMode_bind hW fun m₁ hwrite => ?_
  have herase := hB.startErase hwrite hmode
  rw [if_neg (lt_irrefl 0)]
  refine ends_readBurnSta_bind hW hB fun bytes m₂ hread => ?_
  have herased : (B.boot m₂).sta.burn_mode = BURNMODE_ERASE_OK := by
    rcases herase with herase | herase
    · exact hB.erased hread herase
    · rw [hB.steady hread (by rw [herase]; decide) (by rw [herase]; decide), herase]
  dsimp only
  rw [if_neg (lt_irrefl 0), if_neg (not_not.mpr herased)]
  refine ends_writeBurnMode_bind hW fun m₃ hwrite => ?_
  obtain ⟨hburn, hempty, hfull⟩ := hB.startBurn hwrite herased
  rw [if_neg (lt_irrefl 0)]
  rw [RegWrCb.clean, bind_assoc]
  refine Mcu.ends_writeReg_bind hW (by decide) fun m₄ hwrite => ?_
  have hready : Transferring B [] m₄ := by
    constructor <;> rw [hB.clean hwrite] <;> assumption
  rw [if_neg (lt_irrefl 0)]
  refine ends_openRdonly_bind ?_
  rw [if_neg (by decide)]
  refine (ends_burnFile hW hB hfile hchecking hready 3 _).bind ?_
  rintro ret ⟨m₅, y⟩ ⟨hret, hburnt⟩
  exact ends_close_bind (ends_pure ⟨hret, hburnt, rfl⟩)

variable (himage : ImageFor B.part file)
include himage

theorem ends_burnChecked (hsta : (B.boot m).sta = ⟨BURNMODE_WAIT_BURN, B.part⟩)
    (reg : BurnStaReg) :
    (RVMcu.burnChecked fuel path reg).Ends (beside R.world (oneFile path file)) (m, y)
      (B.Ended file) := by
  have hwait : (B.boot m).sta.burn_mode = BURNMODE_WAIT_BURN := by rw [hsta]
  refine ends_look_bind hW hB (by rw [hwait]; decide) (by rw [hwait]; decide) fun m₁ hsame => ?_
  have hmode : (B.boot m₁).sta.burn_mode = BURNMODE_WAIT_BURN := by rw [hsame, hwait]
  rw [hsta]
  dsimp only
  rw [if_neg (lt_irrefl 0), if_neg (not_not.mpr rfl)]
  by_cases hpart : B.part.toUInt32 = BFP_APP_A ∨ B.part.toUInt32 = BFP_APP_B
  · obtain ⟨hhead, hmagic, hmark⟩ := himage hpart
    rw [if_pos hpart]
    refine (ends_getBurnFirmwarePart hhead hmagic).bind ?_
    rintro part s ⟨hfound, rfl⟩
    rw [if_neg (not_not.mpr (hfound.trans hmark).symm)]
    exact ends_burnMcu hW hB hfile hchecking hmode
  · rw [if_neg hpart]
    exact ends_burnMcu hW hB hfile hchecking hmode

theorem ends_rvBurnMcu (hready : B.Ready m) :
    (RVMcu.burnMcu fuel path).Ends (beside R.world (oneFile path file)) (m, y)
      (B.Ended file) := by
  refine ends_readPartition_bind hW hB fun m₁ hsame => ?_
  dsimp only
  rw [if_neg (lt_irrefl 0)]
  by_cases hboot : (B.boot m).partition = BFP_BOOT
  · have hsta : (B.boot m₁).sta = ⟨BURNMODE_WAIT_BURN, B.part⟩ := by rw [hsame, hready hboot]
    rw [if_neg (not_not.mpr hboot)]
    exact ends_burnChecked hW hB hfile hchecking himage hsta _
  · rw [if_pos hboot]
    refine ends_writeBurnMode_bind hW fun m₂ hwrite => ?_
    have hsta := (hB.gotoBootloader hwrite (by rw [hsame]; exact hboot)).2
    rw [if_neg (lt_irrefl 0)]
    exact ends_usleep_bind (ends_burnChecked hW hB hfile hchecking himage hsta _)

theorem ends_rvForceBurnMcu (hboot : (B.boot m).partition = BFP_BOOT) (hready : B.Ready m) :
    (RVMcu.forceBurnMcu fuel path).Ends (beside R.world (oneFile path file)) (m, y)
      (B.Ended file) := by
  have hwait : (Prog.loop RVMcu.forceRound fuel ()).Ends (beside R.world (oneFile path file)) (m, y)
      fun _ s => B.boot s.1 = B.boot m := by
    apply ends_loop (fun _ s => B.boot s.1 = B.boot m) fun _ _ => 0
    · rintro _ ⟨m₁, y⟩ hsame
      refine ends_readPartition_bind hW hB fun m₂ hsame' => ?_
      have hfound : (0 : Int) = 0 ∧ (B.boot m₁).partition = 0 := ⟨rfl, by rw [hsame]; exact hboot⟩
      dsimp only
      rw [if_pos hfound]
      exact ends_pure (hsame'.trans hsame)
    · exact Nat.zero_lt_of_lt hfile
    · rfl
  refine hwait.bind fun _ s hsame => ?_
  have hsta : (B.boot s.1).sta = ⟨BURNMODE_WAIT_BURN, B.part⟩ := by rw [hsame, hready hboot]
  exact ends_burnChecked hW hB hfile hchecking himage hsta _

end

end Bootloader

/-! ### The tool -/

/-- A command line for a burn. The forced one only goes on with a bootloader. -/
def isBurnLine (argv : List CStr) (path : String) (partition : UInt32) : Bool :=
  match mainConfig argv with
  | .error _ => false
  | .ok config =>
      config.mode = .FUN_UPDATE ∧ config.mcu_firmware = some path ∨
        config.mode = .FUN_FORCE_UPDATE ∧ config.mcu_force_firmware = some path ∧
          partition = BFP_BOOT

/-- On a line without faults and behind a bootloader that keeps to the protocol, a burn of an image
for its partition comes to an end, however large the file is, however the ring takes it, within the
retries of a chunk, and however long it is checked. The flash then holds the file, byte for byte,
the tool returns what the check has found, and it has told the bootloader to leave if that is
nothing. -/
theorem burn_completes {ρ : Type} {R : Registers ρ} {W : World SysI (Mcu ρ)} {B : Bootloader ρ}
    {path : String} {file : List UInt8} (hW : Mcu.Faultless R W) (hB : B.Follows R)
    (h : SpiRegHandle) (himage : ImageFor B.part file) {env : RunEnv}
    (hfile : file.length < env.fuel) (hchecking : B.checking < env.fuel) {argv : List CStr}
    (s : Mcu ρ) (hready : B.Ready s.regs)
    (hline : isBurnLine argv path (B.boot s.regs).partition) (y : Option (List UInt8)) :
    ((mainRun env argv).lower (SpiReg.access h)).Ends (Guard.alone W (oneFile path file)) (s, y)
      fun ret s' => ret = -((B.verdict file).toNat : Int) ∧ B.Burnt file s'.1.regs ∧
        s'.2 = none := by
  rw [isBurnLine] at hline
  rw [mainRun]
  cases hconfig : mainConfig argv with
  | error exit =>
      rw [hconfig] at hline
      exact absurd hline Bool.false_ne_true
  | ok config =>
      rw [hconfig] at hline
      have hfits : (run env config).Asks RegOp.Fits := by
        apply fits_run
        intro hmode
        simp [hmode] at hline
      refine Mcu.refines_access hW h hfits (s, y) (B.Ended file) ?_
      obtain ⟨hmode, hpath⟩ | ⟨hmode, hpath, hboot⟩ := of_decide_eq_true hline
      · rw [run, hmode, hpath]
        exact Bootloader.ends_rvBurnMcu hW hB hfile hchecking himage hready
      · rw [run, hmode, hpath]
        exact Bootloader.ends_rvForceBurnMcu hW hB hfile hchecking himage hboot hready

/-! ### A slow bootloader -/

/-- The status is read while it erases, and three times while it checks. -/
def Boot.looked (m : Boot) : Boot :=
  if m.sta.burn_mode = BURNMODE_START_ERASE then { m with sta := ⟨BURNMODE_ERASE_OK, 0⟩ }
  else if m.sta.burn_mode = BURNMODE_FINISH_TRANSFER then
    if m.checks = 0 then { m with sta := ⟨BURNMODE_FINISH_BURN, 0⟩ }
    else { m with checks := m.checks - 1 }
  else m

/-- A ring of 100 bytes that is found full six times, before the first byte. -/
def Boot.shows (m : Boot) (reg_addr : UInt16) : List UInt8 × Boot :=
  if reg_addr = ROREG_INFO_START then
    (List.replicate MCU_INFO_PARTITION 0 ++ bytes32 m.partition, m)
  else if reg_addr = RWREG_BURN_START then (m.looked.sta.toBytes, m.looked)
  else if reg_addr = RWREG_CB_BURN_START + CBREG_CMD_GET_FREESIZE then
    if m.full = 0 then (leBytes 4 100, { m with room := 100 })
    else (leBytes 4 0, { m with full := m.full - 1 })
  else ([], m)

def Boot.told (m : Boot) (burn_mode : UInt8) : Boot :=
  if burn_mode = BURNMODE_APP_GOTO_BOOTLOADER then
    { m with partition := BFP_BOOT, sta := ⟨BURNMODE_WAIT_BURN, 1⟩ }
  else if burn_mode = BURNMODE_START_BURN then
    { m with sta := ⟨burn_mode, 0⟩, flash := [], full := fullMax }
  else { m with sta := ⟨burn_mode, 0⟩, checks := 3 }

def slowBoot : Server Boot where
  read reg_addr reg_cnt m :=
    (⟨((m.shows reg_addr).1 ++ List.replicate reg_cnt.toNat 0).take reg_cnt.toNat, by simp⟩,
      (m.shows reg_addr).2)
  write reg_addr reg_data m :=
    if reg_addr = RWREG_BURN_START then m.told (reg_data.headD 0)
    else if reg_addr = RWREG_CB_BURN_START + CBREG_CMD_WRITE then
      { m with flash := m.flash ++ reg_data }
    else m

def slowBootloader : Bootloader Boot := ⟨id, 1, fun _ => 0, 3⟩

theorem Boot.looked_of_ne {m : Boot} (herase : m.sta.burn_mode ≠ BURNMODE_START_ERASE)
    (hcheck : m.sta.burn_mode ≠ BURNMODE_FINISH_TRANSFER) : m.looked = m := by
  rw [looked, if_neg herase, if_neg hcheck]

theorem follows_slowBoot : slowBootloader.Follows slowBoot.registers where
  info {m m' bytes} hread := by
    obtain ⟨rfl, rfl⟩ := Prod.mk.inj hread
    exact ⟨word32_bytes32 m.partition, rfl⟩
  shown {m m' bytes} hread := by
    obtain ⟨rfl, rfl⟩ := Prod.mk.inj hread
    rfl
  steady {m m' bytes} hread herase hcheck := by
    obtain ⟨-, rfl⟩ := Prod.mk.inj hread
    exact Boot.looked_of_ne herase hcheck
  gotoBootloader {m m'} hwrite _ := by
    subst hwrite
    exact ⟨rfl, rfl⟩
  startErase {m m'} hwrite _ := by
    subst hwrite
    exact .inl rfl
  erased {m m' bytes} hread hmode := by
    obtain ⟨-, rfl⟩ := Prod.mk.inj hread
    exact congrArg (fun m : Boot => m.sta.burn_mode) (if_pos hmode)
  startBurn {m m'} hwrite _ := by
    subst hwrite
    exact ⟨rfl, rfl, le_refl _⟩
  clean {m m'} hwrite := hwrite
  freeSize {m m' bytes} hread _ := by
    obtain ⟨rfl, rfl⟩ := Prod.mk.inj hread
    by_cases hfull : m.full = 0
    · have hshows : m.shows (RWREG_CB_BURN_START + CBREG_CMD_GET_FREESIZE) =
          (leBytes 4 100, { m with room := 100 }) := if_pos hfull
      refine ⟨100, by decide, ?_, ?_⟩
      · dsimp only
        rw [hshows]
        rfl
      · rw [if_neg (by decide)]
        exact congrArg Prod.snd hshows
    · have hshows : m.shows (RWREG_CB_BURN_START + CBREG_CMD_GET_FREESIZE) =
          (leBytes 4 0, { m with full := m.full - 1 }) := if_neg hfull
      refine ⟨0, by decide, ?_, ?_⟩
      · dsimp only
        rw [hshows]
        rfl
      · rw [if_pos rfl]
        exact ⟨m.full - 1, Nat.sub_one_lt hfull, congrArg Prod.snd hshows⟩
  receive {m m' data} hwrite hmode hroom := by
    subst hwrite
    exact ⟨rfl, rfl, .inl (le_refl _)⟩
  finishTransfer {m m'} hwrite _ := by
    subst hwrite
    exact ⟨rfl, rfl, le_refl _⟩
  checked {m m' bytes} hread hmode := by
    obtain ⟨-, rfl⟩ := Prod.mk.inj hread
    show m.looked.flash = m.flash ∧ (m.looked.sta.burn_mode = BURNMODE_FINISH_TRANSFER ∧
      m.looked.checks < m.checks ∨ m.looked.sta = ⟨BURNMODE_FINISH_BURN, 0⟩)
    have hmode : m.sta.burn_mode = BURNMODE_FINISH_TRANSFER := hmode
    rw [Boot.looked, if_neg (by rw [hmode]; decide), if_pos hmode]
    by_cases hchecks : m.checks = 0
    · rw [if_pos hchecks]
      exact ⟨rfl, .inr rfl⟩
    · rw [if_neg hchecks]
      exact ⟨rfl, .inl ⟨hmode, Nat.sub_one_lt hchecks⟩⟩
  exitBurn {m m'} hwrite _ := by
    subst hwrite
    exact ⟨rfl, rfl⟩

theorem burn_completes_imageA :
    ((mainRun ⟨6000, fun _ _ => 0, 0, 0⟩ (["p", "-u", "a"].map CStr.ofAscii)).lower
        (SpiReg.access ⟨3, 4, 5⟩)).Ends (Guard.alone slowBoot.line (oneFile "a" imageA))
      (⟨⟨BFP_APP_B, ⟨BURNMODE_FORBID, 0⟩, [], 0, 0, 0⟩, .data [0x06], [SPI_ACK]⟩, none)
      fun ret s => ret = 0 ∧ s.1.regs.flash = imageA ∧
        s.1.regs.sta.burn_mode = BURNMODE_EXIT_BURN ∧ s.2 = none := by
  have hlen := length_imageA
  have hhead : imageA.drop PROGRAM_INFO_START_ADDR = bytes32 PROGRAM_MAGIC ++
      List.replicate 16 0 ++ bytes32 BFP_APP_A ++ List.replicate 4096 0xff :=
    List.drop_left' List.length_replicate
  have himage : ImageFor slowBootloader.part imageA := by
    intro _
    refine ⟨by rw [hlen]; decide, ?_, ?_⟩
    · rw [hhead]
      rfl
    · rw [← List.drop_drop, hhead]
      rfl
  have hfile : imageA.length < RunEnv.fuel ⟨6000, fun _ _ => 0, 0, 0⟩ := by
    rw [hlen]
    decide
  refine (burn_completes (Mcu.faultless_server _) follows_slowBoot _ himage hfile (by decide) _
    (fun hboot => absurd hboot (by decide)) (by decide) none).mono ?_
  rintro ret s ⟨rfl, hburnt, hclosed⟩
  exact ⟨rfl, hburnt.flash, hburnt.left rfl, hclosed⟩

end McuRegWr
