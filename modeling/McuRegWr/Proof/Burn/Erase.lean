import McuRegWr.Proof.Ring.Client

/-!
# Before the flash is erased

`RVMcu_BurnMcu` and `RVMcu_ForceBurnMcu` compare the partition the MCU announces with what
`_GetBurnFirmwarePart` says of the file. That is the partition in its header, or -1, or the length
of a file that is too short to have a header: one or two bytes pass for a partition. -/

namespace McuRegWr

open Base Prog RegWrCb

/-- The file, and the last status that was read. -/
structure Flash where
  rest : List UInt8
  status : Option BurnStaReg

namespace Flash

def start : Flash := ⟨[], none⟩

/-- Registers answer anything. A read of the file fails, or brings as many bytes as it asks for and
as there are. -/
inductive world (file : List UInt8) : World RegI Flash
  | readStatus (s : Flash) (cnt : UInt16) (timeout : UInt32) (bytes : _) :
      world file s (.readReg RWREG_BURN_START cnt timeout) (.ok bytes)
        { s with status := some (.ofBytes bytes.val) }
  | readFail (s : Flash) (addr cnt : UInt16) (timeout : UInt32) (code : Fail) :
      world file s (.readReg addr cnt timeout) (.error code) s
  | readReg (s : Flash) {addr : UInt16} (cnt : UInt16) (timeout : UInt32) (bytes : _)
      (haddr : addr ≠ RWREG_BURN_START) : world file s (.readReg addr cnt timeout) (.ok bytes) s
  | writeReg (s : Flash) (addr : UInt16) (data : List UInt8) (timeout : UInt32) (r : _) :
      world file s (.writeReg addr data timeout) r s
  | openFile (s : Flash) (path : String) (fd : Int) :
      world file s (.openFile path) fd { s with rest := file }
  | fileFail (s : Flash) (fd : Int) (count : Nat) (code : Fail) :
      world file s (.readFile fd count) (.error code) s
  | readFile (s : Flash) (fd : Int) (count : Nat) :
      world file s (.readFile fd count) (.ok ⟨s.rest.take count, List.length_take_le _ _⟩)
        { s with rest := s.rest.drop count }
  | closeFile (s : Flash) (fd : Int) : world file s (.closeFile fd) () s
  | usleep (s : Flash) (usec : Nat) : world file s (.usleep usec) () s

/-- An image for a partition: a header that carries the magic and names the partition. -/
structure Image (file : List UInt8) (part : UInt8) : Prop where
  header : HEAD_DATA_SIZE ≤ file.length
  magic : word32 ((file.drop PROGRAM_INFO_START_ADDR).take 4) = PROGRAM_MAGIC
  part : word32 ((file.drop (PROGRAM_INFO_START_ADDR + PROGRAM_INFO_PART)).take 4) = part.toUInt32

/-- The partitions of an application. -/
abbrev IsApp (part : UInt8) : Prop := part.toUInt32 = BFP_APP_A ∨ part.toUInt32 = BFP_APP_B

/-- The MCU waits for a burn, and for an application the file is an image of the partition it
announces. -/
def Checked (file : List UInt8) (s : Flash) : Prop :=
  ∃ reg, s.status = some reg ∧ reg.burn_mode = BURNMODE_WAIT_BURN ∧
    (IsApp reg.parameter → Image file reg.parameter)

/-- The file has as many bytes as the number of the partition. -/
def Stub (file : List UInt8) (s : Flash) : Prop :=
  ∃ reg, s.status = some reg ∧ IsApp reg.parameter ∧ file.length = reg.parameter.toNat

/-- Every erase is checked, but for a file that is a stub. -/
def Guard (file : List UInt8) (s : Flash) (o : RegOp) : Prop :=
  ∀ timeout, o = .writeReg RWREG_BURN_START [BURNMODE_START_ERASE] timeout →
    (s.Checked file ↔ ¬ s.Stub file)

/-! ### What is no erase -/

def NoErase (o : RegOp) : Prop :=
  ∀ timeout, o ≠ .writeReg RWREG_BURN_START [BURNMODE_START_ERASE] timeout

theorem NoErase.guard {file : List UInt8} {s : Flash} {o : RegOp} (h : NoErase o) :
    Guard file s o :=
  fun timeout heq => absurd heq (h timeout)

theorem noErase_writeReg {addr : UInt16} {data : List UInt8} {timeout : UInt32}
    (h : ¬ (addr = RWREG_BURN_START ∧ data = [BURNMODE_START_ERASE])) :
    NoErase (.writeReg addr data timeout) := by
  rintro _ heq
  injection heq with haddr hdata
  exact h ⟨haddr, hdata⟩

theorem asks_readReg {addr cnt : UInt16} {data : List UInt8} {timeout : UInt32} :
    (RVMcu.readReg addr data cnt timeout).Asks NoErase :=
  RVMcu.asks_readReg fun _ h => RegOp.noConfusion h

theorem asks_readBurnSta {reg : BurnStaReg} {timeout : UInt32} :
    (readBurnSta reg timeout).Asks NoErase :=
  asks_readReg.bind fun _ => trivial

theorem asks_writeReg {addr cnt : UInt16} {data : List UInt8} {timeout : UInt32}
    (h : ¬ (addr = RWREG_BURN_START ∧ data.take cnt.toNat = [BURNMODE_START_ERASE])) :
    (RVMcu.writeReg addr data cnt timeout).Asks NoErase :=
  RVMcu.asks_writeReg (noErase_writeReg h)

theorem asks_writeBurnMode {reg : BurnStaReg} {timeout : UInt32}
    (h : reg.burn_mode ≠ BURNMODE_START_ERASE) : (writeBurnMode reg timeout).Asks NoErase :=
  asks_writeReg fun heq => h (List.cons.inj heq.2).1

theorem asks_clean {timeout : UInt32} :
    (clean regWrCbHandle RWREG_CB_BURN_START timeout).Asks NoErase := by
  refine (asks_writeReg (by decide)).bind fun ret => ?_
  split <;> trivial

theorem asks_ringWrite {data : List UInt8} {size timeout : UInt32} :
    (RegWrCb.write regWrCbHandle RWREG_CB_BURN_START data size timeout).Asks NoErase := by
  rw [write_eq]
  refine ⟨fun _ h => RegOp.noConfusion h, fun r => ?_⟩
  cases r with
  | error code => trivial
  | ok free =>
      dsimp only
      split
      · trivial
      split
      · trivial
      refine ⟨noErase_writeReg fun h => absurd h.1 (by decide), fun r => ?_⟩
      cases r <;> trivial

theorem asks_burnChunk (data : List UInt8) (reg : BurnStaReg) :
    (burnChunk data reg).Asks NoErase := by
  refine asks_loop (fun cs => ?_) _ _
  rw [burnChunkRound]
  split
  · apply asks_ringWrite.bind
    intro ret
    split
    · trivial
    split
    · apply asks_readBurnSta.bind
      intro (ret, reg)
      dsimp only
      split
      · trivial
      split
      · trivial
      split <;> trivial
    · split <;> trivial
  · trivial

theorem asks_burnFileRound (fd : Int) (reg : BurnStaReg) :
    (burnFileRound fd reg).Asks NoErase := by
  apply (asks_req fun _ h => RegOp.noConfusion h).bind
  intro r
  cases r with
  | error code => trivial
  | ok data =>
      dsimp only
      split
      · trivial
      · apply (asks_burnChunk data.val reg).bind
        intro r
        cases r <;> trivial

theorem asks_burnResultRound (reg : BurnStaReg) : (burnResultRound reg).Asks NoErase := by
  apply asks_readBurnSta.bind
  intro (ret, reg)
  dsimp only
  split
  · trivial
  split
  · trivial
  · exact ⟨fun _ h => RegOp.noConfusion h, fun _ => trivial⟩

theorem asks_burnFile (fuel : Nat) (fd : Int) (reg : BurnStaReg) :
    (burnFile fuel fd reg).Asks NoErase := by
  apply (asks_loop (asks_burnFileRound fd) fuel reg).bind
  intro r
  cases r with
  | error ret => trivial
  | ok reg =>
      refine (asks_writeBurnMode (by decide)).bind fun _ => ?_
      apply (asks_loop asks_burnResultRound fuel _).bind
      intro r
      cases r with
      | error ret => trivial
      | ok reg =>
          dsimp only
          split
          · trivial
          · refine (asks_writeBurnMode ?_).bind fun _ => trivial
            show BURNMODE_EXIT_BURN ≠ BURNMODE_START_ERASE
            decide

theorem asks_burnErased (fuel : Nat) (path : String) (reg : BurnStaReg) :
    (do
      let (ret, reg) ← readBurnSta reg 5000
      if ret < 0 then return ret
      if reg.burn_mode ≠ BURNMODE_ERASE_OK then return -reg.parameter.toNat
      let reg := { reg with burn_mode := BURNMODE_START_BURN }
      let ret ← writeBurnMode reg 500
      if ret < 0 then return ret
      let _ ← RegWrCb.clean regWrCbHandle RWREG_CB_BURN_START 200
      let firmware_fd ← File.openRdonly path
      if firmware_fd < 0 then return firmware_fd
      let ret ← burnFile fuel firmware_fd reg
      File.close firmware_fd
      return ret : Prog RegI Int).Asks NoErase := by
  apply asks_readBurnSta.bind
  intro (ret, reg)
  dsimp only
  split
  · trivial
  split
  · trivial
  refine (asks_writeBurnMode ?_).bind fun ret => ?_
  · show BURNMODE_START_BURN ≠ BURNMODE_START_ERASE
    decide
  split
  · trivial
  refine asks_clean.bind fun _ => (asks_req fun _ h => RegOp.noConfusion h).bind fun fd => ?_
  split
  · trivial
  exact (asks_burnFile fuel fd _).bind fun ret => ⟨fun _ h => RegOp.noConfusion h, fun _ => trivial⟩

/-- The burn erases once, with its first access. -/
theorem wlp_burnMcu {file : List UInt8} {s : Flash} (h : s.Checked file ↔ ¬ s.Stub file)
    (fuel : Nat) (path : String) :
    (burnMcu fuel path).wlp (world file) (Guard file) (fun _ _ => True) s := by
  rw [burnMcu, wlp_bind]
  refine ⟨fun _ _ => h, fun r s' _ => ?_⟩
  cases r with
  | error code =>
      show wlp _ _ (if code.val < 0 then _ else _) _ _
      rw [if_pos code.property]
      trivial
  | ok u => exact (asks_burnErased fuel path _).wlp (fun _ _ => NoErase.guard) fun _ _ => trivial

/-! ### The check of the file -/

variable {file : List UInt8} {s : Flash} {path : String}

theorem int32_eq_iff (bytes : List UInt8) (b : UInt8) :
    (b.toNat : Int) = int32 bytes ↔ word32 bytes = b.toUInt32 := by
  have hb := b.toNat_lt
  have hw := (word32 bytes).toNat_lt
  have hword : (word32 bytes).toBitVec.toNat = (word32 bytes).toNat := rfl
  rw [int32, BitVec.toInt_eq_toNat_cond, hword, ← UInt32.toNat_inj, UInt8.toNat_toUInt32]
  split <;> omega

/-- What `_GetBurnFirmwarePart` can return. -/
inductive Verdict (file : List UInt8) : Int → Prop
  | fail {ret : Int} (h : ret < 0) : Verdict file ret
  | short (h : file.length < HEAD_DATA_SIZE) : Verdict file file.length
  | part (header : HEAD_DATA_SIZE ≤ file.length)
      (magic : word32 ((file.drop PROGRAM_INFO_START_ADDR).take 4) = PROGRAM_MAGIC) :
      Verdict file (int32 ((file.drop (PROGRAM_INFO_START_ADDR + PROGRAM_INFO_PART)).take 4))

theorem take_drop_header {k : Nat} (hk : k + 4 ≤ HEAD_DATA_SIZE) :
    ((file.take HEAD_DATA_SIZE).drop k).take 4 = (file.drop k).take 4 := by
  rw [List.drop_take, List.take_take, Nat.min_eq_left (by omega)]

theorem wlp_getBurnFirmwarePart {Q : Int → Flash → Prop}
    (hQ : ∀ ret t, t.status = s.status → Verdict file ret → Q ret t) :
    (getBurnFirmwarePart path).wlp (world file) (Guard file) Q s := by
  have hclose : ∀ (fd ret : Int) (t : Flash), t.status = s.status → Verdict file ret →
      (do File.close fd; return ret : Prog RegI Int).wlp (world file) (Guard file) Q t := by
    intro fd ret t hstatus hverdict
    refine ⟨fun _ h => RegOp.noConfusion h, fun r t' answer => ?_⟩
    cases answer with
    | closeFile => exact hQ ret _ hstatus hverdict
  rw [getBurnFirmwarePart]
  refine ⟨fun _ h => RegOp.noConfusion h, fun fd s₁ answer => ?_⟩
  cases answer with
  | openFile =>
      show wlp _ _ (if fd < 0 then _ else _) Q _
      split
      · exact hQ _ _ rfl (.fail (by decide))
      · refine ⟨fun _ h => RegOp.noConfusion h, fun r s₂ answer => ?_⟩
        cases answer with
        | fileFail _ _ _ code => exact hclose fd _ _ rfl (.fail code.property)
        | readFile =>
            show wlp _ _ (if (file.take HEAD_DATA_SIZE).length ≠ HEAD_DATA_SIZE then _ else _) Q _
            by_cases hlen : (file.take HEAD_DATA_SIZE).length = HEAD_DATA_SIZE
            · have hheader : HEAD_DATA_SIZE ≤ file.length := by
                rw [List.length_take] at hlen
                omega
              rw [if_neg (not_not.mpr hlen)]
              dsimp only
              rw [take_drop_header (by decide), List.drop_drop, take_drop_header (by decide)]
              split
              · exact hclose fd _ _ rfl (.fail (by decide))
              · rename_i hmagic
                exact hclose fd _ _ rfl (.part hheader (not_not.mp hmagic))
            · have hshort : file.length < HEAD_DATA_SIZE := by
                rw [List.length_take] at hlen
                omega
              rw [if_pos hlen]
              rw [List.length_take, Nat.min_eq_right hshort.le]
              exact hclose fd _ _ rfl (.short hshort)

/-- What passes for a partition is its image or a stub, and never both. -/
theorem checked_iff {reg : BurnStaReg} (hstatus : s.status = some reg)
    (hwait : reg.burn_mode = BURNMODE_WAIT_BURN)
    (hverdict : IsApp reg.parameter → Verdict file reg.parameter.toNat) :
    s.Checked file ↔ ¬ s.Stub file := by
  have hchecked : s.Checked file ↔ (IsApp reg.parameter → Image file reg.parameter) := by
    constructor
    · rintro ⟨reg', hreg', -, himage⟩
      obtain rfl := Option.some.inj (hstatus.symm.trans hreg')
      exact himage
    · intro himage
      exact ⟨reg, hstatus, hwait, himage⟩
  have hstub : s.Stub file ↔ IsApp reg.parameter ∧ file.length = reg.parameter.toNat := by
    constructor
    · rintro ⟨reg', hreg', happ, hlen⟩
      obtain rfl := Option.some.inj (hstatus.symm.trans hreg')
      exact ⟨happ, hlen⟩
    · rintro ⟨happ, hlen⟩
      exact ⟨reg, hstatus, happ, hlen⟩
  have hparam := reg.parameter.toNat_lt
  rw [hchecked, hstub]
  by_cases happ : IsApp reg.parameter
  · have hret := hverdict happ
    generalize hgot : (reg.parameter.toNat : Int) = ret at hret
    cases hret with
    | fail h => omega
    | short h =>
        refine iff_of_false (fun himage => ?_) (not_not.mpr ⟨happ, by omega⟩)
        exact absurd (himage happ).header (not_le.mpr h)
    | part header magic =>
        refine iff_of_true (fun _ => ⟨header, magic, (int32_eq_iff _ _).mp hgot⟩) fun hlen => ?_
        rw [HEAD_DATA_SIZE] at header
        omega
  · exact iff_of_true (fun h => absurd h happ) fun h => happ h.1

theorem wlp_readBurnSta {reg : BurnStaReg} {timeout : UInt32} {Q : Int × BurnStaReg → Flash → Prop}
    (hok : ∀ reg', Q (0, reg') { s with status := some reg' })
    (herr : ∀ ret < 0, Q (ret, reg) s) :
    (readBurnSta reg timeout).wlp (world file) (Guard file) Q s := by
  rw [readBurnSta_eq]
  refine ⟨fun _ h => RegOp.noConfusion h, fun r s' answer => ?_⟩
  cases answer with
  | readStatus _ _ _ bytes => exact hok _
  | readFail _ _ _ _ code => exact herr _ code.property
  | readReg _ _ _ _ haddr => exact absurd rfl haddr

theorem wlp_burnChecked (fuel : Nat) (path : String) (reg : BurnStaReg) :
    (RVMcu.burnChecked fuel path reg).wlp (world file) (Guard file) (fun _ _ => True) s := by
  rw [RVMcu.burnChecked, wlp_bind]
  apply wlp_readBurnSta
  · intro reg'
    dsimp only
    rw [if_neg (lt_irrefl (0 : Int))]
    by_cases hwait : reg'.burn_mode = BURNMODE_WAIT_BURN
    · rw [if_neg (not_not.mpr hwait)]
      by_cases happ : IsApp reg'.parameter
      · rw [if_pos happ, wlp_bind]
        apply wlp_getBurnFirmwarePart
        intro part t hstatus hverdict
        by_cases hpart : (reg'.parameter.toNat : Int) = part
        · rw [if_neg (not_not.mpr hpart)]
          rw [← hpart] at hverdict
          exact wlp_burnMcu (checked_iff hstatus hwait fun _ => hverdict) fuel path
        · rw [if_pos hpart]
          refine Asks.wlp (?_ : Asks NoErase _) (fun _ _ => NoErase.guard) fun _ _ => trivial
          refine (asks_writeBurnMode ?_).bind fun _ => trivial
          show BURNMODE_EXIT_BURN ≠ BURNMODE_START_ERASE
          decide
      · rw [if_neg happ]
        exact wlp_burnMcu (checked_iff rfl hwait fun h => absurd h happ) fuel path
    · rw [if_pos hwait]
      trivial
  · intro ret hret
    dsimp only
    rw [if_pos hret]
    trivial

theorem asks_readPartition {timeout : UInt32} : (RVMcu.readPartition timeout).Asks NoErase :=
  asks_readReg.bind fun _ => trivial

theorem wlp_burnChecked_after {α : Type} {p : Prog RegI α} (h : p.Asks NoErase)
    {f : α → Prog RegI Int}
    (hf : ∀ a t, (f a).wlp (world file) (Guard file) (fun _ _ => True) t) :
    (p >>= f).wlp (world file) (Guard file) (fun _ _ => True) s := by
  rw [wlp_bind]
  exact h.wlp (fun _ _ => NoErase.guard) hf

theorem wlp_rvBurnMcu (fuel : Nat) (path : String) :
    (RVMcu.burnMcu fuel path).wlp (world file) (Guard file) (fun _ _ => True) s := by
  apply wlp_burnChecked_after asks_readPartition
  intro (ret, partition) t
  dsimp only
  split
  · trivial
  split
  · refine wlp_burnChecked_after (asks_writeBurnMode (by decide)) fun ret t => ?_
    split
    · trivial
    · apply wlp_burnChecked_after (asks_req fun _ h => RegOp.noConfusion h)
      intro _ t
      exact wlp_burnChecked fuel path _
  · exact wlp_burnChecked fuel path _

theorem wlp_rvForceBurnMcu (fuel : Nat) (path : String) :
    (RVMcu.forceBurnMcu fuel path).wlp (world file) (Guard file) (fun _ _ => True) s := by
  refine wlp_burnChecked_after (asks_loop (fun _ => ?_) fuel ()) fun _ t =>
    wlp_burnChecked fuel path _
  apply asks_readPartition.bind
  intro (ret, partition)
  dsimp only
  split <;> trivial

end Flash

/-- Whichever of the two functions erases, the MCU waits for a burn and the file is an image of the
application it announces, exactly if the file is no stub. -/
theorem erase_checked {file : List UInt8} {fuel : Nat} {path : String} {p : Prog RegI Int}
    (hp : p = RVMcu.burnMcu fuel path ∨ p = RVMcu.forceBurnMcu fuel path) {timeout : UInt32}
    {next : RegOp.Ans (.writeReg RWREG_BURN_START [BURNMODE_START_ERASE] timeout) → Prog RegI Int}
    {t : Flash} (hrun : Steps (Flash.world file) p .start
      (.ask (.writeReg RWREG_BURN_START [BURNMODE_START_ERASE] timeout) next) t) :
    t.Checked file ↔ ¬ t.Stub file := by
  rcases hp with rfl | rfl
  · exact wlp_guard (Flash.wlp_rvBurnMcu fuel path) hrun timeout rfl
  · exact wlp_guard (Flash.wlp_rvForceBurnMcu fuel path) hrun timeout rfl

/-! ### Given answers -/

namespace Flash

/-- An MCU in its boot partition that shows one status, and a file that reads well. -/
def answer (file : List UInt8) (status : BurnStaReg) (s : Flash) :
    (o : RegOp) → RegOp.Ans o × Flash
  | .readReg addr cnt _ =>
      if addr = RWREG_BURN_START then
        let bytes := (status.toBytes ++ List.replicate cnt.toNat 0).take cnt.toNat
        (.ok ⟨bytes, by simp [bytes]⟩, { s with status := some (.ofBytes bytes) })
      else (.ok ⟨List.replicate cnt.toNat 0, List.length_replicate⟩, s)
  | .writeReg _ _ _ => (.ok (), s)
  | .openFile _ => (3, { s with rest := file })
  | .readFile _ count =>
      (.ok ⟨s.rest.take count, List.length_take_le _ _⟩, { s with rest := s.rest.drop count })
  | .closeFile _ => ((), s)
  | .usleep _ => ((), s)

theorem world_answer (file : List UInt8) (status : BurnStaReg) (s : Flash) (o : RegOp) :
    world file s o (s.answer file status o).1 (s.answer file status o).2 := by
  cases o with
  | readReg addr cnt timeout =>
      rw [answer]
      split
      · rename_i haddr
        subst haddr
        exact .readStatus s cnt timeout _
      · rename_i haddr
        exact .readReg s cnt timeout _ haddr
  | writeReg addr data timeout => exact .writeReg s addr data timeout _
  | openFile path => exact .openFile s path 3
  | readFile fd count => exact .readFile s fd count
  | closeFile fd => exact .closeFile s fd
  | usleep usec => exact .usleep s usec

/-- The first `n` operations of a burn of `file`. -/
def burning (file : List UInt8) (status : BurnStaReg) (n : Nat) : Prog RegI Int × Flash :=
  (RVMcu.burnMcu 1 "mcu.bin").evalFor (answer file status) n .start

theorem steps_burning (file : List UInt8) (status : BurnStaReg) (n : Nat) :
    Steps (world file) (RVMcu.burnMcu 1 "mcu.bin") .start (burning file status n).1
      (burning file status n).2 :=
  @steps_evalFor RegI Flash Flash Int (world file) (answer file status) id
    (world_answer file status) n _ .start

end Flash

/-- A file of one byte is burnt as the application A. -/
theorem erase_unchecked :
    ¬ ∀ (file : List UInt8) (fuel : Nat) (path : String) (timeout : UInt32)
      (next : RegOp.Ans (.writeReg RWREG_BURN_START [BURNMODE_START_ERASE] timeout) → Prog RegI Int)
      (t : Flash), Steps (Flash.world file) (RVMcu.burnMcu fuel path) .start
        (.ask (.writeReg RWREG_BURN_START [BURNMODE_START_ERASE] timeout) next) t →
      t.Checked file := by
  intro h
  have hrun := h [0x70] 1 "mcu.bin" 500 _ _ (Flash.steps_burning [0x70] ⟨BURNMODE_WAIT_BURN, 1⟩ 5)
  obtain ⟨reg, hstatus, -, himage⟩ := hrun
  obtain rfl := Option.some.inj hstatus
  exact absurd (himage (.inl rfl)).header (by decide)

/-- An image for the application A. -/
def imageA : List UInt8 :=
  List.replicate PROGRAM_INFO_START_ADDR 0 ++
    (bytes32 PROGRAM_MAGIC ++ List.replicate 16 0 ++ bytes32 BFP_APP_A ++ List.replicate 4096 0xff)

theorem length_imageA : imageA.length = 5160 := by
  simp only [imageA, List.length_append, List.length_replicate, length_leBytes]
  rfl

-- The five operations before the erase read the 4096 bytes of the head.
set_option maxRecDepth 40000 in
theorem erase_checked_imageA :
    (Flash.burning imageA ⟨BURNMODE_WAIT_BURN, 1⟩ 5).2.Checked imageA :=
  (erase_checked (.inl rfl) (Flash.steps_burning imageA ⟨BURNMODE_WAIT_BURN, 1⟩ 5)).mpr (by
    rintro ⟨reg, hstatus, -, hlen⟩
    obtain rfl := Option.some.inj hstatus
    rw [length_imageA] at hlen
    exact absurd hlen (by decide))

end McuRegWr
