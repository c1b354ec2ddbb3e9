import McuRegWr.Proof.Ring.Can
import McuRegWr.Proof.Transport.Frame

/-!
# Data frames and the transport buffer

The two buffers of the transport hold `SPI_RT_MSG_MAX_SIZE` bytes, and only the transport knows it:
a data frame is as long as the access it is made for. How many bytes a block of CAN messages asks
for depends on the caller's count and on the level of the ring, so these two decide whether its
frame fits.
-/

namespace McuRegWr

open Base Prog RegWrCb

/-- The length of the data frame the transport makes for an access. -/
def RegOp.frameLength : RegOp → Nat
  | .readReg _ reg_cnt _ => transLength reg_cnt
  | .writeReg _ reg_data _ => transLength (UInt16.ofNat reg_data.length)
  | .openFile _ => 0
  | .readFile _ _ => 0
  | .closeFile _ => 0
  | .usleep _ => 0

/-- The data frame of an access fits the transport buffer. -/
def RegOp.FitsBuffer (o : RegOp) : Prop := o.frameLength ≤ SPI_RT_MSG_MAX_SIZE

theorem transLength_le_iff (reg_cnt : UInt16) :
    transLength reg_cnt ≤ SPI_RT_MSG_MAX_SIZE ↔ reg_cnt.toNat ≤ 1022 := by
  constructor
  · intro hle
    have hdata := (le_transLength reg_cnt).trans hle
    simp only [WR_CRC_LEN, SPI_RT_MSG_MAX_SIZE] at hdata
    omega
  · exact transLength_le

/-- The register at `addr` shows `level` whenever it can be read. Nothing else is known of any
access. -/
def reporting (addr : UInt16) (level : Nat) : World RegI Unit
  | _, .readReg reg_addr _ _, .ok bytes, _ => reg_addr = addr → bytes.val = leBytes 4 level
  | _, _, _, _ => True

namespace CanCall

/-- The register a call asks for the level. -/
def levelReg : CanCall → UInt16
  | .granRead _ _ _ => recvReg CBREG_CMD_GET_SIZE
  | .granWrite _ _ _ => sendReg CBREG_CMD_GET_FREESIZE

def nmemb : CanCall → UInt32
  | .granRead _ nmemb _ => nmemb
  | .granWrite _ nmemb _ => nmemb

def timeout : CanCall → UInt32
  | .granRead _ _ timeout => timeout
  | .granWrite _ _ timeout => timeout

/-- The messages of the transfer of a call that is shown `level`. -/
def grains (c : CanCall) (level : Nat) : UInt16 :=
  RegWrCb.grains level PCAN_MSG_SIZE c.nmemb.toUInt16

/-- The bytes of that transfer. -/
def transferCnt (c : CanCall) (level : Nat) : UInt16 :=
  ((c.grains level).toUInt32 * PCAN_MSG_SIZE).toUInt16

def query (c : CanCall) : RegOp := .readReg c.levelReg 4 c.timeout

def transfer (c : CanCall) (level : Nat) : RegOp :=
  match c with
  | .granRead _ _ timeout => .readReg (recvReg CBREG_CMD_READ) (c.transferCnt level) timeout
  | .granWrite data _ timeout =>
      .writeReg (sendReg CBREG_CMD_WRITE) (data.take (c.transferCnt level).toNat) timeout

/-- A sender has all its messages in its buffer. -/
def Holds : CanCall → Prop
  | .granRead _ _ _ => True
  | .granWrite data nmemb _ => msgSize * nmemb.toNat ≤ data.length

variable {level : Nat}

theorem toNat_grains (c : CanCall) (hlevel : level < 2 ^ 31) :
    (c.grains level).toNat = min (level / msgSize) (c.nmemb.toNat % 65536) := by
  rw [grains, RegWrCb.toNat_grains (by omega), UInt32.toNat_toUInt16]

theorem toNat_transferCnt (c : CanCall) (level : Nat) :
    (c.transferCnt level).toNat = msgSize * (c.grains level).toNat % 65536 := by
  rw [transferCnt, UInt32.toNat_toUInt16, UInt32.toNat_mul, UInt16.toNat_toUInt32, Nat.mul_comm]
  exact Nat.mod_mod_of_dvd _ (by decide)

theorem code_eq (c : CanCall) : ∃ next, c.code = .ask c.query next ∧
    (∀ code, ∃ a, next (.error code) = .done a) ∧
    ∀ size, int32 size.val = level →
      (c.grains level = 0 → ∃ a, next (.ok size) = .done a) ∧
      (c.grains level ≠ 0 → ∃ next', next (.ok size) = .ask (c.transfer level) next' ∧
        ∀ r, ∃ a, next' r = .done a) := by
  cases c with
  | granRead data nmemb timeout =>
      refine ⟨_, granRead_eq _ _ _ _ _, fun code => ⟨_, rfl⟩, fun size hsize => ?_⟩
      dsimp only
      rw [hsize, if_neg (by omega)]
      constructor
      · intro hzero
        exact ⟨_, if_pos hzero⟩
      · intro hsome
        refine ⟨_, if_neg hsome, fun r => ?_⟩
        cases r with
        | error code => exact ⟨_, rfl⟩
        | ok bytes => exact ⟨_, rfl⟩
  | granWrite data nmemb timeout =>
      refine ⟨_, code_granWrite _ _ _, fun code => ⟨_, rfl⟩, fun size hsize => ?_⟩
      dsimp only
      rw [hsize, if_neg (by omega)]
      constructor
      · intro hzero
        exact ⟨_, if_pos hzero⟩
      · intro hsome
        refine ⟨_, if_neg hsome, fun r => ?_⟩
        cases r with
        | error code => exact ⟨_, rfl⟩
        | ok u => exact ⟨_, rfl⟩

theorem wlp_code (c : CanCall) (hlevel : level < 2 ^ 31) {P : RegOp → Prop} (hquery : P c.query)
    (htransfer : c.grains level ≠ 0 → P (c.transfer level)) :
    c.code.wlp (reporting c.levelReg level) (fun _ o => P o) (fun _ _ => True) () := by
  obtain ⟨next, hcode, herror, hok⟩ := @code_eq level c
  rw [hcode]
  refine ⟨hquery, fun r s' answer => ?_⟩
  cases r with
  | error code =>
      obtain ⟨a, ha⟩ := herror code
      rw [ha]
      trivial
  | ok size =>
      obtain ⟨hnone, hsome⟩ := hok size (by rw [answer rfl, int32_leBytes hlevel])
      by_cases hzero : c.grains level = 0
      · obtain ⟨a, ha⟩ := hnone hzero
        rw [ha]
        trivial
      · obtain ⟨next', hnext, hdone⟩ := hsome hzero
        rw [hnext]
        refine ⟨htransfer hzero, fun r t _ => ?_⟩
        obtain ⟨a, ha⟩ := hdone r
        rw [ha]
        trivial

theorem steps_transfer (c : CanCall) (hlevel : level < 2 ^ 31) (h : c.grains level ≠ 0) :
    ∃ next, Steps (reporting c.levelReg level) c.code () (.ask (c.transfer level) next) () := by
  obtain ⟨next, hcode, -, hok⟩ := @code_eq level c
  let size : {bytes : List UInt8 // bytes.length = (4 : UInt16).toNat} :=
    ⟨leBytes 4 level, length_leBytes _ _⟩
  obtain ⟨next', hnext, -⟩ := (hok size (int32_leBytes hlevel)).2 h
  have hshown : reporting c.levelReg level () c.query (.ok size) () := fun _ => rfl
  refine ⟨next', ?_⟩
  rw [hcode]
  apply Steps.ask hshown
  rw [hnext]
  exact .refl _ _

theorem fits_query (c : CanCall) : c.query.FitsBuffer := by
  show transLength 4 ≤ SPI_RT_MSG_MAX_SIZE
  decide

theorem fits_transfer_iff (c : CanCall) (hlevel : level < 2 ^ 31) (hholds : c.Holds) :
    (c.transfer level).FitsBuffer ↔
      min (level / msgSize) (c.nmemb.toNat % 65536) % 4096 ≤ 63 := by
  have hcnt := c.toNat_transferCnt level
  rw [c.toNat_grains hlevel] at hcnt
  have hsize : msgSize = 16 := rfl
  have hfits : transLength (c.transferCnt level) ≤ SPI_RT_MSG_MAX_SIZE ↔
      min (level / msgSize) (c.nmemb.toNat % 65536) % 4096 ≤ 63 := by
    rw [transLength_le_iff, hcnt, hsize]
    omega
  cases c with
  | granRead data nmemb timeout => exact hfits
  | granWrite data nmemb timeout =>
      -- the buffer holds every message that is sent, so the transfer takes what it counts
      have hlen : (data.take (transferCnt (.granWrite data nmemb timeout) level).toNat).length =
          (transferCnt (.granWrite data nmemb timeout) level).toNat := by
        rw [List.length_take, Nat.min_eq_left]
        refine le_trans ?_ hholds
        rw [hcnt, hsize]
        simp only [CanCall.nmemb]
        omega
      rw [transfer, RegOp.FitsBuffer, RegOp.frameLength, hlen, UInt16.ofNat_toNat]
      exact hfits

/-- Every access of a call on a ring that shows `level` has a data frame that fits the transport
buffer, if and only if its transfer is of at most 63 messages, up to the width of a length. -/
theorem fits_iff (c : CanCall) {level : Nat} (hlevel : level < 2 ^ 31) (hholds : c.Holds) :
    (∀ o next s, Steps (reporting c.levelReg level) c.code () (.ask o next) s → o.FitsBuffer) ↔
      min (level / msgSize) (c.nmemb.toNat % 65536) % 4096 ≤ 63 := by
  constructor
  · intro hall
    by_cases hzero : c.grains level = 0
    · rw [← c.toNat_grains hlevel, hzero]
      decide
    · obtain ⟨next, hsteps⟩ := c.steps_transfer hlevel hzero
      exact (c.fits_transfer_iff hlevel hholds).mp (hall _ _ _ hsteps)
  · intro hle o next s hsteps
    have hwlp := c.wlp_code hlevel c.fits_query fun _ =>
      (c.fits_transfer_iff hlevel hholds).mpr hle
    exact wlp_guard hwlp hsteps

/-- 63 messages of a ring that holds 256 are 1008 bytes, and every access fits. -/
theorem fits_iff_sixty_three :
    msgSize * 63 = 1008 ∧
      ∀ o next s, Steps (reporting (recvReg CBREG_CMD_GET_SIZE) 4096)
        (code (.granRead [] 63 100)) () (.ask o next) s → o.FitsBuffer :=
  ⟨rfl, (fits_iff (.granRead [] 63 100) (by decide) trivial).mpr (by decide)⟩

/-- 64 messages of a ring that holds 64 are 1024 bytes, and their checksum is behind the buffer. -/
theorem block_overflows :
    ¬ ∀ (c : CanCall) (level : Nat), level < 2 ^ 31 → c.Holds → ∀ o next s,
      Steps (reporting c.levelReg level) c.code () (.ask o next) s → o.FitsBuffer := by
  intro h
  obtain ⟨next, hsteps⟩ := @steps_transfer 1024 (.granRead [] 64 100) (by decide) (by decide)
  have hfits := h (.granRead [] 64 100) 1024 (by decide) trivial _ _ _ hsteps
  exact absurd hfits (by simp only [RegOp.FitsBuffer]; decide)

end CanCall

end McuRegWr
