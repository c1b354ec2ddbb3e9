import McuRegWr.Main
import McuRegWr.Proof.Ring.Buffer

/-!
# Register accesses from the command line

A count on the command line is checked against the buffer of the tool less the two bytes of the
checksum, bytes in hexadecimal only against the whole of it. So the last two bytes of a longest
write have no room in the transport buffer.
-/

namespace McuRegWr

open Base Prog

/-! ### What is accepted -/

theorem intOfSize_eq {n : Nat} (h : n < 2 ^ 31) : intOfSize n = n := by
  rw [intOfSize, BitVec.toInt_eq_toNat_cond, BitVec.toNat_ofNat, Nat.mod_eq_of_lt (by omega),
    if_pos (by omega)]

theorem toNat_ofInt {n : Nat} (h : n < 2 ^ 16) : (UInt16.ofInt n).toNat = n := by
  have hmod : ((n : Int) % 2 ^ 16).toNat = n := by omega
  rw [UInt16.ofInt, hmod, UInt16.toNat_ofNat', Nat.mod_eq_of_lt h]

/-- An accepted string has two digits for each of its bytes, and bytes for which there is room. -/
theorem hexStringToByteArray_accepts {hexString : CStr} {byteArray : List UInt8} {size : Nat}
    (hsize : size < 2 ^ 31) (h : ¬ (hexStringToByteArray hexString byteArray size).1 < 0) :
    (hexStringToByteArray hexString byteArray size).1 = (hexString.val.length / 2 : Nat) ∧
      hexString.val.length % 2 = 0 ∧ hexString.val.length / 2 ≤ size := by
  rw [hexStringToByteArray] at h ⊢
  split at h
  · exact absurd (Int.negSucc_lt_zero 0) h
  rename_i hlen
  obtain ⟨heven, hroom⟩ := not_or.mp hlen
  have hroom := Nat.not_lt.mp hroom
  rw [if_neg hlen]
  split at h
  · exact ⟨intOfSize_eq (hroom.trans_lt hsize), not_not.mp heven, hroom⟩
  · exact absurd (Int.negSucc_lt_zero 0) h

namespace MainConfig

variable {config parsed : MainConfig} {addr data : CStr}

/-- The second argument is a number of registers, and not the bytes to write. -/
def Counts (config : MainConfig) : Prop := config.test_cnt ≠ 0 ∨ config.is_read

/-- What an accepted pair of arguments leaves of the configuration. -/
structure Accepted (config parsed : MainConfig) (data : CStr) : Prop where
  test_cnt : parsed.test_cnt = config.test_cnt
  is_write : parsed.is_write = config.is_write
  count : config.Counts → parsed.reg_cnt.toNat ≤ WR_BUF_MAX - 2
  bytes : ¬ config.Counts → parsed.reg_cnt.toNat = data.val.length / 2 ∧
    data.val.length % 2 = 0 ∧ data.val.length / 2 ≤ WR_BUF_MAX

theorem bind_eq_ok {ε α β : Type} {x : Except ε α} {f : α → Except ε β} {b : β}
    (h : (x >>= f) = .ok b) : ∃ a, x = .ok a ∧ f a = .ok b := by
  cases x with
  | error e => cases h
  | ok a => exact ⟨a, rfl, h⟩

theorem parseCount_ok (h : config.parseCount data = .ok parsed) :
    ∃ reg_cnt, parsed = config.setRegCnt reg_cnt ∧ reg_cnt.toNat ≤ WR_BUF_MAX - 2 := by
  rw [parseCount] at h
  dsimp only at h
  split at h
  · cases h
  · rename_i hcnt
    cases h
    exact ⟨_, rfl, Nat.not_lt.mp fun hmany => hcnt (.inr (.inl hmany))⟩

theorem parseBytes_ok (h : config.parseBytes data = .ok parsed) :
    ∃ reg_cnt, parsed = (config.storeHex data WR_BUF_MAX).setRegCnt reg_cnt ∧
      reg_cnt.toNat = data.val.length / 2 ∧ data.val.length % 2 = 0 ∧
      data.val.length / 2 ≤ WR_BUF_MAX := by
  rw [parseBytes] at h
  split at h
  · cases h
  · rename_i hret
    cases h
    obtain ⟨hcnt, heven, hroom⟩ := hexStringToByteArray_accepts (by decide) hret
    refine ⟨_, rfl, ?_, heven, hroom⟩
    rw [hcnt]
    exact toNat_ofInt (hroom.trans_lt (by decide))

theorem parseAccess_accepted (hrw : config.is_write ∨ config.is_read)
    (h : config.parseAccess [addr, data] = .ok parsed) : Accepted config parsed data := by
  rw [parseAccess, if_pos (by tauto)] at h
  dsimp only at h
  split at h
  · cases h
  split at h
  · rename_i hcounts
    obtain ⟨reg_cnt, rfl, hcnt⟩ := parseCount_ok h
    exact ⟨rfl, rfl, fun _ => hcnt, fun hnot => absurd hcounts hnot⟩
  · rename_i hcounts
    obtain ⟨reg_cnt, rfl, hcnt⟩ := parseBytes_ok h
    exact ⟨rfl, rfl, fun hyes => absurd hyes hcounts, fun _ => hcnt⟩

theorem parseProductionDate_ok (h : config.parseProductionDate [addr, data] = .ok parsed) :
    parsed = config := by
  simp only [parseProductionDate] at h
  split at h <;> cases h
  rfl

theorem otherArgparseParse_accepted (hrw : config.is_write ∨ config.is_read)
    (h : otherArgparseParse config [addr, data] = .ok parsed) : Accepted config parsed data := by
  rw [otherArgparseParse] at h
  split at h
  · cases h
  obtain ⟨accessed, haccess, hrest⟩ := bind_eq_ok h
  obtain ⟨dated, hdate, hmode⟩ := bind_eq_ok hrest
  obtain rfl := parseProductionDate_ok hdate
  cases hmode
  obtain ⟨htest, hwrite, hcount, hbytes⟩ := parseAccess_accepted hrw haccess
  exact ⟨htest, hwrite, hcount, hbytes⟩

end MainConfig

/-! ### What is accessed -/

variable {rand : UInt32 → Nat → UInt8} {config : MainConfig}

/-- What a write is given: the bytes of the command line, or those of `rand()` in a test. -/
def WrData (rand : UInt32 → Nat → UInt8) (config : MainConfig) (data : List UInt8) : Prop :=
  if config.test_cnt = 0 then data = config.wr_buf.val.take config.reg_cnt.toNat
  else ∃ i, data = (List.range config.reg_cnt.toNat).map (rand i)

theorem WrData.length_le {data : List UInt8} (h : WrData rand config data) :
    data.length ≤ config.reg_cnt.toNat := by
  rw [WrData] at h
  split at h
  · rw [h]
    exact List.length_take_le _ _
  · obtain ⟨i, rfl⟩ := h
    rw [List.length_map, List.length_range]

theorem WrData.length_eq {data : List UInt8} (h : WrData rand config data)
    (hcnt : config.reg_cnt.toNat ≤ WR_BUF_MAX) : data.length = config.reg_cnt.toNat := by
  rw [WrData] at h
  split at h
  · rw [h, List.length_take, config.wr_buf.property, Nat.min_eq_left hcnt]
  · obtain ⟨i, rfl⟩ := h
    rw [List.length_map, List.length_range]

theorem take_makeData (rand : Nat → UInt8) (wr_buf : List UInt8) (cnt : UInt16) :
    (makeData rand wr_buf cnt).take cnt.toNat = (List.range cnt.toNat).map rand := by
  have hlen : ((List.range cnt.toNat).map rand).length = cnt.toNat := by
    rw [List.length_map, List.length_range]
  rw [makeData, storeAt, List.take_zero, List.nil_append]
  exact List.take_left' hlen

/-- Every access is one of the registers that are asked for, and has the data to write. -/
theorem asks_funWr {P : RegOp → Prop}
    (hread : config.is_write = false → P (.readReg config.reg_addr.toUInt16 config.reg_cnt 400))
    (hwrite : config.is_write = true → ∀ data : List UInt8, WrData rand config data →
      P (.writeReg config.reg_addr.toUInt16 data 400)) :
    (funWr rand config).Asks P := by
  rw [funWr]
  split
  · rename_i htest
    apply asks_loop
    intro s
    rw [runTestRound]
    split
    · split
      · rename_i hmode
        have hdata : WrData rand config ((List.range config.reg_cnt.toNat).map (rand s.i)) := by
          rw [WrData, if_neg htest]
          exact ⟨s.i, rfl⟩
        refine (RVMcu.asks_writeReg ?_).bind fun _ => trivial
        rw [take_makeData]
        exact hwrite hmode _ hdata
      · rename_i hmode
        exact (RVMcu.asks_readReg (hread (Bool.not_eq_true _ ▸ hmode))).bind fun _ => trivial
    · trivial
  rename_i htest
  split
  · rename_i hmode
    have hdata : WrData rand config (config.wr_buf.val.take config.reg_cnt.toNat) := by
      rw [WrData, if_pos (not_not.mp htest)]
    refine (RVMcu.asks_writeReg (hwrite hmode _ hdata)).bind fun ret => ?_
    split <;> trivial
  · rename_i hmode
    refine (RVMcu.asks_readReg (hread (Bool.not_eq_true _ ▸ hmode))).bind fun a => ?_
    obtain ⟨ret, rd_buf⟩ := a
    dsimp only
    split <;> trivial

theorem asks_funWr_fits (hcnt : config.reg_cnt.toNat ≤ 1022) :
    (funWr rand config).Asks RegOp.FitsBuffer := by
  apply asks_funWr
  · intro _
    exact transLength_le hcnt
  · intro _ data hdata
    apply (transLength_le_iff _).mpr
    rw [UInt16.toNat_ofNat']
    exact (Nat.mod_le _ _).trans (hdata.length_le.trans hcnt)

theorem reg_cnt_le (htest : config.test_cnt = 0) (hwrite : config.is_write)
    (hroom : config.reg_cnt.toNat ≤ WR_BUF_MAX)
    (h : (funWr rand config).Asks RegOp.FitsBuffer) : config.reg_cnt.toNat ≤ 1022 := by
  rw [funWr, if_neg (not_not.mpr htest), if_pos hwrite] at h
  have hfits : transLength (UInt16.ofNat (config.wr_buf.val.take config.reg_cnt.toNat).length) ≤
      SPI_RT_MSG_MAX_SIZE := h.1
  rwa [List.length_take, config.wr_buf.property, Nat.min_eq_left hroom, UInt16.ofNat_toNat,
    transLength_le_iff] at hfits

/-- Every accepted access fits the transport buffer, but for one: a single write of more bytes in
hexadecimal than a count may say. -/
theorem command_fits_iff {rand : UInt32 → Nat → UInt8} {config parsed : MainConfig}
    {addr data : CStr} (hrw : config.is_write ∨ config.is_read)
    (h : otherArgparseParse config [addr, data] = .ok parsed) :
    (funWr rand parsed).Asks RegOp.FitsBuffer ↔
      config.test_cnt ≠ 0 ∨ config.is_read ∨ data.val.length ≤ 2 * (WR_BUF_MAX - 2) := by
  obtain ⟨htest, hwrite, hcount, hbytes⟩ := MainConfig.otherArgparseParse_accepted hrw h
  rw [← or_assoc]
  by_cases hcounts : config.Counts
  · exact iff_of_true (asks_funWr_fits (hcount hcounts)) (.inl hcounts)
  obtain ⟨hcnt, heven, hroom⟩ := hbytes hcounts
  obtain ⟨hnotest, hnoread⟩ := not_or.mp hcounts
  rw [or_iff_right (show ¬ (config.test_cnt ≠ 0 ∨ config.is_read) from hcounts)]
  have hiff : parsed.reg_cnt.toNat ≤ 1022 ↔ data.val.length ≤ 2 * (WR_BUF_MAX - 2) := by
    rw [hcnt, WR_BUF_MAX]
    omega
  rw [← hiff]
  refine ⟨reg_cnt_le ?_ ?_ (hcnt.trans_le hroom), asks_funWr_fits⟩
  · rw [htest]
    exact not_not.mp hnotest
  · rw [hwrite]
    exact hrw.resolve_right hnoread

/-! ### Given arguments -/

/-- The configuration of `-w`. -/
def writeConfig : MainConfig := { MainConfig.start with is_write := true }

theorem zero_not_mem_replicate (n : Nat) : 0 ∉ List.replicate n (0x30 : UInt8) := by
  intro h
  exact absurd (List.eq_of_mem_replicate h) (by decide)

/-- As many digits `0`. -/
def zeroDigits (n : Nat) : CStr := ⟨List.replicate n 0x30, zero_not_mem_replicate n⟩

theorem hexLoop_zeroDigits (n i : Nat) (byteArray : List UInt8) :
    (hexLoop byteArray i (List.replicate (2 * n) 0x30)).1 = true := by
  induction n generalizing i byteArray with
  | zero => rfl
  | succ n ih => exact ih _ _

theorem hexStringToByteArray_zeroDigits {n size : Nat} (hsize : n ≤ size) (hint : n < 2 ^ 31)
    (byteArray : List UInt8) :
    (hexStringToByteArray (zeroDigits (2 * n)) byteArray size).1 = n := by
  have hlen : (zeroDigits (2 * n)).val.length = 2 * n := List.length_replicate
  have hloop : (hexLoop byteArray 0 (zeroDigits (2 * n)).val).1 = true := hexLoop_zeroDigits n 0 _
  rw [hexStringToByteArray, hlen, if_neg (by omega)]
  split
  · rw [Nat.mul_div_cancel_left n (by decide), intOfSize_eq hint]
  · rename_i heq
    rw [heq] at hloop
    cases hloop

theorem writeConfig_zeroDigits {n : Nat} (h : n ≤ WR_BUF_MAX) :
    ∃ parsed, otherArgparseParse writeConfig [zeroDigits 1, zeroDigits (2 * n)] = .ok parsed ∧
      parsed.mode = .FUN_RW := by
  let config := writeConfig.setRegAddr 0
  let accessed := (config.storeHex (zeroDigits (2 * n)) WR_BUF_MAX).setRegCnt (UInt16.ofInt n)
  have hcnt := hexStringToByteArray_zeroDigits h (h.trans_lt (by decide)) config.wr_buf.val
  have haccess : writeConfig.parseAccess [zeroDigits 1, zeroDigits (2 * n)] = .ok accessed := by
    show config.parseBytes (zeroDigits (2 * n)) = .ok accessed
    rw [MainConfig.parseBytes, hcnt]
    exact if_neg (by omega)
  have hmode : accessed.chooseMode = .FUN_RW := rfl
  refine ⟨accessed.setMode .FUN_RW, ?_, rfl⟩
  rw [otherArgparseParse, if_neg (by decide), haccess]
  show Except.ok (accessed.setMode accessed.chooseMode) = _
  rw [hmode]

/-- A write of 1024 bytes is accepted, and its data frame does not fit. -/
theorem command_overflows :
    ¬ ∀ (rand : UInt32 → Nat → UInt8) (config parsed : MainConfig) (addr data : CStr),
      config.is_write ∨ config.is_read → otherArgparseParse config [addr, data] = .ok parsed →
      parsed.mode = .FUN_RW → (funWr rand parsed).Asks RegOp.FitsBuffer := by
  intro h
  obtain ⟨parsed, hparse, hmode⟩ := @writeConfig_zeroDigits 1024 (by decide)
  have hfits := h (fun _ _ => 0) writeConfig parsed _ _ (.inl rfl) hparse hmode
  obtain ⟨htest, hwrite, -, hbytes⟩ := MainConfig.otherArgparseParse_accepted (.inl rfl) hparse
  obtain ⟨hcnt, -, hroom⟩ := hbytes (by rintro (hno | hno) <;> exact absurd hno (by decide))
  have hle := reg_cnt_le htest hwrite (hcnt.trans_le hroom) hfits
  rw [hcnt, show (zeroDigits (2 * 1024)).val.length = 2 * 1024 from List.length_replicate] at hle
  exact absurd hle (by decide)

/-- The longest write that fits. -/
theorem command_fits_iff_longest :
    ∃ parsed, otherArgparseParse writeConfig [zeroDigits 1, zeroDigits (2 * 1022)] = .ok parsed ∧
      (funWr (fun _ _ => 0) parsed).Asks RegOp.FitsBuffer := by
  obtain ⟨parsed, hparse, -⟩ := @writeConfig_zeroDigits 1022 (by decide)
  refine ⟨parsed, hparse, (command_fits_iff (.inl rfl) hparse).mpr (.inr (.inr ?_))⟩
  exact List.length_replicate.le

end McuRegWr
