import McuRegWr.RearviewMcu

/-!
# The ring operations as sequences of accesses

Every operation of `regwr_cb.c` asks for a level and then makes at most one access. These equations
say so, with the lengths the second access gets; nothing later unfolds the operations themselves.
-/

namespace McuRegWr

open Base Prog

/-! ### Numbers on the wire -/

/-- A level below `2^31` comes back as itself. -/
theorem int32_leBytes {n : Nat} (h : n < 2 ^ 31) : int32 (leBytes 4 n) = n := by
  have hword : (word32 (leBytes 4 n)).toNat = n := by
    rw [toNat_word32 (length_leBytes _ _), ofLeBytes_leBytes_of_lt (by omega)]
  rw [int32, BitVec.toInt_eq_toNat_of_lt]
  · exact congrArg Int.ofNat hword
  · change 2 * (word32 (leBytes 4 n)).toNat < 2 ^ 32
    omega

theorem exists_level {bytes : List UInt8} (h : ¬ int32 bytes < 0) :
    ∃ n < 2 ^ 31, int32 bytes = (n : Nat) := by
  obtain ⟨n, hn⟩ := Int.eq_ofNat_of_zero_le (not_lt.mp h)
  refine ⟨n, ?_, hn⟩
  have hlt : 2 * int32 bytes < 2 ^ 32 := BitVec.two_mul_toInt_lt
  omega

namespace RegWrCb

/-- The number of grains, below the 16-bit request. -/
theorem toNat_grains {n : Nat} (h : n < 2 ^ 32) (gran_size : UInt32) (num : UInt16) :
    (grains n gran_size num).toNat = min (n / gran_size.toNat) num.toNat := by
  have hnum := num.toNat_lt
  have hwhole : (UInt32.ofNat (n : Int).toNat / gran_size).toNat = n / gran_size.toNat := by
    rw [UInt32.toNat_div, UInt32.toNat_ofNat', Int.toNat_natCast, Nat.mod_eq_of_lt h]
  simp only [grains]
  by_cases hgt : UInt32.ofNat (n : Int).toNat / gran_size > num.toUInt32
  · rw [if_pos hgt]
    have hlt := UInt32.lt_iff_toNat_lt.mp hgt
    rw [hwhole, UInt16.toNat_toUInt32] at hlt
    omega
  · rw [if_neg hgt]
    have hle := UInt32.le_iff_toNat_le.mp (UInt32.not_lt.mp hgt)
    rw [hwhole, UInt16.toNat_toUInt32] at hle
    rw [UInt32.toNat_toUInt16, hwhole]
    omega

theorem toNat_clamp {n : Nat} (len : UInt16) : (clamp len n).toNat = min n len.toNat := by
  have hlen := len.toNat_lt
  rw [clamp]
  by_cases hgt : (len.toNat : Int) > n
  · rw [if_pos hgt, Int.toNat_natCast, UInt16.toNat_ofNat']
    omega
  · rw [if_neg hgt]
    omega

/-- What is offered to a ring that has room: something, and no more than there is. -/
theorem clamp_bounds {n : Nat} (hpos : 0 < n) (hlen : n < 65536) {ret : Int} (hret : 0 < ret) :
    0 < (clamp (UInt32.ofNat n).toUInt16 ret).toNat ∧
      (clamp (UInt32.ofNat n).toUInt16 ret).toNat ≤ n := by
  obtain ⟨k, rfl⟩ := Int.eq_ofNat_of_zero_le hret.le
  have hk : 0 < k := Int.natCast_pos.mp hret
  rw [toNat_clamp, UInt32.toNat_toUInt16, UInt32.toNat_ofNat']
  omega

/-! ### Equations -/

variable (cb_addr : UInt16)

theorem level_eq (cmd : UInt16) (timeout : UInt32) :
    level regWrCbHandle cb_addr cmd timeout =
      .ask (.readReg (cb_addr + cmd) 4 timeout) fun
        | .error code => .done code.val
        | .ok size => .done (int32 size.val) := by
  refine congrArg (@Prog.ask RegI _ _) (funext fun ans => ?_)
  cases ans with
  | error code =>
      change (if code.val < 0 then pure code.val else pure (int32 (bytes32 0)) : Prog RegI Int) = _
      rw [if_pos code.property]
      rfl
  | ok size =>
      change (if (0 : Int) < 0 then pure 0 else
        pure (int32 (storeAt (bytes32 0) 0 size.val)) : Prog RegI Int) = _
      rw [if_neg (lt_irrefl _), storeAt_bytes32 size.property]
      rfl

theorem granRead_eq (data : List UInt8) (gran_size nmemb timeout : UInt32) :
    granRead regWrCbHandle cb_addr data gran_size nmemb timeout =
      .ask (.readReg (cb_addr + CBREG_CMD_GET_SIZE) 4 timeout) fun
        | .error code => .done (code.val, data)
        | .ok size =>
            let r_num := grains (int32 size.val) gran_size nmemb.toUInt16
            if int32 size.val < 0 then .done (int32 size.val, data)
            else if r_num = 0 then .done (0, data)
            else .ask (.readReg (cb_addr + CBREG_CMD_READ) (r_num.toUInt32 * gran_size).toUInt16
              timeout) fun
              | .error code => .done (code.val, data)
              | .ok bytes => .done (r_num.toNat, storeAt data 0 bytes.val) := by
  rw [granRead, RegWrCb.size, level_eq, ask_bind]
  refine congrArg (@Prog.ask RegI _ _) (funext fun ans => ?_)
  cases ans with
  | error code => exact if_pos code.property
  | ok size =>
      simp only [done_bind]
      split
      · rfl
      split
      · rfl
      refine congrArg (@Prog.ask RegI _ _) (funext fun ans => ?_)
      cases ans with
      | error code => exact if_pos code.property
      | ok bytes => rfl

theorem granWrite_eq (data : List UInt8) (gran_size nmemb timeout : UInt32) :
    granWrite regWrCbHandle cb_addr data gran_size nmemb timeout =
      .ask (.readReg (cb_addr + CBREG_CMD_GET_FREESIZE) 4 timeout) fun
        | .error code => .done code.val
        | .ok size =>
            let w_num := grains (int32 size.val) gran_size nmemb.toUInt16
            if int32 size.val < 0 then .done (int32 size.val)
            else if w_num = 0 then .done 0
            else .ask (.writeReg (cb_addr + CBREG_CMD_WRITE)
              (data.take (w_num.toUInt32 * gran_size).toUInt16.toNat) timeout) fun
              | .error code => .done code.val
              | .ok _ => .done w_num.toNat := by
  rw [granWrite, freeSize, level_eq, ask_bind]
  refine congrArg (@Prog.ask RegI _ _) (funext fun ans => ?_)
  cases ans with
  | error code => exact if_pos code.property
  | ok size =>
      simp only [done_bind]
      split
      · rfl
      split
      · rfl
      refine congrArg (@Prog.ask RegI _ _) (funext fun ans => ?_)
      cases ans with
      | error code => exact if_pos code.property
      | ok _ => rfl

theorem readBy_eq (cmd : UInt16) (buf : List UInt8) (buf_size timeout : UInt32) :
    readBy regWrCbHandle cb_addr cmd buf buf_size timeout =
      .ask (.readReg (cb_addr + CBREG_CMD_GET_SIZE) 4 timeout) fun
        | .error code => .done (code.val, buf)
        | .ok size =>
            let r_len := clamp buf_size.toUInt16 (int32 size.val)
            if int32 size.val < 0 then .done (int32 size.val, buf)
            else if int32 size.val = 0 then .done (0, buf)
            else .ask (.readReg (cb_addr + cmd) r_len timeout) fun
              | .error code => .done (code.val, buf)
              | .ok bytes => .done (r_len.toNat, storeAt buf 0 bytes.val) := by
  rw [readBy, RegWrCb.size, level_eq, ask_bind]
  refine congrArg (@Prog.ask RegI _ _) (funext fun ans => ?_)
  cases ans with
  | error code => exact if_pos code.property
  | ok size =>
      simp only [done_bind]
      split
      · rfl
      split
      · rfl
      refine congrArg (@Prog.ask RegI _ _) (funext fun ans => ?_)
      cases ans with
      | error code => exact if_pos code.property
      | ok bytes => rfl

/-- The bytes a `RegWrCb_ReadAir` skips, of a ring that shows the level `ret`. -/
def airLength (read_size : UInt32) (ret : Int) : UInt32 :=
  if read_size.toUInt16.toUInt32 > UInt32.ofNat ret.toNat then UInt32.ofNat ret.toNat
  else read_size.toUInt16.toUInt32

theorem toNat_airLength {n : Nat} (h : n < 2 ^ 32) (read_size : UInt32) :
    (airLength read_size n).toNat = min n (read_size.toNat % 65536) := by
  have hlevel : (UInt32.ofNat (n : Int).toNat).toNat = n := by
    rw [Int.toNat_natCast, UInt32.toNat_ofNat', Nat.mod_eq_of_lt h]
  have hlen : read_size.toUInt16.toUInt32.toNat = read_size.toNat % 65536 := by
    rw [UInt16.toNat_toUInt32, UInt32.toNat_toUInt16]
  rw [airLength]
  split
  · rename_i hgt
    have hlt := UInt32.lt_iff_toNat_lt.mp hgt
    omega
  · rename_i hle
    have hle := UInt32.le_iff_toNat_le.mp (UInt32.not_lt.mp hle)
    omega

theorem readAir_eq (read_size timeout : UInt32) :
    readAir regWrCbHandle cb_addr read_size timeout =
      .ask (.readReg (cb_addr + CBREG_CMD_GET_SIZE) 4 timeout) fun
        | .error code => .done code.val
        | .ok size =>
            let r_len := airLength read_size (int32 size.val)
            if int32 size.val < 0 then .done (int32 size.val)
            else if int32 size.val = 0 then .done 0
            else .ask (.writeReg (cb_addr + CBREG_CMD_READAIR) (bytes32 r_len) timeout) fun
              | .error code => .done code.val
              | .ok _ => .done r_len.toNat := by
  rw [readAir, RegWrCb.size, level_eq, ask_bind]
  refine congrArg (@Prog.ask RegI _ _) (funext fun ans => ?_)
  cases ans with
  | error code => exact if_pos code.property
  | ok size =>
      simp only [done_bind]
      split
      · rfl
      split
      · rfl
      refine congrArg (@Prog.ask RegI _ _) (funext fun ans => ?_)
      cases ans with
      | error code => exact if_pos code.property
      | ok _ => rfl

theorem write_eq (data : List UInt8) (data_size timeout : UInt32) :
    write regWrCbHandle cb_addr data data_size timeout =
      .ask (.readReg (cb_addr + CBREG_CMD_GET_FREESIZE) 4 timeout) fun
        | .error code => .done code.val
        | .ok size =>
            let w_len := clamp data_size.toUInt16 (int32 size.val)
            if int32 size.val < 0 then .done (int32 size.val)
            else if int32 size.val = 0 then .done 0
            else .ask (.writeReg (cb_addr + CBREG_CMD_WRITE) (data.take w_len.toNat) timeout) fun
              | .error code => .done code.val
              | .ok _ => .done w_len.toNat := by
  rw [write, freeSize, level_eq, ask_bind]
  refine congrArg (@Prog.ask RegI _ _) (funext fun ans => ?_)
  cases ans with
  | error code => exact if_pos code.property
  | ok size =>
      simp only [done_bind]
      split
      · rfl
      split
      · rfl
      refine congrArg (@Prog.ask RegI _ _) (funext fun ans => ?_)
      cases ans with
      | error code => exact if_pos code.property
      | ok _ => rfl

theorem clean_eq (timeout : UInt32) :
    clean regWrCbHandle cb_addr timeout =
      .ask (.writeReg (cb_addr + CBREG_CMD_CLEAN) [0x00] timeout) fun
        | .error code => .done code.val
        | .ok _ => .done 0 := by
  refine congrArg (@Prog.ask RegI _ _) (funext fun ans => ?_)
  cases ans with
  | error code => exact if_pos code.property
  | ok _ => rfl

/-! ### Rules -/

variable {cb_addr : UInt16} {σ : Type} {W : World RegI σ} {G : σ → RegOp → Prop}

/-- A write offers what there is room for, if there is room at all. -/
theorem wlp_write {data : List UInt8} {timeout : UInt32} {Q : Int → σ → Prop} {s : σ}
    (hpos : 0 < data.length) (hlen : data.length < 65536)
    (hask : G s (.readReg (cb_addr + CBREG_CMD_GET_FREESIZE) 4 timeout))
    (hfail : ∀ code s',
      W s (.readReg (cb_addr + CBREG_CMD_GET_FREESIZE) 4 timeout) (.error code) s' → Q code.val s')
    (hfull : ∀ size s', W s (.readReg (cb_addr + CBREG_CMD_GET_FREESIZE) 4 timeout) (.ok size) s' →
      int32 size.val ≤ 0 → Q (int32 size.val) s')
    (hroom : ∀ size s' (n : Nat),
      W s (.readReg (cb_addr + CBREG_CMD_GET_FREESIZE) 4 timeout) (.ok size) s' →
      0 < int32 size.val → 0 < n → n ≤ data.length →
      G s' (.writeReg (cb_addr + CBREG_CMD_WRITE) (data.take n) timeout) ∧
        ∀ r s'', W s' (.writeReg (cb_addr + CBREG_CMD_WRITE) (data.take n) timeout) r s'' →
          match r with
          | .error code => Q code.val s''
          | .ok _ => Q n s'') :
    (write regWrCbHandle cb_addr data (UInt32.ofNat data.length) timeout).wlp W G Q s := by
  rw [write_eq]
  refine ⟨hask, fun r s' answer => ?_⟩
  cases r with
  | error code => exact hfail code s' answer
  | ok size =>
      by_cases hfree : 0 < int32 size.val
      · obtain ⟨hw, hle⟩ := clamp_bounds hpos hlen hfree
        obtain ⟨hguard, hwrite⟩ := hroom size s' _ answer hfree hw hle
        simp only [if_neg hfree.not_gt, if_neg hfree.ne']
        refine ⟨hguard, fun r s'' answer' => ?_⟩
        have hdone := hwrite r s'' answer'
        cases r with
        | error code => exact hdone
        | ok _ => exact hdone
      · have hfree := Int.not_lt.mp hfree
        have hdone := hfull size s' answer hfree
        dsimp only
        split
        · exact hdone
        · rw [if_pos (by omega)]
          rwa [show int32 size.val = 0 by omega] at hdone

end RegWrCb

end McuRegWr
