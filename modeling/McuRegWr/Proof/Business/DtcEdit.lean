import McuRegWr.Proof.Business.Dtc

/-!
# An edit of the fault map

`fun_set_or_clean_mpu_dtc` sets the bit of one fault and clears that of another in the bytes of the
word it has read, each only where the mask has it. In the word this is an or and an and-not, whatever
fault numbers are given.
-/

namespace McuRegWr

open Base Prog

variable {dtc set_dtc clean_dtc dtc_map : UInt32}

/-! ### The word -/

/-- The bit of a fault, where the mask has it. A fault number is decremented as an unsigned one. -/
def maskedBit (dtc : UInt32) : UInt32 :=
  if MPU_DTC_MAP_MASK.toNat.testBit (dtc - 1).toNat then 1 <<< (dtc - 1) else 0

/-- The map with one fault set and another cleaned. -/
def editedMap (set_dtc clean_dtc dtc_map : UInt32) : UInt32 :=
  (dtc_map ||| maskedBit set_dtc) &&& ~~~maskedBit clean_dtc

theorem toNat_pred (h : dtc ≠ 0) : (dtc - 1).toNat = dtc.toNat - 1 := by
  apply UInt32.toNat_sub_of_le
  rw [UInt32.le_iff_toNat_le]
  exact Nat.pos_of_ne_zero fun h0 => h (UInt32.toNat_inj.mp h0)

/-- The fault 0 wraps to a bit that no mask has. -/
theorem testBit_mask_iff : MPU_DTC_MAP_MASK.toNat.testBit (dtc - 1).toNat = true ↔ InMask dtc := by
  by_cases hzero : dtc = 0
  · subst hzero
    exact iff_of_false (by decide) fun h => h.1 rfl
  · rw [InMask, toNat_pred hzero, and_iff_right hzero]

theorem controlsDtc_iff : controlsDtc dtc = true ↔ InMask dtc := by
  constructor
  · intro h
    simp only [controlsDtc, Bool.and_eq_true, decide_eq_true_eq] at h
    obtain ⟨⟨hpos, -⟩, hbit⟩ := h
    rw [getBit_eq, ← testBit_ofLeBytes, ofLeBytes_leBytes_of_lt MPU_DTC_MAP_MASK.toNat_lt] at hbit
    refine ⟨hpos, ?_⟩
    by_contra hclear
    exact hbit (if_neg hclear)
  · exact InMask.controls

theorem testBit_one_shiftLeft {n : UInt32} (hn : n.toNat < 32) (b : Nat) :
    ((1 : UInt32) <<< n).toNat.testBit b = decide (b = n.toNat) := by
  have hpow : ((1 : UInt32) <<< n).toNat = 2 ^ n.toNat := by
    rw [UInt32.toNat_shiftLeft, Nat.mod_eq_of_lt hn, UInt32.toNat_one, Nat.one_shiftLeft,
      Nat.mod_eq_of_lt (Nat.pow_lt_pow_right (by decide) hn)]
  rw [hpow, Nat.testBit_two_pow, decide_eq_decide]
  exact eq_comm

theorem testBit_and_not (v w : UInt32) (b : Nat) :
    (v &&& ~~~w).toNat.testBit b = (v.toNat.testBit b && !w.toNat.testBit b) := by
  show (v &&& ~~~w).toBitVec.getLsbD b = (v.toBitVec.getLsbD b && !w.toBitVec.getLsbD b)
  rw [UInt32.toBitVec_and, UInt32.toBitVec_not, BitVec.getLsbD_and, BitVec.getLsbD_not]
  by_cases hb : b < 32
  · rw [decide_eq_true hb, Bool.true_and]
  · rw [BitVec.getLsbD_of_ge _ _ (Nat.not_lt.mp hb)]
    rfl

theorem testBit_maskedBit (dtc : UInt32) (b : Nat) :
    (maskedBit dtc).toNat.testBit b = true ↔ InMask dtc ∧ b = dtc.toNat - 1 := by
  rw [maskedBit]
  by_cases hmask : InMask dtc
  · have hlt : (dtc - 1).toNat < 32 := by
      have hpos := UInt32.pos_iff_ne_zero.mpr hmask.1
      have hle := UInt32.le_iff_toNat_le.mp hmask.le
      rw [toNat_pred hmask.1]
      exact Nat.sub_one_lt_of_le (UInt32.lt_iff_toNat_lt.mp hpos) hle
    rw [if_pos (testBit_mask_iff.mpr hmask), testBit_one_shiftLeft hlt, decide_eq_true_eq,
      toNat_pred hmask.1, and_iff_right hmask]
  · rw [if_neg (mt testBit_mask_iff.mp hmask)]
    exact iff_of_false (by simp) fun h => hmask h.1

theorem setDtcBit_set (dtc_map dtc : UInt32) :
    (if controlsDtc dtc then setDtcBit dtc_map dtc 1 else dtc_map) = dtc_map ||| maskedBit dtc := by
  apply UInt32.toNat_inj.mp
  apply Nat.eq_of_testBit_eq
  intro b
  rw [UInt32.toNat_or, Nat.testBit_or, Bool.eq_iff_iff, Bool.or_eq_true, testBit_maskedBit]
  by_cases hmask : InMask dtc
  · rw [if_pos hmask.controls, testBit_setDtcBit dtc_map hmask.1 hmask.le, and_iff_right hmask]
    split
    · rename_i hb
      exact iff_of_true rfl (.inr hb)
    · rename_i hb
      rw [or_iff_left hb]
  · rw [if_neg (mt controlsDtc_iff.mp hmask), or_iff_left fun h => hmask h.1]

theorem setDtcBit_clean (dtc_map dtc : UInt32) :
    (if controlsDtc dtc then setDtcBit dtc_map dtc 0 else dtc_map) =
      dtc_map &&& ~~~maskedBit dtc := by
  apply UInt32.toNat_inj.mp
  apply Nat.eq_of_testBit_eq
  intro b
  rw [testBit_and_not, Bool.eq_iff_iff, Bool.and_eq_true, Bool.not_eq_true', ← Bool.not_eq_true,
    testBit_maskedBit]
  by_cases hmask : InMask dtc
  · rw [if_pos hmask.controls, testBit_setDtcBit dtc_map hmask.1 hmask.le, and_iff_right hmask]
    split
    · rename_i hb
      exact iff_of_false (by decide) fun h => h.2 hb
    · rename_i hb
      rw [and_iff_left hb]
  · rw [if_neg (mt controlsDtc_iff.mp hmask), and_iff_left fun h => hmask h.1]

/-- The bit of the fault `set_dtc` is set and that of `clean_dtc` is clear, where the mask has them,
and every other bit is as it was. -/
structure Edited (set_dtc clean_dtc before after : UInt32) : Prop where
  set : InMask set_dtc → after.toNat.testBit (set_dtc.toNat - 1) = true
  clean : InMask clean_dtc → after.toNat.testBit (clean_dtc.toNat - 1) = false
  kept : ∀ b, (InMask set_dtc → b ≠ set_dtc.toNat - 1) →
    (InMask clean_dtc → b ≠ clean_dtc.toNat - 1) →
    after.toNat.testBit b = before.toNat.testBit b

theorem testBit_editedMap (set_dtc clean_dtc dtc_map : UInt32) (b : Nat) :
    (editedMap set_dtc clean_dtc dtc_map).toNat.testBit b = true ↔
      (dtc_map.toNat.testBit b = true ∨ InMask set_dtc ∧ b = set_dtc.toNat - 1) ∧
        ¬ (InMask clean_dtc ∧ b = clean_dtc.toNat - 1) := by
  rw [editedMap, testBit_and_not, Bool.and_eq_true, Bool.not_eq_true', ← Bool.not_eq_true,
    testBit_maskedBit, UInt32.toNat_or, Nat.testBit_or, Bool.or_eq_true, testBit_maskedBit]

theorem edited_editedMap (hne : set_dtc ≠ clean_dtc) (dtc_map : UInt32) :
    Edited set_dtc clean_dtc dtc_map (editedMap set_dtc clean_dtc dtc_map) := by
  refine ⟨fun hset => ?_, fun hclean => ?_, fun b hset hclean => ?_⟩
  · refine (testBit_editedMap _ _ _ _).mpr ⟨.inr ⟨hset, rfl⟩, fun ⟨hclean, hbit⟩ => hne ?_⟩
    exact InMask.inj hset hclean hbit
  · apply Bool.eq_false_iff.mpr
    intro hbit
    exact ((testBit_editedMap _ _ _ _).mp hbit).2 ⟨hclean, rfl⟩
  · rw [Bool.eq_iff_iff, testBit_editedMap, or_iff_left fun h => hset h.1 h.2,
      and_iff_left fun h => hclean h.1 h.2]

/-! ### The run -/

theorem runs_readMpuDtc {v : UInt32} {t : List RegI.Event} {a : Int × UInt32}
    (run : Runs (RVMcu.readMpuDtc v) t a) :
    (∃ code : Fail, t = [⟨.readReg dtcAddr 4 200, .error code⟩] ∧ a.1 < 0) ∨
      ∃ bytes, t = [⟨.readReg dtcAddr 4 200, .ok bytes⟩] ∧ a = (0, word32 bytes.val) := by
  simp only [RVMcu.readMpuDtc, RVMcu.readReg, req_eq, ask_bind, done_bind, runs_ask] at run
  obtain ⟨r, t', rfl, rest⟩ := run
  cases r with
  | error code =>
      obtain ⟨rfl, rfl⟩ := runs_done.mp rest
      exact .inl ⟨code, rfl, code.property⟩
  | ok bytes =>
      obtain ⟨rfl, rfl⟩ := runs_done.mp rest
      refine .inr ⟨bytes, rfl, ?_⟩
      rw [storeAt_bytes32 bytes.property]

theorem runs_writeMpuDtc {t : List RegI.Event} {ret : Int}
    (run : Runs (RVMcu.writeMpuDtc dtc_map) t ret) :
    ∃ r, t = [⟨.writeReg dtcAddr (bytes32 dtc_map) 200, r⟩] := by
  simp only [RVMcu.writeMpuDtc, RVMcu.writeReg, req_eq, ask_bind, done_bind, runs_ask] at run
  obtain ⟨r, t', rfl, rest⟩ := run
  cases r with
  | error code =>
      obtain ⟨rfl, -⟩ := runs_done.mp rest
      exact ⟨_, rfl⟩
  | ok _ =>
      obtain ⟨rfl, -⟩ := runs_done.mp rest
      exact ⟨_, rfl⟩

theorem asks_wdogFeed (last_cnt : UInt8) :
    (RVMcu.wdogFeed last_cnt).Asks fun o => ∀ r, access ⟨o, r⟩ = none := by
  rw [RVMcu.wdogFeed]
  apply Asks.bind
  · split
    · exact (RVMcu.asks_readReg fun _ => rfl).bind fun _ => trivial
    · trivial
  · intro cnt
    exact (RVMcu.asks_writeReg fun _ => rfl).bind fun _ => trivial

/-- The map was read as `before`, and `after` was written back, once. -/
def WroteBack (t : List RegI.Event) (before after : UInt32) : Prop :=
  ∃ bytes feed r, before = word32 bytes.val ∧ (∀ e ∈ feed, access e = none) ∧
    t = ⟨.readReg dtcAddr 4 200, .ok bytes⟩ ::
      (feed ++ [⟨.writeReg dtcAddr (bytes32 after) 200, r⟩])

theorem runs_funSetOrCleanMpuDtc {config : RunConfig} {last_cnt : UInt8} {t : List RegI.Event}
    {out : Int × UInt8} (hne : config.set_dtc ≠ config.clean_dtc)
    (run : Runs (funSetOrCleanMpuDtc config last_cnt) t out) :
    (∃ code : Fail, t = [⟨.readReg dtcAddr 4 200, .error code⟩] ∧ out = (-1, last_cnt)) ∨
      ∃ before, WroteBack t before (editedMap config.set_dtc config.clean_dtc before) := by
  rw [funSetOrCleanMpuDtc, if_neg hne] at run
  obtain ⟨⟨ret, dtc_map⟩, t₁, t₂, rfl, hread, rest⟩ := runs_bind.mp run
  rcases runs_readMpuDtc hread with ⟨code, rfl, hneg⟩ | ⟨bytes, rfl, ha⟩
  · dsimp only at rest
    rw [if_pos hneg] at rest
    obtain ⟨rfl, rfl⟩ := runs_pure.mp rest
    exact .inl ⟨code, rfl, rfl⟩
  · obtain ⟨rfl, rfl⟩ := Prod.mk.inj ha
    dsimp only at rest
    rw [if_neg (lt_irrefl 0), setDtcBit_set, setDtcBit_clean] at rest
    obtain ⟨a, feed, t₃, rfl, hfeed, hlast⟩ := runs_bind.mp rest
    obtain ⟨ret, t₄, t₅, rfl, hwrite, hend⟩ := runs_bind.mp hlast
    obtain ⟨answer, rfl⟩ := runs_writeMpuDtc hwrite
    have hnil : t₅ = [] := by
      split at hend
      · exact (runs_pure.mp hend).1
      · exact (runs_pure.mp hend).1
    subst hnil
    exact .inr ⟨_, bytes, feed, answer, rfl,
      fun e he => (asks_wdogFeed last_cnt).forall_mem hfeed e he e.2, rfl⟩

/-! ### The store of bits -/

/-- What `Get_Bit` and `Set_Bit` make of every byte array: a bit that is set reads as its value, and
every other bit and every other byte is as it was. So the word that `fun_set_or_clean_mpu_dtc` writes
back is the one it has read with the one bit set and the other cleared, where the mask has them. -/
theorem bit_store_lawful :
    (∀ (start : List UInt8) (i : Nat) (v : Int), i < 8 * start.length →
      (∀ j < 8 * start.length, getBit (setBit start i v) j =
        if j = i then if v ≠ 0 then 1 else 0 else getBit start j) ∧
      ∀ k ≠ i / 8, (setBit start i v)[k]? = start[k]?) ∧
    ∀ (config : RunConfig) (last_cnt : UInt8) (t : List RegI.Event) (out : Int × UInt8),
      config.set_dtc ≠ config.clean_dtc → Runs (funSetOrCleanMpuDtc config last_cnt) t out →
      (∃ code : Fail, t = [⟨.readReg dtcAddr 4 200, .error code⟩] ∧ out = (-1, last_cnt)) ∨
        ∃ before after, WroteBack t before after ∧
          after = editedMap config.set_dtc config.clean_dtc before ∧
          Edited config.set_dtc config.clean_dtc before after := by
  constructor
  · intro start i v hi
    exact ⟨fun j _ => getBit_setBit hi v j, fun k hk => setBit_getElem?_of_ne start hk v⟩
  · intro config last_cnt t out hne run
    rcases runs_funSetOrCleanMpuDtc hne run with hfail | ⟨before, hwrote⟩
    · exact .inl hfail
    · exact .inr ⟨before, _, hwrote, rfl, edited_editedMap hne before⟩

/-- The fault 1 takes the place of the fault 2. -/
def swapTrace : List RegI.Event := [
  ⟨.readReg dtcAddr 4 200, .ok ⟨[2, 0, 0, 0], rfl⟩⟩,
  ⟨.writeReg (RWREG_MPU_BUSINESS_REG_START + MPU_ONLINE_CNT) [7] 200, .ok ()⟩,
  ⟨.writeReg dtcAddr [1, 0, 0, 0] 200, .ok ()⟩]

theorem runs_swapTrace :
    Runs (funSetOrCleanMpuDtc { set_dtc := 1, clean_dtc := 2 } 7) swapTrace (0, 8) :=
  .ask (.ask (.ask (.refl _)))

theorem bit_store_lawful_swap :
    getBit (setBit [0x0f, 0x00] 9 1) 9 = 1 ∧
      ∃ before after, WroteBack swapTrace before after ∧ Edited 1 2 before after := by
  obtain ⟨hstore, hedit⟩ := bit_store_lawful
  refine ⟨(hstore [0x0f, 0x00] 9 1 (by decide)).1 9 (by decide), ?_⟩
  rcases hedit _ _ _ _ (by decide) runs_swapTrace with hfail | hwrote
  · obtain ⟨code, htrace, -⟩ := hfail
    cases htrace
  · obtain ⟨before, after, hwrote, -, hedited⟩ := hwrote
    exact ⟨before, after, hwrote, hedited⟩

end McuRegWr
