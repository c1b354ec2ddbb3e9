import McuRegWr.Proof.Ring.Serve

/-!
# What a ring operation counts

Requests are 32-bit numbers and lengths on the wire are 16-bit ones. An operation compares the level
with the request modulo `2^16`, and the operations on grains cut their product to 16 bits after the
comparison, so the count that is returned and the bytes that are moved agree up to these widths only.
-/

namespace McuRegWr

open Base Prog RegWrCb

/-- The size registers of the ring at `cb_addr` show `level` and every access succeeds. The state is
the number of bytes that were moved or skipped. -/
inductive showing (cb_addr : UInt16) (level : Nat) : World RegI Nat
  | size (moved : Nat) {addr : UInt16} (timeout : UInt32) (bytes : _)
      (haddr : addr = cb_addr + CBREG_CMD_GET_SIZE ∨ addr = cb_addr + CBREG_CMD_GET_FREESIZE)
      (hlevel : bytes.val = leBytes 4 level) :
      showing cb_addr level moved (.readReg addr 4 timeout) (.ok bytes) moved
  | read (moved : Nat) {addr : UInt16} (cnt : UInt16) (timeout : UInt32) (bytes : _)
      (haddr : addr = cb_addr + CBREG_CMD_READ ∨ addr = cb_addr + CBREG_CMD_PEEP) :
      showing cb_addr level moved (.readReg addr cnt timeout) (.ok bytes) (moved + cnt.toNat)
  | write (moved : Nat) (data : List UInt8) (timeout : UInt32) :
      showing cb_addr level moved (.writeReg (cb_addr + CBREG_CMD_WRITE) data timeout) (.ok ())
        (moved + data.length)
  | readAir (moved : Nat) (data : List UInt8) (timeout : UInt32) :
      showing cb_addr level moved (.writeReg (cb_addr + CBREG_CMD_READAIR) data timeout) (.ok ())
        (moved + ofLeBytes data)

/-- The operations of a ring that move or skip bytes. -/
inductive RingCall where
  | read (buf : List UInt8)
  | peep (buf : List UInt8)
  | readAir
  | write (data : List UInt8)
  | granRead (data : List UInt8) (gran_size : UInt32)
  | granWrite (data : List UInt8) (gran_size : UInt32)

namespace RingCall

/-- The call for a request of `n` bytes or grains. -/
def code (cb_addr : UInt16) (n timeout : UInt32) : RingCall → Prog RegI Int
  | .read buf => do
      let (ret, _) ← RegWrCb.read regWrCbHandle cb_addr buf n timeout
      return ret
  | .peep buf => do
      let (ret, _) ← RegWrCb.peep regWrCbHandle cb_addr buf n timeout
      return ret
  | .readAir => RegWrCb.readAir regWrCbHandle cb_addr n timeout
  | .write data => RegWrCb.write regWrCbHandle cb_addr data n timeout
  | .granRead data gran_size => do
      let (ret, _) ← RegWrCb.granRead regWrCbHandle cb_addr data gran_size n timeout
      return ret
  | .granWrite data gran_size => RegWrCb.granWrite regWrCbHandle cb_addr data gran_size n timeout

/-- The bytes of one unit of the request. -/
def grain : RingCall → Nat
  | .read _ => 1
  | .peep _ => 1
  | .readAir => 1
  | .write _ => 1
  | .granRead _ gran_size => gran_size.toNat
  | .granWrite _ gran_size => gran_size.toNat

/-- A grain is not empty, and a writer has all it asks to write in its buffer. -/
def Fair (n : UInt32) : RingCall → Prop
  | .write data => n.toNat ≤ data.length
  | .granRead _ gran_size => 0 < gran_size.toNat
  | .granWrite data gran_size => 0 < gran_size.toNat ∧ gran_size.toNat * n.toNat ≤ data.length
  | _ => True

/-- The lesser of the request and the units at hand. -/
def due (c : RingCall) (n level : Nat) : Nat := min n (level / c.grain)

/-- The request and the bytes it stands for are within the widths of the code. -/
def InWidth (c : RingCall) (n level : Nat) : Prop :=
  (n < 65536 ∨ level / c.grain ≤ n % 65536) ∧ c.grain * c.due n level < 65536

/-- What is wanted of a call: it returns what is due, and moved exactly that. -/
def Exact (c : RingCall) (n level : Nat) (ret : Int) (moved : Nat) : Prop :=
  ret = c.due n level ∧ moved = c.grain * c.due n level

end RingCall

namespace Counts

variable {cb_addr : UInt16} {level : Nat} {timeout : UInt32} {α : Type} {P : α → Prop}
  {s moved : Nat}

/-- Every run of `p` from `s` ends in `moved` with a result that meets `P`, and there is one. -/
def Ends (cb_addr : UInt16) (level : Nat) (P : α → Prop) (moved : Nat) (p : Prog RegI α) (s : Nat) :
    Prop :=
  p.wlp (showing cb_addr level) (fun _ _ => True) (fun a t => P a ∧ t = moved) s ∧
    ∃ a, Exec (showing cb_addr level) p s a moved

theorem Ends.done {a : α} (h : P a) (hs : s = moved) : Ends cb_addr level P moved (.done a) s := by
  subst hs
  exact ⟨⟨h, rfl⟩, a, .refl _ _⟩

theorem Ends.count {p : Prog RegI (Int × List UInt8)} {ret : Int}
    (h : Ends cb_addr level (fun r => r.1 = ret) moved p s) :
    Ends cb_addr level (· = ret) moved (do let (count, _) ← p; return count) s := by
  obtain ⟨hall, a, hrun⟩ := h
  refine ⟨?_, a.1, exec_bind.mpr ⟨a, moved, hrun, .refl _ _⟩⟩
  simp only [wlp_bind]
  exact wlp_conseq hall fun a t ht => ht

theorem Ends.query {cmd : UInt16} (hcmd : cmd = CBREG_CMD_GET_SIZE ∨ cmd = CBREG_CMD_GET_FREESIZE)
    (hlevel : level < 2 ^ 31)
    {next : RegOp.Ans (.readReg (cb_addr + cmd) 4 timeout) → Prog RegI α}
    (h : ∀ size, int32 size.val = level → Ends cb_addr level P moved (next (.ok size)) s) :
    Ends cb_addr level P moved (@Prog.ask RegI α (.readReg (cb_addr + cmd) 4 timeout) next) s := by
  have haddr : cb_addr + cmd = cb_addr + CBREG_CMD_GET_SIZE ∨
      cb_addr + cmd = cb_addr + CBREG_CMD_GET_FREESIZE :=
    hcmd.imp (congrArg _) (congrArg _)
  constructor
  · refine ⟨trivial, fun r s' answer => ?_⟩
    generalize hreg : cb_addr + cmd = addr at answer
    cases answer with
    | size _ _ size _ hval => exact (h size (by rw [hval, int32_leBytes hlevel])).1
    | read _ _ _ bytes hother =>
        rw [← hreg] at hother
        rcases hcmd with rfl | rfl
        · exact (hother.elim (Ring.reg_ne (by decide)) (Ring.reg_ne (by decide))).elim
        · exact (hother.elim (Ring.reg_ne (by decide)) (Ring.reg_ne (by decide))).elim
  · let size : {bytes : List UInt8 // bytes.length = (4 : UInt16).toNat} :=
      ⟨leBytes 4 level, length_leBytes _ _⟩
    obtain ⟨a, hrun⟩ := (h size (int32_leBytes hlevel)).2
    exact ⟨a, .ask (.size s timeout size haddr rfl) hrun⟩

theorem Ends.read {cmd cnt : UInt16} (hcmd : cmd = CBREG_CMD_READ ∨ cmd = CBREG_CMD_PEEP)
    {next : RegOp.Ans (.readReg (cb_addr + cmd) cnt timeout) → Prog RegI α}
    (h : ∀ bytes, Ends cb_addr level P moved (next (.ok bytes)) (s + cnt.toNat)) :
    Ends cb_addr level P moved (@Prog.ask RegI α (.readReg (cb_addr + cmd) cnt timeout) next)
      s := by
  have haddr : cb_addr + cmd = cb_addr + CBREG_CMD_READ ∨
      cb_addr + cmd = cb_addr + CBREG_CMD_PEEP :=
    hcmd.imp (congrArg _) (congrArg _)
  constructor
  · refine ⟨trivial, fun r s' answer => ?_⟩
    generalize hreg : cb_addr + cmd = addr at answer
    cases answer with
    | read _ _ _ bytes _ => exact (h bytes).1
    | size _ _ _ hother _ =>
        rw [← hreg] at hother
        rcases hcmd with rfl | rfl
        · exact (hother.elim (Ring.reg_ne (by decide)) (Ring.reg_ne (by decide))).elim
        · exact (hother.elim (Ring.reg_ne (by decide)) (Ring.reg_ne (by decide))).elim
  · obtain ⟨a, hrun⟩ := (h ⟨List.replicate cnt.toNat 0, List.length_replicate⟩).2
    exact ⟨a, .ask (.read s cnt timeout _ haddr) hrun⟩

theorem Ends.write {data : List UInt8}
    {next : RegOp.Ans (.writeReg (cb_addr + CBREG_CMD_WRITE) data timeout) → Prog RegI α}
    (h : Ends cb_addr level P moved (next (.ok ())) (s + data.length)) :
    Ends cb_addr level P moved
      (@Prog.ask RegI α (.writeReg (cb_addr + CBREG_CMD_WRITE) data timeout) next) s := by
  constructor
  · refine ⟨trivial, fun r s' answer => ?_⟩
    generalize hreg : cb_addr + CBREG_CMD_WRITE = addr at answer
    cases answer with
    | write => exact h.1
    | readAir => exact absurd hreg (Ring.reg_ne (by decide))
  · obtain ⟨a, hrun⟩ := h.2
    exact ⟨a, .ask (.write s data timeout) hrun⟩

theorem Ends.readAir {data : List UInt8}
    {next : RegOp.Ans (.writeReg (cb_addr + CBREG_CMD_READAIR) data timeout) → Prog RegI α}
    (h : Ends cb_addr level P moved (next (.ok ())) (s + ofLeBytes data)) :
    Ends cb_addr level P moved
      (@Prog.ask RegI α (.writeReg (cb_addr + CBREG_CMD_READAIR) data timeout) next) s := by
  constructor
  · refine ⟨trivial, fun r s' answer => ?_⟩
    generalize hreg : cb_addr + CBREG_CMD_READAIR = addr at answer
    cases answer with
    | readAir => exact h.1
    | write => exact absurd hreg (Ring.reg_ne (by decide))
  · obtain ⟨a, hrun⟩ := h.2
    exact ⟨a, .ask (.readAir s data timeout) hrun⟩

/-! ### What each operation does -/

/-- What is left of a request for `n` units where `units` are at hand: it is cut to 16 bits. -/
def cut (units n : Nat) : Nat := min units (n % 65536)

theorem cut_zero (n : Nat) : cut 0 n = 0 := Nat.zero_min _

theorem cut_le (units n : Nat) : cut units n ≤ n := (Nat.min_le_right _ _).trans (Nat.mod_le _ _)

variable {n : UInt32}

theorem ends_readBy {cmd : UInt16} (hcmd : cmd = CBREG_CMD_READ ∨ cmd = CBREG_CMD_PEEP)
    (hlevel : level < 2 ^ 31) (buf : List UInt8) :
    Ends cb_addr level (fun r => r.1 = (cut level n.toNat : Int))
      (cut level n.toNat) (readBy regWrCbHandle cb_addr cmd buf n timeout) 0 := by
  rw [readBy_eq]
  refine Ends.query (.inl rfl) hlevel fun size hsize => ?_
  dsimp only
  rw [hsize, if_neg (by omega)]
  by_cases hzero : (level : Int) = 0
  · rw [if_pos hzero, Int.natCast_eq_zero.mp hzero, cut_zero]
    exact .done rfl rfl
  rw [if_neg hzero]
  have hlen : (clamp n.toUInt16 level).toNat = cut level n.toNat := by
    rw [toNat_clamp, UInt32.toNat_toUInt16, cut]
  refine Ends.read hcmd fun bytes => ?_
  exact .done (congrArg Nat.cast hlen) (by rw [hlen, Nat.zero_add])

theorem ends_readAir (hlevel : level < 2 ^ 31) :
    Ends cb_addr level (· = (cut level n.toNat : Int)) (cut level n.toNat)
      (RegWrCb.readAir regWrCbHandle cb_addr n timeout) 0 := by
  rw [readAir_eq]
  refine Ends.query (.inl rfl) hlevel fun size hsize => ?_
  dsimp only
  rw [hsize, if_neg (by omega)]
  by_cases hzero : (level : Int) = 0
  · rw [if_pos hzero, Int.natCast_eq_zero.mp hzero, cut_zero]
    exact .done rfl rfl
  rw [if_neg hzero]
  have hlen : (airLength n level).toNat = cut level n.toNat :=
    toNat_airLength (by omega) n
  have hskip : ofLeBytes (bytes32 (airLength n level)) = cut level n.toNat := by
    rw [ofLeBytes_leBytes_of_lt (airLength n level).toNat_lt, hlen]
  refine Ends.readAir ?_
  exact .done (congrArg Nat.cast hlen) (by rw [hskip, Nat.zero_add])

theorem ends_write (hlevel : level < 2 ^ 31) {data : List UInt8} (hdata : n.toNat ≤ data.length) :
    Ends cb_addr level (· = (cut level n.toNat : Int)) (cut level n.toNat)
      (RegWrCb.write regWrCbHandle cb_addr data n timeout) 0 := by
  rw [write_eq]
  refine Ends.query (.inr rfl) hlevel fun size hsize => ?_
  dsimp only
  rw [hsize, if_neg (by omega)]
  by_cases hzero : (level : Int) = 0
  · rw [if_pos hzero, Int.natCast_eq_zero.mp hzero, cut_zero]
    exact .done rfl rfl
  rw [if_neg hzero]
  have hlen : (clamp n.toUInt16 level).toNat = cut level n.toNat := by
    rw [toNat_clamp, UInt32.toNat_toUInt16, cut]
  have hsent : (data.take (clamp n.toUInt16 level).toNat).length =
      cut level n.toNat := by
    rw [List.length_take, hlen]
    exact Nat.min_eq_left ((cut_le _ _).trans hdata)
  refine Ends.write ?_
  exact .done (congrArg Nat.cast hlen) (by rw [hsent, Nat.zero_add])

/-- The number of grains, and the bytes their product comes to in 16 bits. -/
theorem grains_moved (hlevel : level < 2 ^ 31) (gran_size : UInt32) :
    (grains level gran_size n.toUInt16).toNat =
        cut (level / gran_size.toNat) n.toNat ∧
      ((grains level gran_size n.toUInt16).toUInt32 * gran_size).toUInt16.toNat =
        gran_size.toNat * cut (level / gran_size.toNat) n.toNat % 65536 := by
  have hnum : (grains level gran_size n.toUInt16).toNat =
      cut (level / gran_size.toNat) n.toNat := by
    rw [toNat_grains (by omega), UInt32.toNat_toUInt16, cut]
  refine ⟨hnum, ?_⟩
  rw [UInt32.toNat_toUInt16, UInt32.toNat_mul, UInt16.toNat_toUInt32, hnum, Nat.mul_comm]
  exact Nat.mod_mod_of_dvd _ (by decide)

theorem grains_eq_zero (hlevel : level < 2 ^ 31) {gran_size : UInt32}
    (h : grains level gran_size n.toUInt16 = 0) :
    cut (level / gran_size.toNat) n.toNat = 0 := by
  rw [← (grains_moved hlevel gran_size).1, h]
  rfl

theorem ends_granRead (hlevel : level < 2 ^ 31) (data : List UInt8) (gran_size : UInt32) :
    Ends cb_addr level
      (fun r => r.1 = (cut (level / gran_size.toNat) n.toNat : Int))
      (gran_size.toNat * cut (level / gran_size.toNat) n.toNat % 65536)
      (RegWrCb.granRead regWrCbHandle cb_addr data gran_size n timeout) 0 := by
  rw [granRead_eq]
  refine Ends.query (.inl rfl) hlevel fun size hsize => ?_
  dsimp only
  rw [hsize, if_neg (by omega)]
  by_cases hzero : grains level gran_size n.toUInt16 = 0
  · rw [if_pos hzero, grains_eq_zero hlevel hzero, Nat.mul_zero, Nat.zero_mod]
    exact .done rfl rfl
  rw [if_neg hzero]
  obtain ⟨hnum, hlen⟩ := @grains_moved level n hlevel gran_size
  refine Ends.read (.inl rfl) fun bytes => ?_
  exact .done (congrArg Nat.cast hnum) (by rw [hlen, Nat.zero_add])

theorem ends_granWrite (hlevel : level < 2 ^ 31) {data : List UInt8} {gran_size : UInt32}
    (hdata : gran_size.toNat * n.toNat ≤ data.length) :
    Ends cb_addr level (· = (cut (level / gran_size.toNat) n.toNat : Int))
      (gran_size.toNat * cut (level / gran_size.toNat) n.toNat % 65536)
      (RegWrCb.granWrite regWrCbHandle cb_addr data gran_size n timeout) 0 := by
  rw [granWrite_eq]
  refine Ends.query (.inr rfl) hlevel fun size hsize => ?_
  dsimp only
  rw [hsize, if_neg (by omega)]
  by_cases hzero : grains level gran_size n.toUInt16 = 0
  · rw [if_pos hzero, grains_eq_zero hlevel hzero, Nat.mul_zero, Nat.zero_mod]
    exact .done rfl rfl
  rw [if_neg hzero]
  obtain ⟨hnum, hlen⟩ := @grains_moved level n hlevel gran_size
  have hsent : (data.take ((grains level gran_size n.toUInt16).toUInt32 *
      gran_size).toUInt16.toNat).length =
      gran_size.toNat * cut (level / gran_size.toNat) n.toNat % 65536 := by
    rw [List.length_take, hlen, Nat.min_eq_left]
    calc gran_size.toNat * cut (level / gran_size.toNat) n.toNat % 65536
        ≤ gran_size.toNat * cut (level / gran_size.toNat) n.toNat := Nat.mod_le _ _
      _ ≤ gran_size.toNat * n.toNat := by
          gcongr
          exact cut_le _ _
      _ ≤ data.length := hdata
  refine Ends.write ?_
  exact .done (congrArg Nat.cast hnum) (by rw [hsent, Nat.zero_add])

end Counts

namespace RingCall

open Counts

variable {cb_addr : UInt16} {level : Nat} {n timeout : UInt32}

/-- The count of a call: the request is cut to 16 bits. -/
def counted (c : RingCall) (n level : Nat) : Nat := cut (level / c.grain) n

theorem ends_code (c : RingCall) (hlevel : level < 2 ^ 31) (hfair : c.Fair n) :
    Ends cb_addr level (· = (c.counted n.toNat level : Int))
      (c.grain * c.counted n.toNat level % 65536) (c.code cb_addr n timeout) 0 := by
  have hone : 1 * cut level n.toNat % 65536 = cut level n.toNat := by
    rw [Nat.one_mul, cut]
    omega
  cases c with
  | read buf =>
      rw [counted, grain, Nat.div_one, hone]
      exact (ends_readBy (.inl rfl) hlevel buf).count
  | peep buf =>
      rw [counted, grain, Nat.div_one, hone]
      exact (ends_readBy (.inr rfl) hlevel buf).count
  | readAir =>
      rw [counted, grain, Nat.div_one, hone]
      exact ends_readAir hlevel
  | write data =>
      rw [counted, grain, Nat.div_one, hone]
      exact ends_write hlevel hfair
  | granRead data gran_size => exact (ends_granRead hlevel data gran_size).count
  | granWrite data gran_size => exact ends_granWrite hlevel hfair.2

/-- The count and the bytes are what is due when neither the request nor the product is cut. -/
theorem exact_counted_iff (c : RingCall) (n level : Nat) :
    c.Exact n level (c.counted n level) (c.grain * c.counted n level % 65536) ↔
      c.InWidth n level := by
  have hcount : c.counted n level = c.due n level ↔ n < 65536 ∨ level / c.grain ≤ n % 65536 := by
    rw [counted, due, cut]
    omega
  constructor
  · rintro ⟨hret, hmoved⟩
    have hdue := Int.natCast_inj.mp hret
    refine ⟨hcount.mp hdue, ?_⟩
    rw [← hmoved]
    exact Nat.mod_lt _ (by decide)
  · rintro ⟨hreq, hprod⟩
    have hdue := hcount.mpr hreq
    refine ⟨congrArg Nat.cast hdue, ?_⟩
    rw [hdue, Nat.mod_eq_of_lt hprod]

/-- An operation of a ring that shows `level` returns, and returns what is due after moving exactly
that, if and only if the request and the bytes it stands for are within 16 bits. -/
theorem exact_iff_inWidth (c : RingCall) (cb_addr : UInt16) (n timeout : UInt32) {level : Nat}
    (hlevel : level < 2 ^ 31) (hfair : c.Fair n) :
    (∃ ret moved, Exec (showing cb_addr level) (c.code cb_addr n timeout) 0 ret moved) ∧
      ∀ ret moved, Exec (showing cb_addr level) (c.code cb_addr n timeout) 0 ret moved →
        (c.Exact n.toNat level ret moved ↔ c.InWidth n.toNat level) := by
  obtain ⟨hall, ret, hrun⟩ := @ends_code cb_addr level n timeout c hlevel hfair
  refine ⟨⟨ret, _, hrun⟩, fun ret' moved' hrun' => ?_⟩
  obtain ⟨rfl, rfl⟩ := wlp_exec hall hrun'
  exact c.exact_counted_iff n.toNat level

/-- A hundred bytes are skipped in a ring that holds forty. -/
theorem exact_iff_inWidth_forty :
    ∃ ret moved,
      Exec (showing RWREG_CB_MPU_BUSINESS_RECEIVE_CAN_START 40)
        (code RWREG_CB_MPU_BUSINESS_RECEIVE_CAN_START 100 200 .readAir) 0 ret moved ∧
      Exact .readAir 100 40 ret moved := by
  obtain ⟨⟨ret, moved, hrun⟩, hiff⟩ :=
    exact_iff_inWidth .readAir RWREG_CB_MPU_BUSINESS_RECEIVE_CAN_START 100 200
      (show 40 < 2 ^ 31 by decide) trivial
  exact ⟨ret, moved, hrun, (hiff ret moved hrun).mpr ⟨.inl (by decide), by decide⟩⟩

/-- Of a ring that holds 65536 bytes, 4096 messages of 16 bytes are counted as read and none of
their bytes is moved. -/
theorem granRead_counts_unmoved :
    ¬ ∀ (c : RingCall) (cb_addr : UInt16) (n timeout : UInt32) (level : Nat),
      level < 2 ^ 31 → c.Fair n → ∀ ret moved,
        Exec (showing cb_addr level) (c.code cb_addr n timeout) 0 ret moved →
          c.Exact n.toNat level ret moved := by
  intro h
  have hfair : Fair 4096 (.granRead [] 16) := show 0 < (16 : UInt32).toNat by decide
  obtain ⟨-, ret, hrun⟩ := @ends_code RWREG_CB_MPU_BUSINESS_RECEIVE_CAN_START 65536 4096 200
    (.granRead [] 16) (by decide) hfair
  have hexact := h _ _ 4096 _ 65536 (by decide) hfair _ _ hrun
  exact absurd hexact.2 (by decide)

end RingCall

end McuRegWr
