import McuRegWr.Proof.Command.Access

/-!
# The register that is asked for

An address on the command line is a 64-bit number of which the access uses the low 16 bits, and a
count is cut to 16 bits before it is checked. What is cut off makes another register, or another
count, of the one that was asked for.
-/

namespace McuRegWr

open Base Prog

/-- A read, whether it is a test or not, or a test of writing; and no other option. -/
inductive CountConfig : MainConfig → Prop where
  | read (test_cnt : UInt32) :
      CountConfig { MainConfig.start with is_read := true, test_cnt := test_cnt }
  | writeTest {test_cnt : UInt32} (htest : test_cnt ≠ 0) :
      CountConfig { MainConfig.start with is_write := true, test_cnt := test_cnt }

/-- The operation reads, or writes, `n` registers from the address `a` on. -/
def Accesses (write : Bool) (a n : Nat) : RegOp → Prop
  | .readReg reg_addr reg_cnt _ => write = false ∧ reg_addr.toNat = a ∧ reg_cnt.toNat = n
  | .writeReg reg_addr reg_data _ => write = true ∧ reg_addr.toNat = a ∧ reg_data.length = n
  | _ => False

/-- The address and the count are in their ranges, and they are what is accessed, at least once and
nothing else. -/
structure AsAsked (rand : UInt32 → Nat → UInt8) (config parsed : MainConfig) (a : UInt64)
    (n : Int) : Prop where
  mode : parsed.mode = .FUN_RW
  addr_le : a.toNat ≤ 0xffff
  count_pos : 1 ≤ n
  count_le : n ≤ (WR_BUF_MAX - 2 : Nat)
  accesses : (funWr rand parsed).Asks (Accesses config.is_write a.toNat n.toNat)
  issued : ∃ o next, funWr rand parsed = .ask o next

/-! ### What is accepted -/

theorem toNat_ofInt_mod (n : Int) : ((UInt16.ofInt n).toNat : Int) = n % 65536 := by
  have hmod : ((n % 2 ^ 16).toNat : Int) = n % 2 ^ 16 := Int.toNat_of_nonneg (by omega)
  have hlt : (n % 2 ^ 16).toNat < 2 ^ 16 := by omega
  rw [UInt16.ofInt, UInt16.toNat_ofNat', Nat.mod_eq_of_lt hlt, hmod]
  rfl

theorem toNat_narrowed (a : UInt64) : a.toUInt32.toUInt16.toNat = a.toNat % 65536 := by
  rw [UInt32.toNat_toUInt16, UInt64.toNat_toUInt32]
  omega

/-- The configuration a command line with a count leaves, if it is accepted. -/
def counted (config : MainConfig) (a : UInt64) (n : Int) : MainConfig :=
  ((config.setRegAddr a.toUInt32).setRegCnt (UInt16.ofInt n)).setMode .FUN_RW

variable {rand : UInt32 → Nat → UInt8} {config : MainConfig} {addr data : CStr} {a : UInt64}
  {n : Int}

theorem otherArgparseParse_counted (hconfig : CountConfig config)
    (ha : CStr.strtoul addr.val 0 = (a, true)) (hn : CStr.strtol data.val 0 = (n, true)) :
    otherArgparseParse config [addr, data] =
      if 1 ≤ n % 65536 ∧ n % 65536 ≤ (WR_BUF_MAX - 2 : Nat) then .ok (counted config a n)
      else .error (.regCnt (UInt16.ofInt n)) := by
  have haccess : config.parseAccess [addr, data] =
      (config.setRegAddr a.toUInt32).parseCount data := by
    cases hconfig with
    | read test_cnt =>
        simp only [MainConfig.parseAccess, ha]
        simp
    | writeTest htest =>
        simp only [MainConfig.parseAccess, ha]
        simp [htest]
  have hboth : ¬ (config.is_write ∧ config.is_read) := by
    cases hconfig <;> simp [MainConfig.start]
  have hcnt := toNat_ofInt_mod n
  rw [otherArgparseParse, if_neg hboth, haccess, MainConfig.parseCount, hn]
  by_cases hok : 1 ≤ n % 65536 ∧ n % 65536 ≤ (WR_BUF_MAX - 2 : Nat)
  · have hchecked : ¬ (true = false ∨ (UInt16.ofInt n).toNat > WR_BUF_MAX - 2 ∨
        UInt16.ofInt n = 0) := by
      rintro (hmoved | hmany | hnone)
      · cases hmoved
      · omega
      · rw [hnone] at hcnt
        have hzero : (0 : Int) = n % 65536 := hcnt
        omega
    dsimp only
    rw [if_neg hchecked, if_pos hok]
    cases hconfig <;> rfl
  · have hrefused : true = false ∨ (UInt16.ofInt n).toNat > WR_BUF_MAX - 2 ∨
        UInt16.ofInt n = 0 := by
      by_cases hmany : (UInt16.ofInt n).toNat > WR_BUF_MAX - 2
      · exact .inr (.inl hmany)
      · refine .inr (.inr (UInt16.toNat_inj.mp ?_))
        show (UInt16.ofInt n).toNat = 0
        omega
    dsimp only
    rw [if_pos hrefused, if_neg hok]
    rfl

/-! ### What is accessed -/

theorem asks_funWr_block (hcnt : config.reg_cnt.toNat ≤ WR_BUF_MAX) :
    (funWr rand config).Asks (Accesses config.is_write config.reg_addr.toUInt16.toNat
      config.reg_cnt.toNat) := by
  apply asks_funWr
  · intro hread
    exact ⟨hread, rfl, rfl⟩
  · intro hwrite data hdata
    exact ⟨hwrite, rfl, hdata.length_eq hcnt⟩

/-- At least one access is made: a test that is asked for has a first round. -/
theorem funWr_issues (rand : UInt32 → Nat → UInt8) (config : MainConfig) :
    ∃ o next, funWr rand config = .ask o next := by
  rw [funWr]
  split
  · rename_i htest
    have hfirst : 0 < config.test_cnt := UInt32.pos_iff_ne_zero.mpr htest
    simp only [runTest, Prog.loop, runTestRound, if_pos hfirst]
    split
    · exact ⟨_, _, rfl⟩
    · exact ⟨_, _, rfl⟩
  split
  · exact ⟨_, _, rfl⟩
  · exact ⟨_, _, rfl⟩

theorem counted_asAsked (haddr : a.toNat ≤ 0xffff) (hpos : 1 ≤ n)
    (hle : n ≤ (WR_BUF_MAX - 2 : Nat)) : AsAsked rand config (counted config a n) a n := by
  have hcnt := toNat_ofInt_mod n
  rw [WR_BUF_MAX] at hle
  have hcount : (UInt16.ofInt n).toNat = n.toNat := by omega
  have haddress : a.toUInt32.toUInt16.toNat = a.toNat := by
    rw [toNat_narrowed]
    omega
  refine ⟨rfl, haddr, hpos, hle, ?_, funWr_issues rand _⟩
  have hblock := @asks_funWr_block rand (counted config a n) (by
    show (UInt16.ofInt n).toNat ≤ 1024
    omega)
  rwa [show (counted config a n).reg_addr.toUInt16.toNat = a.toNat from haddress,
    show (counted config a n).reg_cnt.toNat = n.toNat from hcount] at hblock

/-- Of the numbers that are accepted, those in their ranges are what is accessed. The others are the
counts whose low 16 bits are in range and the addresses with more than 16 bits. -/
theorem access_as_asked_iff {rand : UInt32 → Nat → UInt8} {config : MainConfig} {addr data : CStr}
    {a : UInt64} {n : Int} (hconfig : CountConfig config)
    (ha : CStr.strtoul addr.val 0 = (a, true)) (hn : CStr.strtol data.val 0 = (n, true)) :
    (∀ parsed, otherArgparseParse config [addr, data] = .ok parsed →
      AsAsked rand config parsed a n) ↔
      a.toNat ≤ 0xffff ∧ 1 ≤ n ∧ n ≤ (WR_BUF_MAX - 2 : Nat) ∨
        ¬ (1 ≤ n % 65536 ∧ n % 65536 ≤ (WR_BUF_MAX - 2 : Nat)) := by
  rw [otherArgparseParse_counted hconfig ha hn]
  constructor
  · intro h
    by_cases hok : 1 ≤ n % 65536 ∧ n % 65536 ≤ (WR_BUF_MAX - 2 : Nat)
    · obtain ⟨-, haddr, hpos, hle, -, -⟩ := h _ (if_pos hok)
      exact .inl ⟨haddr, hpos, hle⟩
    · exact .inr hok
  · rintro (⟨haddr, hpos, hle⟩ | hbad) parsed hparse
    · have hok : 1 ≤ n % 65536 ∧ n % 65536 ≤ (WR_BUF_MAX - 2 : Nat) := by
        rw [WR_BUF_MAX] at *
        omega
      rw [if_pos hok] at hparse
      cases hparse
      exact counted_asAsked haddr hpos hle
    · rw [if_neg hbad] at hparse
      cases hparse

/-- `-r 0x10000 1` reads the register 0. -/
theorem access_aliased :
    ¬ ∀ (rand : UInt32 → Nat → UInt8) (config : MainConfig) (addr data : CStr) (a : UInt64)
      (n : Int), CountConfig config → CStr.strtoul addr.val 0 = (a, true) →
      CStr.strtol data.val 0 = (n, true) →
      ∀ parsed, otherArgparseParse config [addr, data] = .ok parsed →
        AsAsked rand config parsed a n := by
  intro h
  have haddr := (h (fun _ _ => 0) _ ⟨[0x30, 0x78, 0x31, 0x30, 0x30, 0x30, 0x30], by decide⟩
    ⟨[0x31], by decide⟩ 0x10000 1 (.read 0) (by decide) (by decide) _ rfl).addr_le
  exact absurd haddr (by decide)

/-- `0x1011` -/
def onlineCntArg : CStr := ⟨[0x30, 0x78, 0x31, 0x30, 0x31, 0x31], by decide⟩

/-- `1` -/
def oneArg : CStr := ⟨[0x31], by decide⟩

/-- `-r 0x1011 1` reads that register. -/
theorem access_as_asked_iff_online_cnt :
    ∃ parsed, otherArgparseParse { MainConfig.start with is_read := true, test_cnt := 0 }
      [onlineCntArg, oneArg] = .ok parsed ∧
      AsAsked (fun _ _ => 0) { MainConfig.start with is_read := true, test_cnt := 0 } parsed 0x1011
        1 := by
  have haddr : CStr.strtoul onlineCntArg.val 0 = (0x1011, true) := by decide
  have hcnt : CStr.strtol oneArg.val 0 = (1, true) := by decide
  have hparse := otherArgparseParse_counted (.read 0) haddr hcnt
  rw [if_pos (by decide)] at hparse
  refine ⟨_, hparse, ?_⟩
  exact (access_as_asked_iff (.read 0) haddr hcnt).mpr (.inl (by decide)) _ hparse

end McuRegWr
