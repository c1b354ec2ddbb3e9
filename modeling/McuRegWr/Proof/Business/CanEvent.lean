import Mathlib.Algebra.Field.Rat
import Mathlib.Order.Bounds.Defs
import Mathlib.Tactic.Ring
import McuRegWr.CanEvent
import McuRegWr.Proof.Business.RegFile

/-!
# The CAN events shown

`fun_show_mcu_can_event` reads the validity bitmap, then the event registers up to the highest valid
event, and prints the valid ones. Zero is both the lowest event and the sign that none was found.
-/

namespace McuRegWr

open Base Prog CanEventType

/-! ### The highest valid event -/

variable {valid : List UInt8} {n : Nat}

theorem validMaxEvent_succ (valid : List UInt8) (n : Nat) :
    validMaxEvent valid (n + 1) = if bitAt valid n then n else validMaxEvent valid n := by
  have hbit : getBit valid n ≠ 0 ↔ bitAt valid n = true := by
    rw [getBit_eq]
    cases bitAt valid n <;> decide
  simp only [validMaxEvent, hbit]

theorem validMaxEvent_lt (hn : 0 < n) : validMaxEvent valid n < n := by
  induction n with
  | zero => exact absurd hn (Nat.lt_irrefl 0)
  | succ n ih =>
      rw [validMaxEvent_succ]
      split
      · exact Nat.lt_succ_self n
      · rcases Nat.eq_zero_or_pos n with rfl | hpos
        · exact Nat.zero_lt_one
        · exact Nat.lt_succ_of_lt (ih hpos)

theorem le_validMaxEvent {i : Nat} (hi : i < n) (hbit : bitAt valid i) :
    i ≤ validMaxEvent valid n := by
  induction n with
  | zero => exact absurd hi (Nat.not_lt_zero i)
  | succ n ih =>
      rw [validMaxEvent_succ]
      split
      · exact Nat.le_of_lt_succ hi
      case isFalse hclear =>
        have hne : i ≠ n := by
          rintro rfl
          exact hclear hbit
        exact ih (by omega)

theorem bitAt_validMaxEvent (h : validMaxEvent valid n ≠ 0) :
    bitAt valid (validMaxEvent valid n) := by
  induction n with
  | zero => exact absurd rfl h
  | succ n ih =>
      rw [validMaxEvent_succ] at h ⊢
      split
      case isTrue hbit => exact hbit
      case isFalse hclear =>
        rw [if_neg hclear] at h
        exact ih h

/-! ### The run -/

/-- The validity bitmap and the event registers of the MCU. -/
def mcuCanEvent (m : RegFile) : RoRegCanEvent :=
  ⟨m.load ROREG_CAN_EVENT_START 64, m.load (ROREG_CAN_EVENT_START + 64) CAN_EVENT_USE_CNT⟩

/-- The read of the bitmap. -/
abbrev validRead : RegOp := .readReg ROREG_CAN_EVENT_START 64 200

/-- The read of the first `cnt` events. -/
abbrev eventRead (cnt : Nat) : RegOp :=
  .readReg (ROREG_CAN_EVENT_START + 64) (UInt16.ofNat cnt) 200

/-- Every read succeeds and returns what the registers hold. -/
def AnsweredBy (m : RegFile) (t : List RegI.Event) : Prop := ∀ e ∈ t, RegFile.world m e.1 e.2 m

/-- `n` registers, as many bytes. -/
def block (m : RegFile) (addr : UInt16) (n : Nat) : {bytes : List UInt8 // bytes.length = n} :=
  ⟨m.load addr n, m.length_load addr n⟩

/-- A read and its answer. -/
def readEvent (m : RegFile) (addr cnt : UInt16) (timeout : UInt32) : RegI.Event :=
  ⟨.readReg addr cnt timeout, .ok (block m addr cnt.toNat)⟩

theorem answeredBy_cons {m : RegFile} {e : RegI.Event} {t : List RegI.Event} :
    AnsweredBy m (e :: t) ↔ RegFile.world m e.1 e.2 m ∧ AnsweredBy m t :=
  List.forall_mem_cons

theorem world_readReg {m : RegFile} {addr cnt : UInt16} {timeout : UInt32}
    {r : RegOp.Ans (.readReg addr cnt timeout)} :
    RegFile.world m (.readReg addr cnt timeout) r m ↔
      r = .ok (block m addr cnt.toNat) := by
  constructor
  · intro h
    exact (Prod.mk.inj (Option.some.inj h)).1.symm
  · rintro rfl
    rfl

theorem runs_readReg_bind {α : Type} {m : RegFile} {addr cnt : UInt16} {data : List UInt8}
    {timeout : UInt32} {f : Int × List UInt8 → Prog RegI α} {t : List RegI.Event} {a : α} :
    Runs (RVMcu.readReg addr data cnt timeout >>= f) t a ∧ AnsweredBy m t ↔
      ∃ t', t = readEvent m addr cnt timeout :: t' ∧
        Runs (f (0, storeAt data 0 (m.load addr cnt.toNat))) t' a ∧ AnsweredBy m t' := by
  simp only [RVMcu.readReg, req_eq, ask_bind, done_bind, runs_ask]
  constructor
  · rintro ⟨⟨r, t', rfl, run⟩, answered⟩
    obtain ⟨hr, hrest⟩ := answeredBy_cons.mp answered
    obtain rfl := world_readReg.mp hr
    exact ⟨t', rfl, run, hrest⟩
  · rintro ⟨t', rfl, run, answered⟩
    exact ⟨⟨_, t', rfl, run⟩, answeredBy_cons.mpr ⟨world_readReg.mpr rfl, answered⟩⟩

theorem runs_pure_answered {α : Type} {m : RegFile} {t : List RegI.Event} {a b : α} :
    Runs (pure a : Prog RegI α) t b ∧ AnsweredBy m t ↔ t = [] ∧ b = a := by
  rw [runs_pure]
  constructor
  · exact fun h => h.1
  · rintro ⟨rfl, rfl⟩
    exact ⟨⟨rfl, rfl⟩, List.forall_mem_nil _⟩

/-- The highest valid event of the MCU, or zero. -/
def maxEvent (m : RegFile) : Nat :=
  validMaxEvent (mcuCanEvent m).period_event_valid CAN_EVENT_USE_CNT

/-- The variable `can_event` when the lines are printed. -/
def fetchedCanEvent (m : RegFile) : RoRegCanEvent where
  period_event_valid := (mcuCanEvent m).period_event_valid
  event := storeAt RoRegCanEvent.zero.event 0
    (m.load (ROREG_CAN_EVENT_START + 64) (UInt16.ofNat (maxEvent m + 1)).toNat)

theorem runs_funShowMcuCanEvent {m : RegFile} {t : List RegI.Event} {out : CanEventShown} :
    Runs funShowMcuCanEvent t out ∧ AnsweredBy m t ↔
      if maxEvent m = 0 then
        t = [readEvent m ROREG_CAN_EVENT_START 64 200] ∧
          out = ⟨0, ⟨(mcuCanEvent m).period_event_valid, RoRegCanEvent.zero.event⟩, []⟩
      else
        t = [readEvent m ROREG_CAN_EVENT_START 64 200,
            readEvent m (ROREG_CAN_EVENT_START + 64) (UInt16.ofNat (maxEvent m + 1)) 200] ∧
          out = ⟨0, fetchedCanEvent m, (fetchedCanEvent m).lines⟩ := by
  have hvalid : storeAt RoRegCanEvent.zero.period_event_valid 0
      (m.load ROREG_CAN_EVENT_START (64 : UInt16).toNat) = (mcuCanEvent m).period_event_valid :=
    storeAt_zero_full (by rw [RegFile.length_load]; rfl)
  have hmaxEvent :
      validMaxEvent (mcuCanEvent m).period_event_valid CAN_EVENT_USE_CNT = maxEvent m := rfl
  rw [funShowMcuCanEvent, runs_readReg_bind, hvalid]
  simp only [lt_irrefl, if_false, hmaxEvent]
  by_cases hmax : maxEvent m = 0
  · simp only [if_pos hmax, runs_pure_answered]
    constructor
    · rintro ⟨_, rfl, rfl, rfl⟩
      exact ⟨rfl, rfl⟩
    · rintro ⟨rfl, rfl⟩
      exact ⟨_, rfl, rfl, rfl⟩
  · simp only [if_neg hmax, runs_readReg_bind, lt_irrefl, if_false, runs_pure_answered]
    constructor
    · rintro ⟨_, rfl, _, rfl, rfl, rfl⟩
      exact ⟨rfl, rfl⟩
    · rintro ⟨rfl, rfl⟩
      exact ⟨_, rfl, _, rfl, rfl, rfl⟩

/-! ### What is shown -/

/-- Two tests of the same events, whose lines agree where these events do. -/
def SameTest (event event' : List UInt8) (test test' : List CanEventType × DbgLine) : Prop :=
  test.1 = test'.1 ∧ ((∀ x ∈ test.1, eventAt event x = eventAt event' x) → test.2 = test'.2)

theorem sameTest_canEventTests (event event' : List UInt8) :
    List.Forall₂ (SameTest event event') (canEventTests event) (canEventTests event') := by
  simp only [canEventTests, eventU16, eventU32]
  repeat' constructor
  all_goals
    intro h
    simp only [List.forall_mem_cons, List.not_mem_nil, false_imp_iff, implies_true, and_true] at h
    simp only [h]

theorem shown_congr {event event' : List UInt8} {tests tests' : List (List CanEventType × DbgLine)}
    (h : List.Forall₂ (SameTest event event') tests tests') {p : CanEventType → Bool}
    (hp : ∀ x, p x → eventAt event x = eventAt event' x) :
    (tests.filter fun test => test.1.all p).map Prod.snd =
      (tests'.filter fun test => test.1.all p).map Prod.snd := by
  induction h with
  | nil => rfl
  | @cons test test' _ _ hsame _ ih =>
      by_cases hall : test.1.all p = true
      · have heq : test.2 = test'.2 :=
          hsame.2 fun x hx => hp x (List.all_eq_true.mp hall x hx)
        have hall' : test'.1.all p = true := hsame.1 ▸ hall
        simp only [List.filter_cons, hall, hall', if_true, List.map_cons, heq, ih]
      · have hall' : ¬ test'.1.all p = true := hsame.1 ▸ hall
        simp only [List.filter_cons, hall, hall', Bool.false_eq_true, if_false, ih]

/-- An event array is shown by its valid events alone. -/
theorem lines_congr {valid event event' : List UInt8}
    (h : ∀ x : CanEventType, bitAt valid x.ctorIdx → eventAt event x = eventAt event' x) :
    (RoRegCanEvent.mk valid event).lines = (RoRegCanEvent.mk valid event').lines := by
  apply shown_congr (sameTest_canEventTests event event')
  intro x hx
  apply h x
  rw [getBit_eq] at hx
  cases hbit : bitAt valid x.ctorIdx with
  | true => rfl
  | false =>
      rw [hbit] at hx
      exact absurd hx (by decide)

/-! ### The read is exact -/

/-- The event read is left out just when no event is valid, and else goes up to the highest valid
event. Every valid event is then the MCU's, and what is printed is what the registers hold. -/
structure FetchedExactly (m : RegFile) (t : List RegI.Event) (out : CanEventShown) : Prop where
  skipped : t.map Sigma.fst = [validRead] ↔
    ∀ i < CAN_EVENT_USE_CNT, ¬ bitAt (mcuCanEvent m).period_event_valid i
  fetched : ∀ k,
    IsGreatest {i | i < CAN_EVENT_USE_CNT ∧ bitAt (mcuCanEvent m).period_event_valid i} k →
      t.map Sigma.fst = [validRead, eventRead (k + 1)]
  held : out.can_event.period_event_valid = (mcuCanEvent m).period_event_valid ∧
    ∀ i < CAN_EVENT_USE_CNT, bitAt (mcuCanEvent m).period_event_valid i →
      out.can_event.event.getD i 0 = m (ROREG_CAN_EVENT_START + 64 + UInt16.ofNat i)
  shown : out.lines = (mcuCanEvent m).lines

variable {m : RegFile}

theorem maxEvent_lt (m : RegFile) : maxEvent m < CAN_EVENT_USE_CNT := validMaxEvent_lt (by decide)

theorem load_getD (m : RegFile) (addr : UInt16) {n i : Nat} (hi : i < n) :
    (m.load addr n).getD i 0 = m (addr + UInt16.ofNat i) := by
  simp [RegFile.load, hi]

theorem toNat_maxEvent_succ (m : RegFile) :
    (UInt16.ofNat (maxEvent m + 1)).toNat = maxEvent m + 1 := by
  have hmax : maxEvent m < 48 := maxEvent_lt m
  rw [UInt16.toNat_ofNat']
  omega

theorem fetchedCanEvent_getD {i : Nat} (hi : i ≤ maxEvent m) :
    (fetchedCanEvent m).event.getD i 0 = m (ROREG_CAN_EVENT_START + 64 + UInt16.ofNat i) := by
  have hlen : i < (m.load (ROREG_CAN_EVENT_START + 64) (maxEvent m + 1)).length := by
    rw [RegFile.length_load]
    omega
  simp only [fetchedCanEvent, storeAt, List.take_zero, List.nil_append, toNat_maxEvent_succ]
  rw [List.getD_eq_getElem?_getD, List.getElem?_append_left hlen, ← List.getD_eq_getElem?_getD,
    load_getD m _ (Nat.lt_succ_of_le hi)]

theorem length_fetchedCanEvent (m : RegFile) :
    (fetchedCanEvent m).event.length = CAN_EVENT_USE_CNT := by
  have hmax : maxEvent m < 48 := maxEvent_lt m
  have hzero : RoRegCanEvent.zero.event.length = 48 := rfl
  simp only [fetchedCanEvent, storeAt, List.take_zero, List.nil_append, toNat_maxEvent_succ,
    List.length_append, List.length_drop, RegFile.length_load, hzero]
  exact show maxEvent m + 1 + (48 - (0 + (maxEvent m + 1))) = 48 by omega

theorem eventAt_of_not_lt {event : List UInt8} (h : event.length = CAN_EVENT_USE_CNT)
    {x : CanEventType} (hx : ¬ x.ctorIdx < CAN_EVENT_USE_CNT) : eventAt event x = 0 := by
  rw [eventAt, List.getD_eq_getElem?_getD, List.getElem?_eq_none (by omega), Option.getD_none]

theorem lines_fetchedCanEvent (m : RegFile) :
    (fetchedCanEvent m).lines = (mcuCanEvent m).lines := by
  apply lines_congr
  intro x hx
  by_cases hlt : x.ctorIdx < CAN_EVENT_USE_CNT
  · calc eventAt (fetchedCanEvent m).event x
        = m (ROREG_CAN_EVENT_START + 64 + UInt16.ofNat x.ctorIdx) :=
          fetchedCanEvent_getD (le_validMaxEvent hlt hx)
      _ = eventAt (mcuCanEvent m).event x := (load_getD m _ hlt).symm
  · exact (eventAt_of_not_lt (length_fetchedCanEvent m) hlt).trans
      (eventAt_of_not_lt (RegFile.length_load m _ _) hlt).symm

theorem exists_tested {event : List UInt8} {test : List CanEventType × DbgLine}
    (htest : test ∈ canEventTests event) : ∃ x ∈ test.1, x.ctorIdx < CAN_EVENT_USE_CNT := by
  have hall : ∀ xs ∈ (canEventTests []).map Prod.fst, ∃ x ∈ xs, x.ctorIdx < CAN_EVENT_USE_CNT := by
    decide
  have hfst : (canEventTests event).map Prod.fst = (canEventTests []).map Prod.fst := rfl
  exact hall test.1 (hfst ▸ List.mem_map_of_mem htest)

theorem lines_of_none {valid event : List UInt8}
    (h : ∀ i < CAN_EVENT_USE_CNT, ¬ bitAt valid i) : (RoRegCanEvent.mk valid event).lines = [] := by
  rw [RoRegCanEvent.lines, List.map_eq_nil_iff, List.filter_eq_nil_iff]
  intro test htest hall
  obtain ⟨x, hx, hlt⟩ := exists_tested htest
  have hbit := of_decide_eq_true (List.all_eq_true.mp hall x hx)
  rw [getBit_eq, if_neg (h _ hlt)] at hbit
  exact hbit rfl

theorem maxEvent_eq_zero_iff :
    maxEvent m = 0 ↔
      ∀ i < CAN_EVENT_USE_CNT, bitAt (mcuCanEvent m).period_event_valid i → i = 0 := by
  constructor
  · intro hmax i hi hbit
    have hle : i ≤ maxEvent m := le_validMaxEvent hi hbit
    omega
  · intro h
    by_contra hmax
    exact hmax (h _ (maxEvent_lt m) (bitAt_validMaxEvent hmax))

theorem isGreatest_maxEvent (h : maxEvent m ≠ 0) :
    IsGreatest {i | i < CAN_EVENT_USE_CNT ∧ bitAt (mcuCanEvent m).period_event_valid i}
      (maxEvent m) := by
  constructor
  · exact ⟨maxEvent_lt m, bitAt_validMaxEvent h⟩
  · intro i hi
    exact le_validMaxEvent hi.1 hi.2

theorem fetchedExactly_of_max {t : List RegI.Event} {out : CanEventShown} (hmax : maxEvent m ≠ 0)
    (run : Runs funShowMcuCanEvent t out) (answered : AnsweredBy m t) :
    FetchedExactly m t out := by
  have hgreatest := isGreatest_maxEvent hmax
  have hout := runs_funShowMcuCanEvent.mp ⟨run, answered⟩
  rw [if_neg hmax] at hout
  obtain ⟨rfl, rfl⟩ := hout
  refine ⟨⟨fun hskip => ?_, fun hnone => ?_⟩, fun k hk => ?_, ⟨rfl, fun i hi hbit => ?_⟩, ?_⟩
  · cases hskip
  · exact absurd hgreatest.1.2 (hnone _ hgreatest.1.1)
  · rw [Nat.le_antisymm (hgreatest.2 hk.1) (hk.2 hgreatest.1)]
    rfl
  · exact fetchedCanEvent_getD (hgreatest.2 ⟨hi, hbit⟩)
  · exact lines_fetchedCanEvent m

theorem fetchedExactly_of_none {t : List RegI.Event} {out : CanEventShown}
    (hnone : ∀ i < CAN_EVENT_USE_CNT, ¬ bitAt (mcuCanEvent m).period_event_valid i)
    (run : Runs funShowMcuCanEvent t out) (answered : AnsweredBy m t) :
    FetchedExactly m t out := by
  have hmax : maxEvent m = 0 :=
    maxEvent_eq_zero_iff.mpr fun i hi hbit => absurd hbit (hnone i hi)
  have hout := runs_funShowMcuCanEvent.mp ⟨run, answered⟩
  rw [if_pos hmax] at hout
  obtain ⟨rfl, rfl⟩ := hout
  refine ⟨⟨fun _ => hnone, fun _ => rfl⟩, fun k hk => ?_, ⟨rfl, fun i hi hbit => ?_⟩, ?_⟩
  · exact absurd hk.1.2 (hnone k hk.1.1)
  · exact absurd hbit (hnone i hi)
  · exact (lines_of_none hnone).symm

theorem exists_run (m : RegFile) : ∃ t out, Runs funShowMcuCanEvent t out ∧ AnsweredBy m t := by
  simp only [runs_funShowMcuCanEvent]
  split
  · exact ⟨_, _, rfl, rfl⟩
  · exact ⟨_, _, rfl, rfl⟩

/-- The events are read as they should be but where the ignition event alone is valid. -/
theorem can_events_fetched_iff (m : RegFile) :
    (∀ t out, Runs funShowMcuCanEvent t out → AnsweredBy m t → FetchedExactly m t out) ↔
      (bitAt (mcuCanEvent m).period_event_valid 0 →
        ∃ i, 0 < i ∧ i < CAN_EVENT_USE_CNT ∧ bitAt (mcuCanEvent m).period_event_valid i) := by
  constructor
  · intro h hbit
    by_contra hnone
    have hmax : maxEvent m = 0 := by
      apply maxEvent_eq_zero_iff.mpr
      intro i hi hi'
      by_contra hne
      exact hnone ⟨i, Nat.pos_of_ne_zero hne, hi, hi'⟩
    obtain ⟨t, out, run, answered⟩ := exists_run m
    have hskip : t.map Sigma.fst = [validRead] := by
      have hout := runs_funShowMcuCanEvent.mp ⟨run, answered⟩
      rw [if_pos hmax] at hout
      rw [hout.1]
      rfl
    exact (h t out run answered).skipped.mp hskip 0 (by decide) hbit
  · intro h t out run answered
    by_cases hmax : maxEvent m = 0
    · apply fetchedExactly_of_none _ run answered
      intro i hi hbit
      obtain rfl := maxEvent_eq_zero_iff.mp hmax i hi hbit
      obtain ⟨j, hj, hlt, hbit'⟩ := h hbit
      exact absurd (maxEvent_eq_zero_iff.mp hmax j hlt hbit') (Nat.ne_of_gt hj)
    · exact fetchedExactly_of_max hmax run answered

/-- The ignition is on, and nothing else is known. -/
def ignitionOn : RegFile := fun addr =>
  if addr = ROREG_CAN_EVENT_START then 1
  else if addr = ROREG_CAN_EVENT_START + 64 then 2
  else 0

/-- A valid ignition event is neither read nor shown. -/
theorem can_events_not_fetched :
    bitAt (mcuCanEvent ignitionOn).period_event_valid CET_IGNITION_POSITION.ctorIdx ∧
      (mcuCanEvent ignitionOn).lines = [dbgInfoln "点火位置： %s" [.str "ON"]] ∧
      ∃ t out, Runs funShowMcuCanEvent t out ∧ AnsweredBy ignitionOn t ∧
        t.map Sigma.fst = [validRead] ∧ out.lines = [] ∧ ¬ FetchedExactly ignitionOn t out := by
  have hmax : maxEvent ignitionOn = 0 := by decide +kernel
  have hlines : (mcuCanEvent ignitionOn).lines = [dbgInfoln "点火位置： %s" [.str "ON"]] := by
    decide +kernel
  obtain ⟨t, out, run, answered⟩ := exists_run ignitionOn
  have hout := runs_funShowMcuCanEvent.mp ⟨run, answered⟩
  rw [if_pos hmax] at hout
  obtain ⟨rfl, rfl⟩ := hout
  refine ⟨by decide +kernel, hlines, _, _, run, answered, rfl, rfl, fun h => ?_⟩
  have hshown := h.shown
  rw [hlines] at hshown
  cases hshown

/-! ### The quantities of several bytes -/

/-- A number below `2 ^ k` and a byte above it share no bit. -/
theorem or_shiftLeft {a k : Nat} (h : a < 2 ^ k) (b : Nat) : a ||| b <<< k = a + b * 2 ^ k := by
  rw [Nat.or_comm, ← Nat.shiftLeft_add_eq_or_of_lt h, Nat.shiftLeft_eq, Nat.add_comm]

theorem eventU16_eq (event : List UInt8) (l h : CanEventType) :
    eventU16 event l h = (ofLeBytes [eventAt event l, eventAt event h] : Nat) := by
  rw [eventU16, or_shiftLeft (eventAt event l).toNat_lt]
  simp only [ofLeBytes]
  congr 1
  omega

theorem toNat_eventU32 (event : List UInt8) (b0 b1 b2 b3 : CanEventType) :
    (eventU32 event b0 b1 b2 b3).toNat =
      ofLeBytes [eventAt event b0, eventAt event b1, eventAt event b2, eventAt event b3] := by
  have h0 := (eventAt event b0).toNat_lt
  have h1 := (eventAt event b1).toNat_lt
  have h2 := (eventAt event b2).toNat_lt
  have h3 := (eventAt event b3).toNat_lt
  have hmod : ∀ {b k : Nat}, b < 2 ^ 8 → k ≤ 24 → b <<< k % 2 ^ 32 = b <<< k := by
    intro b k hb hk
    apply Nat.mod_eq_of_lt
    calc b <<< k = b * 2 ^ k := Nat.shiftLeft_eq b k
      _ ≤ b * 2 ^ 24 := Nat.mul_le_mul_left b (Nat.pow_le_pow_right (by decide) hk)
      _ < 2 ^ 32 := by omega
  simp only [eventU32, UInt32.toNat_or, UInt32.toNat_shiftLeft, UInt8.toNat_toUInt32,
    show (8 : UInt32).toNat % 32 = 8 from rfl, show (16 : UInt32).toNat % 32 = 16 from rfl,
    show (24 : UInt32).toNat % 32 = 24 from rfl]
  rw [hmod h1 (by decide), hmod h2 (by decide), hmod h3 (by decide), or_shiftLeft h0,
    or_shiftLeft (k := 16) (by omega), or_shiftLeft (k := 24) (by omega)]
  simp only [ofLeBytes]
  omega

theorem toInt16_natCast (n : Nat) : toInt16 n = (n : Int).bmod 65536 := BitVec.toInt_ofInt n

theorem toNat_roadHaul (rh_u32 : UInt32) : (roadHaul rh_u32).toNat = rh_u32.toNat * 5 % 2 ^ 32 := by
  rw [roadHaul, UInt32.toNat_toUInt64, UInt32.toNat_mul]
  rfl

/-- A quantity of the register map: its bytes, low byte first, its line and what their number
stands for. -/
structure Quantity where
  bytes : List CanEventType
  s : String
  encodes : Nat → DbgArg

/-- The mileage, in steps of five metres. -/
def mileage : Quantity where
  bytes := [CET_ROAD_HAUL_U32_BYTE0, CET_ROAD_HAUL_U32_BYTE1, CET_ROAD_HAUL_U32_BYTE2,
    CET_ROAD_HAUL_U32_BYTE3]
  s := "总里程: %llu"
  encodes n := .int (n * 5)

/-- The other quantities: countdown, speed, engine speed, voltage in steps of 0.1 V, steering angle
as a signed number of thousandths, and engine run time, in seconds for a line in hours. -/
def plainQuantities : List Quantity := [
  { bytes := [CET_COUNTDOWN_U16_L, CET_COUNTDOWN_U16_H]
    s := "MCU状态机倒计时:%d"
    encodes := fun n => .int n },
  { bytes := [CET_VEHICLE_SPEED_U16_L, CET_VEHICLE_SPEED_U16_H]
    s := "车速: %d km/h"
    encodes := fun n => .int n },
  { bytes := [CET_TURN_SPEED_U16_L, CET_TURN_SPEED_U16_H]
    s := "发动机转速: %d rpm"
    encodes := fun n => .int n },
  { bytes := [CET_DC_VOL_U16_L, CET_DC_VOL_U16_H]
    s := "电源电压: %.1fv"
    encodes := fun n => .real (n / 10) },
  { bytes := [CET_STEERING_ANGLE_I16_L, CET_STEERING_ANGLE_I16_H]
    s := "方向盘角度: %0.3f"
    encodes := fun n => .real ((n : Int).bmod 65536 / 1000) },
  { bytes := [CET_ENGINE_RUN_TIME_U32_BYTE0, CET_ENGINE_RUN_TIME_U32_BYTE1,
      CET_ENGINE_RUN_TIME_U32_BYTE2, CET_ENGINE_RUN_TIME_U32_BYTE3]
    s := "发动机运行时间: %.2fh"
    encodes := fun n => .real (n / 3600) }]

def Quantity.number (q : Quantity) (event : List UInt8) : Nat :=
  ofLeBytes (q.bytes.map (eventAt event))

/-- The test of a quantity that is shown as `arg`. -/
def Quantity.test (q : Quantity) (arg : DbgArg) : List CanEventType × DbgLine :=
  (q.bytes, dbgInfoln q.s [arg])

theorem tests_plain {event : List UInt8} {q : Quantity} (hq : q ∈ plainQuantities) :
    (canEventTests event).filter (fun test => test.2.s = q.s) =
      [q.test (q.encodes (q.number event))] := by
  revert q
  simp only [plainQuantities, List.forall_mem_cons]
  refine ⟨?countdown, ?speed, ?rpm, ?voltage, ?angle, ?runTime, List.forall_mem_nil _⟩
  case countdown => simp [canEventTests, dbgInfoln, Quantity.test, Quantity.number, eventU16_eq]
  case speed => simp [canEventTests, dbgInfoln, Quantity.test, Quantity.number, eventU16_eq]
  case rpm => simp [canEventTests, dbgInfoln, Quantity.test, Quantity.number, eventU16_eq]
  case voltage =>
    simp [canEventTests, dbgInfoln, Quantity.test, Quantity.number, eventU16_eq, div_eq_mul_inv]
  case angle =>
    simp [canEventTests, dbgInfoln, Quantity.test, Quantity.number, eventU16_eq, toInt16_natCast]
  case runTime =>
    simp [canEventTests, dbgInfoln, Quantity.test, Quantity.number, toNat_eventU32]
    ring

theorem tests_mileage (event : List UInt8) :
    (canEventTests event).filter (fun test => test.2.s = mileage.s) =
      [mileage.test (.int (mileage.number event * 5 % 2 ^ 32 : Nat))] := by
  simp [canEventTests, dbgInfoln, Quantity.test, Quantity.number, mileage, toNat_roadHaul,
    toNat_eventU32]

/-- The arguments of the lines with the format `s`. -/
def reported (lines : List DbgLine) (s : String) : List (List DbgArg) :=
  (lines.filter fun line => line.s = s).map DbgLine.args

def Quantity.IsValid (q : Quantity) (valid : List UInt8) : Prop :=
  ∀ x ∈ q.bytes, bitAt valid x.ctorIdx

/-- A quantity that is valid is shown by its test alone. -/
theorem reported_of_test {valid event : List UInt8} {q : Quantity} {arg : DbgArg}
    (htest : (canEventTests event).filter (fun test => test.2.s = q.s) = [q.test arg])
    (hvalid : q.IsValid valid) :
    reported (RoRegCanEvent.mk valid event).lines q.s = [[arg]] := by
  have hall : (q.test arg).1.all (fun x => getBit valid x.ctorIdx ≠ 0) = true := by
    apply List.all_eq_true.mpr
    intro x hx
    rw [getBit_eq, if_pos (hvalid x hx)]
    rfl
  have hcomm : (RoRegCanEvent.mk valid event).lines.filter (fun line => line.s = q.s) =
      (((canEventTests event).filter fun test => test.2.s = q.s).filter fun test =>
        test.1.all fun x => getBit valid x.ctorIdx ≠ 0).map Prod.snd := by
    rw [RoRegCanEvent.lines, List.filter_map, List.filter_filter, List.filter_filter]
    simp only [Function.comp_def, Bool.and_comm]
  rw [reported, hcomm, htest]
  simp only [List.filter_cons, hall, if_true, List.filter_nil, List.map_cons, List.map_nil]
  rfl

/-- Every valid quantity is reported once and as what its bytes encode. -/
def DecodedExactly (m : RegFile) (out : CanEventShown) : Prop :=
  ∀ q ∈ mileage :: plainQuantities, q.IsValid (mcuCanEvent m).period_event_valid →
    reported out.lines q.s = [[q.encodes (q.number (mcuCanEvent m).event)]]

theorem maxEvent_ne_zero {q : Quantity} (hq : q ∈ mileage :: plainQuantities)
    (hvalid : q.IsValid (mcuCanEvent m).period_event_valid) : maxEvent m ≠ 0 := by
  have hbyte : ∀ bytes ∈ (mileage :: plainQuantities).map Quantity.bytes,
      ∃ x ∈ bytes, x.ctorIdx < CAN_EVENT_USE_CNT ∧ x.ctorIdx ≠ 0 := by decide
  obtain ⟨x, hx, hlt, hne⟩ := hbyte q.bytes (List.mem_map_of_mem hq)
  intro hmax
  exact hne (maxEvent_eq_zero_iff.mp hmax x.ctorIdx hlt (hvalid x hx))

theorem lines_of_valid {q : Quantity} (hq : q ∈ mileage :: plainQuantities)
    (hvalid : q.IsValid (mcuCanEvent m).period_event_valid) {t : List RegI.Event}
    {out : CanEventShown} (run : Runs funShowMcuCanEvent t out) (answered : AnsweredBy m t) :
    out.lines = (mcuCanEvent m).lines :=
  (fetchedExactly_of_max (maxEvent_ne_zero hq hvalid) run answered).shown

theorem mod_eq_self_iff {n : Nat} : n % 2 ^ 32 = n ↔ n < 2 ^ 32 := by
  omega

/-- The quantities are reported without loss but for a mileage that is too long. -/
theorem can_quantities_exact_iff (m : RegFile) :
    (∀ t out, Runs funShowMcuCanEvent t out → AnsweredBy m t → DecodedExactly m out) ↔
      (mileage.IsValid (mcuCanEvent m).period_event_valid →
        mileage.number (mcuCanEvent m).event * 5 < 2 ^ 32) := by
  constructor
  · intro h hvalid
    obtain ⟨t, out, run, answered⟩ := exists_run m
    have hreported := h t out run answered mileage List.mem_cons_self hvalid
    rw [lines_of_valid List.mem_cons_self hvalid run answered,
      reported_of_test (tests_mileage _) hvalid] at hreported
    simp only [mileage, List.cons.injEq, DbgArg.int.injEq, and_true] at hreported
    apply mod_eq_self_iff.mp
    exact_mod_cast hreported
  · intro h t out run answered q hq hvalid
    rw [lines_of_valid hq hvalid run answered]
    rcases List.mem_cons.mp hq with rfl | hplain
    · have hmod := mod_eq_self_iff.mpr (h hvalid)
      rw [reported_of_test (tests_mileage _) hvalid, hmod]
      simp [mileage]
    · exact reported_of_test (tests_plain hplain) hvalid

/-- The mileage is valid and `0x40000000` steps long. -/
def farTravelled : RegFile := fun addr =>
  if addr = ROREG_CAN_EVENT_START + 3 then 0x0f
  else if addr = ROREG_CAN_EVENT_START + 64 + 27 then 0x40
  else 0

/-- Five times the mileage does not fit 32 bits, and its low bits are reported. -/
theorem can_quantities_not_exact :
    mileage.encodes (mileage.number (mcuCanEvent farTravelled).event) = .int 5368709120 ∧
      ∃ t out, Runs funShowMcuCanEvent t out ∧ AnsweredBy farTravelled t ∧
        out.lines = [dbgInfoln "总里程: %llu" [.int 1073741824]] ∧
        ¬ DecodedExactly farTravelled out := by
  have hlines : (mcuCanEvent farTravelled).lines =
      [dbgInfoln "总里程: %llu" [.int 1073741824]] := by
    decide +kernel
  have hvalid : mileage.IsValid (mcuCanEvent farTravelled).period_event_valid := by
    unfold Quantity.IsValid
    decide +kernel
  obtain ⟨t, out, run, answered⟩ := exists_run farTravelled
  have hout : out.lines = (mcuCanEvent farTravelled).lines :=
    lines_of_valid List.mem_cons_self hvalid run answered
  refine ⟨by decide +kernel, t, out, run, answered, hout.trans hlines, fun h => ?_⟩
  have hreported := h mileage List.mem_cons_self hvalid
  rw [hout, hlines] at hreported
  revert hreported
  decide +kernel

end McuRegWr
