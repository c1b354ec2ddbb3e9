import Mathlib.Logic.Function.Basic
import Mathlib.Tactic.IntervalCases
import McuRegWr.Base.Chain
import McuRegWr.Proof.Business.RegFile

/-!
# The watchdog

The MCU takes the host to be alive when `mpu_online_cnt` moves. `RVMcu_WdogConfig` counts the
register itself on, and so does the first `RVMcu_WdogFeed` of a process. Every later feed writes
what the process counted for itself: it is seen unless the calls made since its last feed have
brought the register to that very value. -/

namespace McuRegWr

open Base Prog RegFile

/-- The register the MCU watches. -/
abbrev cntAddr : UInt16 := RWREG_MPU_BUSINESS_REG_START + MPU_ONLINE_CNT

namespace RegFile

def onlineCnt (m : RegFile) : UInt8 := m cntAddr

/-- The count a feed writes. -/
def fed (last_cnt cnt : UInt8) : UInt8 := if last_cnt = 0xff then cnt + 1 else last_cnt

variable {m m' : RegFile} {last_cnt last_cnt' : UInt8} {ret is_on_wdog : Int}

theorem exec_feedCnt {cnt : UInt8} :
    Exec world (if last_cnt = 0xff then do
        let (_, cnt) ← RVMcu.readReg cntAddr [last_cnt] 1 200
        return cnt.headD last_cnt + 1
      else return last_cnt) m cnt m' ↔ cnt = fed last_cnt m.onlineCnt ∧ m' = m := by
  rw [fed]
  by_cases hlast : last_cnt = 0xff
  · simp only [if_pos hlast, exec_bind, Prod.exists, exec_readReg_one]
    constructor
    · rintro ⟨ret, data, m₁, ⟨-, rfl, rfl⟩, hpure⟩
      exact exec_done.mp hpure
    · rintro ⟨rfl, rfl⟩
      exact ⟨0, _, _, ⟨rfl, rfl, rfl⟩, .refl _ _⟩
  · rw [if_neg hlast, if_neg hlast]
    exact exec_done

theorem exec_wdogFeed :
    Exec world (RVMcu.wdogFeed last_cnt) m (ret, last_cnt') m' ↔
      ret = 0 ∧ last_cnt' = fed last_cnt m.onlineCnt + 1 ∧
        m' = m.store cntAddr [fed last_cnt m.onlineCnt] := by
  simp only [RVMcu.wdogFeed, exec_bind, exec_feedCnt, exec_writeReg_one]
  constructor
  · rintro ⟨cnt, m₁, ⟨rfl, rfl⟩, ret₁, m₂, ⟨rfl, rfl⟩, hpure⟩
    obtain ⟨heq, rfl⟩ := exec_done.mp hpure
    obtain ⟨rfl, rfl⟩ := Prod.mk.inj heq
    exact ⟨rfl, rfl, rfl⟩
  · rintro ⟨rfl, rfl, rfl⟩
    exact ⟨_, _, ⟨rfl, rfl⟩, 0, _, ⟨rfl, rfl⟩, .refl _ _⟩

theorem exec_wdogConfig :
    Exec world (RVMcu.wdogConfig is_on_wdog) m ret m' ↔
      ret = 0 ∧ m' = (m.store cntAddr
        [m.onlineCnt + 1]).store (RWREG_MPU_BUSINESS_REG_START + OFFLINE_TIMEOUT_RESET)
          [if is_on_wdog ≠ 0 then 1 else 0] := by
  simp only [RVMcu.wdogConfig, exec_bind, Prod.exists, exec_readReg_one, exec_writeReg_one]
  constructor
  · rintro ⟨ret₁, data, m₁, ⟨-, rfl, rfl⟩, ret₂, m₂, ⟨-, rfl⟩, hret, rfl⟩
    exact ⟨hret, rfl⟩
  · rintro ⟨rfl, rfl⟩
    exact ⟨0, _, _, ⟨rfl, rfl, rfl⟩, 0, _, ⟨rfl, rfl⟩, rfl, rfl⟩

theorem onlineCnt_feed (m : RegFile) (cnt : UInt8) :
    (m.store cntAddr [cnt]).onlineCnt = cnt :=
  store_self _ _ _

theorem onlineCnt_switch (m : RegFile) (sta : UInt8) :
    (m.store (RWREG_MPU_BUSINESS_REG_START + OFFLINE_TIMEOUT_RESET) [sta]).onlineCnt =
      m.onlineCnt := by
  apply store_of_le
  show 1 ≤ (cntAddr -
    (RWREG_MPU_BUSINESS_REG_START + OFFLINE_TIMEOUT_RESET)).toNat
  decide

end RegFile

namespace Wdog

variable {ι : Type}

/-- The registers, and the static variable of every process. -/
structure Fleet (ι : Type) where
  regs : RegFile
  last_cnt : ι → UInt8

/-- Processes that have not fed yet. -/
def Fleet.start (m : RegFile) : Fleet ι := ⟨m, fun _ => 0xff⟩

inductive Call (ι : Type) where
  | feed (i : ι)
  | config (i : ι) (is_on_wdog : Int)
  deriving DecidableEq

def Call.IsConfig : Call ι → Prop
  | .feed _ => False
  | .config _ _ => True

/-- A complete call, with what it found and what it left. -/
structure Entry (ι : Type) where
  call : Call ι
  found : Fleet ι
  left : Fleet ι

def Entry.Visible (e : Entry ι) : Prop := e.left.regs.onlineCnt ≠ e.found.regs.onlineCnt

instance : DecidablePred (@Entry.Visible ι) := fun _ => inferInstanceAs (Decidable (_ ≠ _))

variable [DecidableEq ι]

/-- A call of any process. -/
inductive Makes : Fleet ι → Entry ι → Fleet ι → Prop where
  | feed {s : Fleet ι} {i : ι} {ret : Int} {last_cnt : UInt8} {m : RegFile}
      (run : Exec world (RVMcu.wdogFeed (s.last_cnt i)) s.regs (ret, last_cnt) m) :
      Makes s ⟨.feed i, s, ⟨m, Function.update s.last_cnt i last_cnt⟩⟩
        ⟨m, Function.update s.last_cnt i last_cnt⟩
  | config {s : Fleet ι} {i : ι} {ret is_on_wdog : Int} {m : RegFile}
      (run : Exec world (RVMcu.wdogConfig is_on_wdog) s.regs ret m) :
      Makes s ⟨.config i is_on_wdog, s, ⟨m, s.last_cnt⟩⟩ ⟨m, s.last_cnt⟩

/-- Calls of any processes, one after the other. -/
abbrev Calls : Fleet ι → List (Entry ι) → Fleet ι → Prop := Chain Makes

/-! ### What the calls say -/

/-- What has been shown and fed, read off the calls. -/
structure Ledger (ι : Type) where
  shown : UInt8
  /-- What each process has fed last, if it has fed. -/
  fed : ι → Option UInt8

namespace Ledger

/-- The count that a process feeds next: it counts on what it has fed last, but counts on what is
shown the first time and after `0xfe`. -/
def next (l : Ledger ι) (i : ι) : UInt8 :=
  match l.fed i with
  | none => l.shown + 1
  | some v => if v = 0xfe then l.shown + 1 else v + 1

def note (l : Ledger ι) : Call ι → Ledger ι
  | .feed i => ⟨l.next i, Function.update l.fed i (some (l.next i))⟩
  | .config _ _ => { l with shown := l.shown + 1 }

/-- After some calls, from a register that shows `cnt`. -/
def after (cnt : UInt8) (calls : List (Call ι)) : Ledger ι :=
  calls.foldl note ⟨cnt, fun _ => none⟩

end Ledger

/-- What process `i` feeds after some calls. -/
def fedAfter (cnt : UInt8) (calls : List (Call ι)) (i : ι) : UInt8 :=
  (Ledger.after cnt calls).next i

/-- The feed that process `i` makes next is overtaken: since its last feed, which was not of `0xfe`,
there were only configurations, one more than a multiple of 256; or another process fed last and
the configurations after that bring its count to the one that is due. -/
inductive Overtaken (cnt : UInt8) (i : ι) : List (Call ι) → Prop where
  | configs {before since : List (Call ι)} (hlast : fedAfter cnt before i ≠ 0xfe)
      (hsince : ∀ c ∈ since, c.IsConfig) (hone : since.length % 256 = 1) :
      Overtaken cnt i (before ++ .feed i :: since)
  | feed {before between since : List (Call ι)} {j : ι} (hlast : fedAfter cnt before i ≠ 0xfe)
      (hbetween : .feed i ∉ between) (hj : j ≠ i) (hsince : ∀ c ∈ since, c.IsConfig)
      (hmeet : fedAfter cnt (before ++ .feed i :: between) j + UInt8.ofNat since.length =
        fedAfter cnt before i + 1) :
      Overtaken cnt i (before ++ .feed i :: (between ++ .feed j :: since))

namespace Ledger

variable {l : Ledger ι} {calls before since : List (Call ι)} {i j : ι} {cnt : UInt8}

theorem after_append (cnt : UInt8) (calls later : List (Call ι)) :
    after cnt (calls ++ later) = later.foldl note (after cnt calls) :=
  List.foldl_append

theorem shown_configs (hcalls : ∀ c ∈ calls, c.IsConfig) :
    (calls.foldl note l).shown = l.shown + UInt8.ofNat calls.length := by
  induction calls generalizing l with
  | nil => exact (UInt8.add_zero _).symm
  | cons c calls ih =>
      obtain ⟨hc, hrest⟩ := List.forall_mem_cons.mp hcalls
      cases c with
      | feed j => exact hc.elim
      | config j is_on_wdog =>
          rw [List.foldl_cons, ih hrest, note, List.length_cons, UInt8.ofNat_add, UInt8.add_assoc,
            UInt8.add_comm (UInt8.ofNat calls.length)]
          rfl

theorem fed_of_not_mem (hcalls : .feed i ∉ calls) : (calls.foldl note l).fed i = l.fed i := by
  induction calls generalizing l with
  | nil => rfl
  | cons c calls ih =>
      obtain ⟨hc, hrest⟩ := not_or.mp (mt List.mem_cons.mpr hcalls)
      rw [List.foldl_cons, ih hrest]
      cases c with
      | feed j =>
          have hne : i ≠ j := fun hij => hc (congrArg Call.feed hij)
          exact Function.update_of_ne hne _ _
      | config j is_on_wdog => rfl

/-- Only configurations since the last feed: each has counted on what it wrote. -/
theorem shown_since (hsince : ∀ c ∈ since, c.IsConfig) :
    (after cnt (before ++ .feed j :: since)).shown =
      fedAfter cnt before j + UInt8.ofNat since.length := by
  rw [after_append, List.foldl_cons, shown_configs hsince]
  rfl

theorem fed_since (hsince : .feed i ∉ since) :
    (after cnt (before ++ .feed i :: since)).fed i = some (fedAfter cnt before i) := by
  rw [after_append, List.foldl_cons, fed_of_not_mem hsince]
  exact Function.update_self _ _ _

theorem next_since (hsince : .feed i ∉ since) (hlast : fedAfter cnt before i ≠ 0xfe) :
    (after cnt (before ++ .feed i :: since)).next i = fedAfter cnt before i + 1 := by
  simp only [next, fed_since hsince, if_neg hlast]

end Ledger

omit [DecidableEq ι] in
theorem not_feed_of_configs {since : List (Call ι)} {i : ι} (hsince : ∀ c ∈ since, c.IsConfig) :
    .feed i ∉ since :=
  fun hmem => hsince _ hmem

theorem succ_ne (n : UInt8) : n + 1 ≠ n := by
  intro h
  exact absurd ((UInt8.add_right_inj n).mp (h.trans (UInt8.add_zero n).symm)) (by decide)

theorem exists_last {α : Type} {p : α → Prop} {xs : List α} (h : ∃ a ∈ xs, p a) :
    ∃ as a bs, xs = as ++ a :: bs ∧ p a ∧ ∀ b ∈ bs, ¬ p b := by
  induction xs with
  | nil =>
      obtain ⟨a, hmem, -⟩ := h
      exact (List.not_mem_nil hmem).elim
  | cons x xs ih =>
      by_cases hrest : ∃ a ∈ xs, p a
      · obtain ⟨as, a, bs, rfl, ha, hbs⟩ := ih hrest
        exact ⟨x :: as, a, bs, rfl, ha, hbs⟩
      · obtain ⟨a, hmem, ha⟩ := h
        have hnone : ∀ b ∈ xs, ¬ p b := fun b hb hp => hrest ⟨b, hb, hp⟩
        obtain rfl | hin := List.mem_cons.mp hmem
        · exact ⟨[], a, xs, rfl, ha, hnone⟩
        · exact absurd ha (hnone a hin)

section Overtaken

open Ledger

variable {calls : List (Call ι)} {i : ι} {cnt : UInt8}

theorem ofNat_eq_one {n : Nat} : UInt8.ofNat n = 1 ↔ n % 256 = 1 := by
  rw [← UInt8.toNat_inj, UInt8.toNat_ofNat']
  exact Iff.rfl

theorem Overtaken.next_eq (h : Overtaken cnt i calls) :
    (after cnt calls).next i = (after cnt calls).shown := by
  cases h with
  | configs hlast hsince hone =>
      rw [next_since (not_feed_of_configs hsince) hlast, shown_since hsince, ofNat_eq_one.mpr hone]
  | @feed before between since j hlast hbetween hj hsince hmeet =>
      have hnot : Call.feed i ∉ between ++ .feed j :: since := by
        intro hmem
        obtain hin | hin := List.mem_append.mp hmem
        · exact hbetween hin
        · obtain heq | hin := List.mem_cons.mp hin
          · exact hj (Call.feed.inj heq).symm
          · exact not_feed_of_configs hsince hin
      rw [next_since hnot hlast, ← hmeet, ← shown_since hsince, List.append_assoc,
        List.cons_append]

theorem overtaken_of_next_eq (h : (after cnt calls).next i = (after cnt calls).shown) :
    Overtaken cnt i calls := by
  by_cases hmem : Call.feed i ∈ calls
  · obtain ⟨before, _, since, rfl, rfl, hsince⟩ := exists_last ⟨_, hmem, rfl⟩
    have hnot : Call.feed i ∉ since := fun hin => hsince _ hin rfl
    have hlast : fedAfter cnt before i ≠ 0xfe := by
      intro hlast
      simp only [next, fed_since hnot, if_pos hlast] at h
      exact succ_ne _ h
    rw [next_since hnot hlast] at h
    by_cases hcfg : ∀ c ∈ since, c.IsConfig
    · rw [shown_since hcfg, UInt8.add_right_inj] at h
      exact .configs hlast hcfg (ofNat_eq_one.mp h.symm)
    · push Not at hcfg
      obtain ⟨between, c, rest, rfl, hc, hrest⟩ := exists_last hcfg
      cases c with
      | config j is_on_wdog => exact (hc trivial).elim
      | feed j =>
          have hrest' : ∀ c ∈ rest, c.IsConfig := fun c hin => not_not.mp (hrest c hin)
          have hj : j ≠ i := fun hij => hnot (by simp [hij])
          have hbetween : Call.feed i ∉ between := fun hin => hnot (by simp [hin])
          rw [← List.cons_append, ← List.append_assoc, shown_since hrest'] at h
          exact .feed hlast hbetween hj hrest' h.symm
  · have hfed : (after cnt calls).fed i = none := fed_of_not_mem hmem
    simp only [next, hfed] at h
    exact (succ_ne _ h).elim

theorem overtaken_iff :
    Overtaken cnt i calls ↔ (after cnt calls).next i = (after cnt calls).shown :=
  ⟨Overtaken.next_eq, overtaken_of_next_eq⟩

end Overtaken

/-! ### The runs -/

/-- The registers and the static variables are what the calls say. -/
structure Kept (s : Fleet ι) (l : Ledger ι) : Prop where
  shown : s.regs.onlineCnt = l.shown
  last_cnt : ∀ i, s.last_cnt i = (l.fed i).elim 0xff (· + 1)

namespace Kept

variable {s t : Fleet ι} {l : Ledger ι} {e : Entry ι} {i : ι}

omit [DecidableEq ι] in
theorem start (m : RegFile) : Kept (.start m : Fleet ι) ⟨m.onlineCnt, fun _ => none⟩ :=
  ⟨rfl, fun _ => rfl⟩

omit [DecidableEq ι] in
/-- `last_cnt` is back at the sentinel just after `0xfe` was fed. -/
theorem fed_eq (h : Kept s l) : fed (s.last_cnt i) s.regs.onlineCnt = l.next i := by
  rw [fed, h.last_cnt, h.shown, Ledger.next]
  cases l.fed i with
  | none => rfl
  | some v =>
      have hwrap : v + 1 = 0xff ↔ v = 0xfe :=
        UInt8.add_left_inj (a := v) (b := 0xfe) 1
      simp only [Option.elim_some, hwrap]

theorem step (h : Kept s l) (call : Makes s e t) : Kept t (l.note e.call) ∧
    (e.Visible ↔ ∀ i, e.call = .feed i → l.next i ≠ l.shown) := by
  cases call with
  | @feed i ret last_cnt m run =>
      obtain ⟨-, rfl, rfl⟩ := exec_wdogFeed.mp run
      rw [h.fed_eq]
      refine ⟨⟨onlineCnt_feed _ _, fun j => ?_⟩, ?_⟩
      · by_cases hj : j = i
        · subst hj
          simp [Ledger.note]
        · simp [Ledger.note, hj, h.last_cnt]
      · simp only [Entry.Visible, onlineCnt_feed, h.shown]
        constructor
        · rintro hne _ ⟨⟩
          exact hne
        · intro hne
          exact hne i rfl
  | @config i ret is_on_wdog m run =>
      obtain ⟨-, rfl⟩ := exec_wdogConfig.mp run
      have hcnt := (onlineCnt_switch (s.regs.store cntAddr [s.regs.onlineCnt + 1])
          (if is_on_wdog ≠ 0 then 1 else 0)).trans
        (onlineCnt_feed s.regs (s.regs.onlineCnt + 1))
      refine ⟨⟨hcnt.trans (congrArg (· + 1) h.shown), h.last_cnt⟩, ?_⟩
      simp only [Entry.Visible, hcnt]
      constructor
      · rintro - _ ⟨⟩
      · intro _
        exact succ_ne _

theorem run {log : List (Entry ι)} (h : Kept s l) (calls : Calls s log t) :
    Kept t ((log.map Entry.call).foldl Ledger.note l) ∧
      ((∀ e ∈ log, e.Visible) ↔ ∀ k i, (log.map Entry.call)[k]? = some (.feed i) →
        (((log.map Entry.call).take k).foldl Ledger.note l).next i ≠
          (((log.map Entry.call).take k).foldl Ledger.note l).shown) := by
  induction calls generalizing l with
  | nil s => exact ⟨h, by simp⟩
  | cons head _ ih =>
      obtain ⟨hkept, hvis⟩ := h.step head
      obtain ⟨hend, hrest⟩ := ih hkept
      refine ⟨hend, ?_⟩
      rw [List.forall_mem_cons, hvis, hrest]
      constructor
      · rintro ⟨hfirst, hlater⟩ k i hk
        cases k with
        | zero => exact hfirst i (Option.some.inj hk)
        | succ k => exact hlater k i hk
      · intro hall
        exact ⟨fun i hi => hall 0 i (congrArg some hi), fun k i hk => hall (k + 1) i hk⟩

end Kept

/-- All calls are visible just when no feed is overtaken. -/
theorem every_call_visible {m : RegFile} {t : Fleet ι} {log : List (Entry ι)}
    (calls : Calls (.start m) log t) : (∀ e ∈ log, e.Visible) ↔
      ∀ k i, (log.map Entry.call)[k]? = some (.feed i) →
        ¬ Overtaken m.onlineCnt i ((log.map Entry.call).take k) := by
  rw [((Kept.start m).run calls).2]
  simp only [overtaken_iff]
  exact Iff.rfl

/-! ### Given calls -/

def Fleet.after (s : Fleet ι) : Call ι → Fleet ι
  | .feed i =>
      let cnt := fed (s.last_cnt i) s.regs.onlineCnt
      ⟨s.regs.store cntAddr [cnt],
        Function.update s.last_cnt i (cnt + 1)⟩
  | .config _ is_on_wdog =>
      ⟨(s.regs.store cntAddr [s.regs.onlineCnt + 1]).store
        (RWREG_MPU_BUSINESS_REG_START + OFFLINE_TIMEOUT_RESET) [if is_on_wdog ≠ 0 then 1 else 0],
        s.last_cnt⟩

def entries (s : Fleet ι) : List (Call ι) → List (Entry ι)
  | [] => []
  | c :: calls => ⟨c, s, s.after c⟩ :: entries (s.after c) calls

theorem calls_entries (s : Fleet ι) (calls : List (Call ι)) :
    Calls s (entries s calls) (calls.foldl Fleet.after s) := by
  induction calls generalizing s with
  | nil => exact .nil s
  | cons c calls ih =>
      cases c with
      | feed i => exact .cons (.feed (exec_wdogFeed.mpr ⟨rfl, rfl, rfl⟩)) (ih _)
      | config i is_on_wdog => exact .cons (.config (exec_wdogConfig.mpr ⟨rfl, rfl⟩)) (ih _)

/-- A process feeds, configures and feeds again: the second feed writes what the configuration has
just written. -/
theorem feed_hidden_by_config :
    ¬ ∀ (m : RegFile) (log : List (Entry Unit)) (t : Fleet Unit), Calls (.start m) log t →
      ∀ e ∈ log, e.Visible := by
  intro h
  have hrun := h _ _ _ (calls_entries (.start fun _ => 0) [.feed (), .config () 1, .feed ()])
  exact absurd hrun (by decide)

/-- Two processes, past the sentinel and past `0xff`: each feeds after a configuration and after a
feed of the other. -/
def twoProcesses : List (Call Bool) :=
  [.feed false, .config true 1, .config true 0, .feed false, .feed true, .config true 0,
    .feed false, .feed true]

theorem every_call_visible_two_processes :
    Calls (.start fun _ => 0xfd) (entries (.start fun _ => 0xfd) twoProcesses)
      (twoProcesses.foldl Fleet.after (.start fun _ => 0xfd)) ∧
    ∀ e ∈ entries (.start fun _ => 0xfd) twoProcesses, e.Visible := by
  have hrun := calls_entries (.start fun _ => 0xfd) twoProcesses
  refine ⟨hrun, (every_call_visible hrun).mpr fun k i hk => ?_⟩
  rw [overtaken_iff]
  have hlt : k < 8 := (List.getElem?_eq_some_iff.mp hk).1
  interval_cases k <;> cases i <;> revert hk <;> decide

end Wdog

end McuRegWr
