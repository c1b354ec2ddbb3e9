import McuRegWr.Base.History
import McuRegWr.Proof.Burn.Success

/-!
# The budget of a chunk

The loop over a chunk ends for two reasons: bytes are accepted, and tries that brought nothing are
counted. A history shows the results of the tries so far, and the two variables of the loop are sums
over them.
-/

namespace McuRegWr

open Base Prog RegWrCb

namespace BurnBudget

/-- The free size of the burn ring is asked for: a `RegWrCb_Write` has begun. -/
def isCall : RegI.Event → Bool
  | ⟨.readReg reg_addr _ _, _⟩ => reg_addr = RWREG_CB_BURN_START + CBREG_CMD_GET_FREESIZE
  | _ => false

/-- What the `RegWrCb_Write` that an event ends returns. -/
def resultOf : RegI.Event → Option Int
  | ⟨.readReg reg_addr _ _, .error code⟩ =>
      if reg_addr = RWREG_CB_BURN_START + CBREG_CMD_GET_FREESIZE then some code.val else none
  | ⟨.readReg reg_addr _ _, .ok size⟩ =>
      if reg_addr = RWREG_CB_BURN_START + CBREG_CMD_GET_FREESIZE ∧ int32 size.val ≤ 0 then
        some (int32 size.val)
      else none
  | ⟨.writeReg reg_addr _ _, .error code⟩ =>
      if reg_addr = RWREG_CB_BURN_START + CBREG_CMD_WRITE then some code.val else none
  | ⟨.writeReg reg_addr data _, .ok _⟩ =>
      if reg_addr = RWREG_CB_BURN_START + CBREG_CMD_WRITE then some data.length else none
  | _ => none

/-- The number of calls of `RegWrCb_Write`. -/
def calls (h : List RegI.Event) : Nat := h.countP isCall

/-- Their results, in order. -/
def results (h : List RegI.Event) : List Int := h.filterMap resultOf

/-- The sum of the positive results. -/
def gained (h : List RegI.Event) : Int := ((results h).filter (0 < ·)).sum

variable {h : List RegI.Event} {e : RegI.Event}

theorem calls_snoc (h : List RegI.Event) (e : RegI.Event) :
    calls (h ++ [e]) = calls h + if isCall e then 1 else 0 := by
  rw [calls, List.countP_append, List.countP_singleton]
  rfl

theorem results_snoc (h : List RegI.Event) (e : RegI.Event) :
    results (h ++ [e]) = results h ++ (resultOf e).toList := by
  rw [results, List.filterMap_append]
  cases he : resultOf e <;> simp [results, he]

/-- The histories with one call more, which returned `ret`. -/
structure Called (h : List RegI.Event) (ret : Int) (h' : List RegI.Event) : Prop where
  calls_eq : calls h' = calls h + 1
  results_eq : results h' = results h ++ [ret]

/-- The histories with as many calls and the same results. -/
structure Idle (h h' : List RegI.Event) : Prop where
  calls_eq : calls h' = calls h
  results_eq : results h' = results h

theorem Idle.snoc (hcall : isCall e = false) (hresult : resultOf e = none) :
    Idle h (h ++ [e]) := by
  refine ⟨?_, ?_⟩
  · rw [calls_snoc, hcall]
    rfl
  · rw [results_snoc, hresult]
    exact List.append_nil _

theorem Called.idle {ret : Int} {h' h'' : List RegI.Event} (hcalled : Called h ret h')
    (hidle : Idle h' h'') : Called h ret h'' :=
  ⟨hidle.calls_eq.trans hcalled.calls_eq, hidle.results_eq.trans hcalled.results_eq⟩

theorem Called.gained_of_pos {ret : Int} {h' : List RegI.Event} (hcalled : Called h ret h')
    (hret : 0 < ret) : gained h' = gained h + ret := by
  have hkept : [ret].filter (0 < ·) = [ret] := List.filter_eq_self.mpr (by simpa using hret)
  rw [gained, hcalled.results_eq, List.filter_append, List.sum_append, hkept, List.sum_singleton]
  rfl

theorem Called.gained_of_nonpos {ret : Int} {h' : List RegI.Event} (hcalled : Called h ret h')
    (hret : ret ≤ 0) : gained h' = gained h := by
  have hnone : [ret].filter (0 < ·) = [] := List.filter_eq_nil_iff.mpr (by simpa using hret)
  rw [gained, hcalled.results_eq, List.filter_append, hnone, List.append_nil]
  rfl

/-- No more than `bound` calls are made. -/
def Within (bound : Nat) (h : List RegI.Event) (o : RegOp) : Prop :=
  ∀ r, calls (h ++ [⟨o, r⟩]) ≤ bound

variable {bound : Nat}

theorem Within.of_lt {o : RegOp} (hh : calls h < bound) : Within bound h o := by
  intro r
  rw [calls_snoc]
  split <;> omega

theorem Within.of_idle {o : RegOp} (hh : calls h ≤ bound) (ho : ∀ r, isCall ⟨o, r⟩ = false) :
    Within bound h o := by
  intro r
  rw [calls_snoc, ho]
  exact hh

theorem wlp_ringWrite {data : List UInt8} {timeout : UInt32} (hpos : 0 < data.length)
    (hlen : data.length < 65536) (hbound : calls h < bound) :
    (RegWrCb.write regWrCbHandle RWREG_CB_BURN_START data (UInt32.ofNat data.length) timeout).wlp
      recording (Within bound) (fun ret h' => Called h ret h' ∧ ret ≤ data.length) h := by
  apply wlp_write hpos hlen (.of_lt hbound)
  · rintro code _ rfl
    refine ⟨⟨?_, ?_⟩, (le_of_lt code.property).trans (Int.natCast_nonneg _)⟩
    · rw [calls_snoc]
      rfl
    · rw [results_snoc, resultOf, if_pos rfl]
      rfl
  · rintro size _ rfl hfull
    refine ⟨⟨?_, ?_⟩, hfull.trans (Int.natCast_nonneg _)⟩
    · rw [calls_snoc]
      rfl
    · rw [results_snoc, resultOf, if_pos ⟨rfl, hfull⟩]
      rfl
  · rintro size _ n rfl hfree - hn
    have hcalls : calls (h ++ [⟨.readReg (RWREG_CB_BURN_START + CBREG_CMD_GET_FREESIZE) 4 timeout,
        .ok size⟩]) = calls h + 1 := by
      rw [calls_snoc]
      rfl
    have hresults : results (h ++ [⟨.readReg (RWREG_CB_BURN_START + CBREG_CMD_GET_FREESIZE) 4
        timeout, .ok size⟩]) = results h := by
      rw [results_snoc, resultOf, if_neg fun hfull => hfree.not_ge hfull.2]
      exact List.append_nil _
    refine ⟨.of_idle (hcalls.trans_le hbound) fun _ => rfl, ?_⟩
    rintro r _ rfl
    cases r with
    | error code =>
        refine ⟨⟨?_, ?_⟩, (le_of_lt code.property).trans (Int.natCast_nonneg _)⟩
        · rw [calls_snoc, hcalls]
          rfl
        · rw [results_snoc, hresults, resultOf, if_pos rfl]
          rfl
    | ok _ =>
        refine ⟨⟨?_, ?_⟩, Int.ofNat_le.mpr hn⟩
        · rw [calls_snoc, hcalls]
          rfl
        · rw [results_snoc, hresults, resultOf, if_pos rfl, List.length_take_of_le hn]
          rfl

theorem wlp_readBurnSta {reg : BurnStaReg} {timeout : UInt32} (hbound : calls h ≤ bound) :
    (readBurnSta reg timeout).wlp recording (Within bound) (fun _ h' => Idle h h') h := by
  rw [readBurnSta_eq]
  refine wlp_recording (.of_idle hbound fun _ => rfl) fun r => ?_
  cases r <;> exact Idle.snoc rfl rfl

/-- The position is what was gained, the retries count the calls that gained nothing, and both are
bounded. -/
structure Spent (size : Nat) (cs : ChunkState) (h : List RegI.Event) : Prop where
  start_le : cs.start ≤ size
  start_eq : (cs.start : Int) = gained h
  retry_le : cs.retry ≤ BURN_WR_MAX_RETRY + 1
  calls_le : calls h ≤ cs.start + cs.retry

variable {size : Nat} {cs : ChunkState}

theorem Spent.gain (hspent : Spent size cs h) {ret : Int} {h' : List RegI.Event}
    (hcalled : Called h ret h') (hret : 0 < ret) (hle : ret ≤ (size - cs.start : Nat)) :
    Spent size { cs with start := cs.start + ret.toNat } h' := by
  obtain ⟨hstart, hgained, hretry, hcalls⟩ := hspent
  refine ⟨?_, ?_, hretry, ?_⟩
  · dsimp only
    omega
  · rw [hcalled.gained_of_pos hret, ← hgained]
    dsimp only
    omega
  · rw [hcalled.calls_eq]
    dsimp only
    omega

theorem Spent.retry (hspent : Spent size cs h) {ret : Int} {h' : List RegI.Event}
    (hcalled : Called h ret h') (hret : ret ≤ 0) (hmore : cs.retry ≤ BURN_WR_MAX_RETRY)
    (reg : BurnStaReg) : Spent size ⟨cs.start, cs.retry + 1, reg⟩ h' := by
  obtain ⟨hstart, hgained, hretry, hcalls⟩ := hspent
  refine ⟨hstart, hgained.trans (hcalled.gained_of_nonpos hret).symm, ?_, ?_⟩
  · dsimp only
    omega
  · rw [hcalled.calls_eq]
    dsimp only
    omega

theorem wlp_burnChunkRound {data : List UInt8} (hlen : data.length ≤ BURN_PARTICLE_SIZE)
    (hspent : Spent data.length cs h) :
    (burnChunkRound data cs).wlp recording (Within (data.length + (BURN_WR_MAX_RETRY + 1)))
      (Sum.elim (Spent data.length) fun _ _ => True) h := by
  have hcalls := hspent.calls_le
  have hretry := hspent.retry_le
  apply wlp_chunkRound hlen
  · exact fun _ => trivial
  intro hmore hpos hlen
  refine wlp_conseq (wlp_ringWrite hpos hlen (by omega)) fun ret h' hcalled => ?_
  obtain ⟨hcalled, hle⟩ := hcalled
  by_cases hret : 0 < ret
  · rw [List.length_drop] at hle
    exact .of_pos hret (hspent.gain hcalled hret hle)
  have hnone := Int.not_lt.mp hret
  apply AfterTry.of_none hnone
  · intro _
    refine wlp_conseq (wlp_readBurnSta ?_) fun a h'' hidle => ?_
    · rw [hcalled.calls_eq]
      omega
    obtain ⟨ret', reg⟩ := a
    rw [AfterStatus]
    split
    · trivial
    split
    · trivial
    apply AfterVain.intro
    · exact fun _ => trivial
    · intro hbudget
      exact hspent.retry (hcalled.idle hidle) hnone hbudget reg
  · intro _
    apply AfterVain.intro
    · exact fun _ => trivial
    · intro hbudget
      exact hspent.retry hcalled hnone hbudget cs.reg

theorem Spent.start (size : Nat) (reg : BurnStaReg) : Spent size ⟨0, 0, reg⟩ [] :=
  ⟨Nat.zero_le _, rfl, Nat.zero_le _, le_refl _⟩

theorem calls_kept {o : RegOp} {r : RegI.Ans o} {t : List RegI.Event}
    (hguard : Within bound h o) (answer : recording h o r t) : calls t ≤ bound := by
  obtain rfl := answer
  exact hguard r

end BurnBudget

/-- For every chunk the file can bring: its loop ends, and makes at most `r_len + 6` calls of
`RegWrCb_Write`; at each of its heads the position is in the chunk, and as far in it as the positive
results so far add up to. A call is in the history with what it returned. -/
theorem burn_chunk_bounded {firmware_data : List UInt8}
    (hlen : firmware_data.length ≤ BURN_PARTICLE_SIZE) (reg : BurnStaReg) :
    (burnChunk firmware_data reg).Returns ∧
    (∀ t q, Reach (burnChunk firmware_data reg) t q →
      BurnBudget.calls t ≤ firmware_data.length + 6) ∧
    (∀ cs h, Rounds recording (burnChunkRound firmware_data) ⟨0, 0, reg⟩ [] cs h →
      cs.start ≤ firmware_data.length ∧ (cs.start : Int) = BurnBudget.gained h) ∧
    ∀ start t ret, start < firmware_data.length →
      Runs (RegWrCb.write regWrCbHandle RWREG_CB_BURN_START (firmware_data.drop start)
        (UInt32.ofNat (firmware_data.drop start).length) 200) t ret →
      BurnBudget.calls t = 1 ∧ BurnBudget.results t = [ret] := by
  refine ⟨burnChunk_returns firmware_data reg, fun t q run => ?_, fun cs h run => ?_,
    fun start t ret hstart run => ?_⟩
  · have hwlp := wlp_loop (BurnBudget.Spent firmware_data.length)
      (fun _ _ hspent => BurnBudget.wlp_burnChunkRound hlen hspent)
      (firmware_data.length + BURN_WR_MAX_RETRY + 3) (.start firmware_data.length reg)
    exact Steps.invariant (K := fun t => BurnBudget.calls t ≤ firmware_data.length + 6)
      (fun _ => BurnBudget.calls_kept) (steps_recording run []) hwlp (Nat.zero_le _)
  · have hspent := run.invariant (BurnBudget.Spent firmware_data.length)
      (fun _ _ hspent => BurnBudget.wlp_burnChunkRound hlen hspent) (.start _ reg)
    exact ⟨hspent.start_le, hspent.start_eq⟩
  · have hdrop : (firmware_data.drop start).length = firmware_data.length - start :=
      List.length_drop
    rw [BURN_PARTICLE_SIZE] at hlen
    have hwlp := @BurnBudget.wlp_ringWrite [] 1 (firmware_data.drop start) 200 (by omega) (by omega)
      Nat.zero_lt_one
    obtain ⟨hcalled, -⟩ := wlp_exec hwlp (steps_recording run [])
    exact ⟨hcalled.calls_eq, hcalled.results_eq⟩

/-- A ring that is full, takes three of four bytes, cannot be asked, and takes the fourth. -/
def slowRing : List RegI.Event := [
  ⟨.readReg 0x1403 4 200, .ok ⟨[0, 0, 0, 0], rfl⟩⟩,
  ⟨.readReg 0x1400 2 500, .ok ⟨[BURNMODE_START_BURN, 0], rfl⟩⟩,
  ⟨.readReg 0x1403 4 200, .ok ⟨[3, 0, 0, 0], rfl⟩⟩,
  ⟨.writeReg 0x1405 [0x70, 0x71, 0x72] 200, .ok ()⟩,
  ⟨.readReg 0x1403 4 200, .error ⟨-5, by decide⟩⟩,
  ⟨.readReg 0x1403 4 200, .ok ⟨[9, 0, 0, 0], rfl⟩⟩,
  ⟨.writeReg 0x1405 [0x73] 200, .ok ()⟩]

theorem burn_chunk_bounded_slowRing :
    Runs (burnChunk [0x70, 0x71, 0x72, 0x73] ⟨0, 0⟩) slowRing (.ok ⟨BURNMODE_START_BURN, 0⟩) ∧
      BurnBudget.results slowRing = [0, 3, -5, 1] ∧ BurnBudget.calls slowRing ≤ 10 := by
  have hrun : Runs (burnChunk [0x70, 0x71, 0x72, 0x73] ⟨0, 0⟩) slowRing
      (.ok ⟨BURNMODE_START_BURN, 0⟩) :=
    .ask (.ask (.ask (.ask (.ask (.ask (.ask (.refl _)))))))
  exact ⟨hrun, by decide, (burn_chunk_bounded (by decide) ⟨0, 0⟩).2.1 _ _ hrun⟩

end McuRegWr
