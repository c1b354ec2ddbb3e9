import McuRegWr.Base.Pool
import McuRegWr.Base.SharedCell
import McuRegWr.Proof.Business.RegFile
import McuRegWr.Run

/-!
# The fault map

`fun_set_or_clean_mpu_dtc` reads the fault map, edits one bit of its copy and writes the copy back.
The lock is that of the single access, so the map is a shared cell: what it holds is told by the
ledger of the accesses made to it.
-/

namespace McuRegWr

open Base Prog RegFile SharedCell

/-- Where the fault map lies. -/
abbrev dtcAddr : UInt16 := RWREG_MPU_BUSINESS_REG_START + DTC_MAP

/-! ### One bit of the map -/

/-- Faults count from one. -/
theorem testBit_setDtcBit (dtc_map : UInt32) {dtc : UInt32} (hpos : dtc ≠ 0) (hle : dtc ≤ 32)
    (val : Int) (b : Nat) :
    (setDtcBit dtc_map dtc val).toNat.testBit b =
      if b = dtc.toNat - 1 then decide (val ≠ 0) else dtc_map.toNat.testBit b := by
  have hpos' : dtc.toNat ≠ 0 := fun h => hpos (UInt32.toNat_inj.mp h)
  have hle' : dtc.toNat ≤ 32 := UInt32.le_iff_toNat_le.mp hle
  have hbyte : (dtc.toNat - 1) / 8 < (bytes32 dtc_map).length := by
    rw [length_leBytes]
    omega
  have hlen : (setBit (bytes32 dtc_map) (dtc.toNat - 1) val).length = 4 := by
    rw [length_setBit, length_leBytes]
  calc (setDtcBit dtc_map dtc val).toNat.testBit b
      = bitAt (setBit (bytes32 dtc_map) (dtc.toNat - 1) val) b := by
        rw [setDtcBit, toNat_word32 hlen, testBit_ofLeBytes]
    _ = if b = dtc.toNat - 1 then decide (val ≠ 0) else bitAt (bytes32 dtc_map) b :=
        bitAt_setBit hbyte val b
    _ = if b = dtc.toNat - 1 then decide (val ≠ 0) else dtc_map.toNat.testBit b := by
        rw [← testBit_ofLeBytes, ofLeBytes_leBytes_of_lt dtc_map.toNat_lt]

/-! ### The processes -/

/-- A process and the fault it sets or cleans. -/
structure DtcCall where
  dtc : UInt32
  on : Bool
  last_cnt : UInt8

namespace DtcCall

def config (c : DtcCall) : RunConfig :=
  if c.on then { set_dtc := c.dtc, clean_dtc := 0 } else { set_dtc := 0, clean_dtc := c.dtc }

def code (c : DtcCall) : Prog RegI (Int × UInt8) := funSetOrCleanMpuDtc c.config c.last_cnt

/-- What the process does to its copy of the map. -/
def edit (c : DtcCall) (dtc_map : UInt32) : UInt32 :=
  setDtcBit dtc_map c.dtc (if c.on then 1 else 0)

/-- The bit of the fault. -/
def bit (c : DtcCall) : Nat := c.dtc.toNat - 1

end DtcCall

/-- The fault is one the host may write. -/
def InMask (dtc : UInt32) : Prop :=
  dtc ≠ 0 ∧ MPU_DTC_MAP_MASK.toNat.testBit (dtc.toNat - 1) = true

theorem InMask.le {dtc : UInt32} (h : InMask dtc) : dtc ≤ 32 := by
  by_contra hgt
  have hgt' : 32 < dtc.toNat := by
    rw [UInt32.le_iff_toNat_le] at hgt
    exact Nat.not_le.mp hgt
  have hclear : MPU_DTC_MAP_MASK.toNat.testBit (dtc.toNat - 1) = false :=
    Nat.testBit_lt_two_pow
      (MPU_DTC_MAP_MASK.toNat_lt.trans_le (Nat.pow_le_pow_right (by decide) (by omega)))
  rw [h.2] at hclear
  exact absurd hclear (by decide)

theorem InMask.controls {dtc : UInt32} (h : InMask dtc) : controlsDtc dtc = true := by
  have hbit : getBit (bytes32 MPU_DTC_MAP_MASK) (dtc.toNat - 1) = 1 := by
    rw [getBit_eq, ← testBit_ofLeBytes, ofLeBytes_leBytes_of_lt MPU_DTC_MAP_MASK.toNat_lt,
      if_pos h.2]
  rw [controlsDtc, hbit]
  simp [h.1, h.le]

theorem testBit_edit {c : DtcCall} (hc : InMask c.dtc) (dtc_map : UInt32) (b : Nat) :
    (c.edit dtc_map).toNat.testBit b = if b = c.bit then c.on else dtc_map.toNat.testBit b := by
  rw [DtcCall.edit, testBit_setDtcBit dtc_map hc.1 hc.le]
  cases c.on <;> rfl

theorem InMask.inj {dtc dtc' : UInt32} (h : InMask dtc) (h' : InMask dtc')
    (hbit : dtc.toNat - 1 = dtc'.toNat - 1) : dtc = dtc' := by
  have hpos : dtc.toNat ≠ 0 := fun h0 => h.1 (UInt32.toNat_inj.mp h0)
  have hpos' : dtc'.toNat ≠ 0 := fun h0 => h'.1 (UInt32.toNat_inj.mp h0)
  apply UInt32.toNat_inj.mp
  omega

/-! ### What one process does -/

/-- What a process has read, and whether it has written. -/
structure Own where
  copy : Option UInt32
  wrote : Bool

/-- Every access is answered. -/
inductive Own.world : World RegI Own
  | take (s : Own) (timeout : UInt32) (bytes : {bytes : List UInt8 // bytes.length = 4}) :
      Own.world s (.readReg dtcAddr 4 timeout) (.ok bytes)
        { s with copy := some (word32 bytes.val) }
  | read (s : Own) {addr cnt timeout : _} (bytes : _) (h : addr ≠ dtcAddr) :
      Own.world s (.readReg addr cnt timeout) (.ok bytes) s
  | put (s : Own) (data : List UInt8) (timeout : UInt32) :
      Own.world s (.writeReg dtcAddr data timeout) (.ok ()) { s with wrote := true }
  | write (s : Own) {addr data timeout : _} (h : addr ≠ dtcAddr) :
      Own.world s (.writeReg addr data timeout) (.ok ()) s

/-- The map is read whole, and written once, edited as the process is asked to. Every other write
leaves it alone. -/
def Own.Allowed (c : DtcCall) (s : Own) : RegOp → Prop
  | .readReg addr cnt _ => addr = dtcAddr → cnt = 4
  | .writeReg addr data _ =>
      if addr = dtcAddr then s.wrote = false ∧ ∃ m, s.copy = some m ∧ data = bytes32 (c.edit m)
      else ∀ i < 4, data.length ≤ (dtcAddr + UInt16.ofNat i - addr).toNat
  | _ => False

variable {c : DtcCall} {s : Own}

theorem wlp_readMpuDtc {v : UInt32} {Q : Int × UInt32 → Own → Prop}
    (hQ : ∀ m, Q (0, m) { s with copy := some m }) :
    (RVMcu.readMpuDtc v).wlp Own.world (Own.Allowed c) Q s := by
  refine ⟨fun _ => rfl, fun r s' answer => ?_⟩
  cases answer with
  | take _ _ bytes =>
      show Q (0, word32 (storeAt (bytes32 v) 0 bytes.val)) _
      rw [storeAt_bytes32 bytes.property]
      exact hQ _
  | read _ _ h => exact absurd rfl h

theorem wlp_writeMpuDtc {m : UInt32} {Q : Int → Own → Prop} (hcopy : s.copy = some m)
    (hwrote : s.wrote = false) (hQ : Q 0 { s with wrote := true }) :
    (RVMcu.writeMpuDtc (c.edit m)).wlp Own.world (Own.Allowed c) Q s := by
  have htake : (bytes32 (c.edit m)).take (4 : UInt16).toNat = bytes32 (c.edit m) :=
    List.take_of_length_le (by rw [length_leBytes]; decide)
  refine ⟨?_, fun r s' answer => ?_⟩
  · show Own.Allowed c s (.writeReg dtcAddr ((bytes32 (c.edit m)).take (4 : UInt16).toNat) 200)
    rw [htake, Own.Allowed, if_pos rfl]
    exact ⟨hwrote, m, hcopy, rfl⟩
  · cases answer with
    | put => exact hQ
    | write _ h => exact absurd rfl h

theorem allowed_writeCnt (cnt : UInt8) (timeout : UInt32) :
    Own.Allowed c s (.writeReg (RWREG_MPU_BUSINESS_REG_START + MPU_ONLINE_CNT) [cnt] timeout) := by
  rw [Own.Allowed, if_neg (by decide)]
  show ∀ i < 4, 1 ≤ _
  decide

theorem wlp_wdogFeed {last_cnt : UInt8} {Q : Int × UInt8 → Own → Prop} (hQ : ∀ r, Q r s) :
    (RVMcu.wdogFeed last_cnt).wlp Own.world (Own.Allowed c) Q s := by
  have hwrite : ∀ cnt : UInt8, wlp Own.world (Own.Allowed c)
      (RVMcu.writeReg (RWREG_MPU_BUSINESS_REG_START + MPU_ONLINE_CNT) [cnt] 1 200 >>= fun ret =>
        pure (ret, cnt + 1)) Q s := by
    intro cnt
    refine ⟨allowed_writeCnt cnt 200, fun r s' answer => ?_⟩
    cases answer with
    | write => exact hQ _
  rw [RVMcu.wdogFeed, wlp_bind]
  by_cases hlast : last_cnt = 0xff
  · rw [if_pos hlast]
    refine ⟨fun h => absurd h (by decide), fun r s' answer => ?_⟩
    cases answer with
    | read => exact hwrite _
  · rw [if_neg hlast]
    exact hwrite _

theorem wlp_code (hc : InMask c.dtc) :
    c.code.wlp Own.world (Own.Allowed c) (fun _ s => s.wrote = true) ⟨none, false⟩ := by
  have hzero : controlsDtc 0 = false := rfl
  have hedit : ∀ m, (if controlsDtc c.config.clean_dtc then
      setDtcBit (if controlsDtc c.config.set_dtc then setDtcBit m c.config.set_dtc 1 else m)
        c.config.clean_dtc 0
    else if controlsDtc c.config.set_dtc then setDtcBit m c.config.set_dtc 1 else m) =
      c.edit m := by
    intro m
    rw [DtcCall.config, DtcCall.edit]
    cases c.on <;> simp [hzero, hc.controls]
  have hne : c.config.set_dtc ≠ c.config.clean_dtc := by
    rw [DtcCall.config]
    cases c.on
    · exact hc.1.symm
    · exact hc.1
  rw [DtcCall.code, funSetOrCleanMpuDtc, if_neg hne]
  simp only [wlp_bind]
  apply wlp_readMpuDtc
  intro m
  rw [if_neg (Int.lt_irrefl 0), hedit, wlp_bind]
  apply wlp_wdogFeed
  intro r
  rw [wlp_bind]
  refine wlp_writeMpuDtc rfl rfl ?_
  exact rfl

/-! ### All processes -/

def dtcMap (m : RegFile) : UInt32 := word32 (m.load dtcAddr 4)

/-- What an access is to the map. -/
def access : RegI.Event → Option Access
  | ⟨.readReg addr _ _, _⟩ => if addr = dtcAddr then some .take else none
  | ⟨.writeReg addr _ _, _⟩ => if addr = dtcAddr then some .put else none
  | _ => none

variable {ι : Type}

/-- The accesses to the map, in their order. -/
def accesses (history : List (ι × RegI.Event)) : List (ι × Access) :=
  history.filterMap fun x => (access x.2).map (x.1, ·)

theorem accesses_snoc (history : List (ι × RegI.Event)) (i : ι) (e : RegI.Event) :
    accesses (history ++ [(i, e)]) = accesses history ++ ((access e).map (i, ·)).toList := by
  rw [accesses, List.filterMap_append]
  cases h : access e <;> simp [accesses, h]

/-- The edits of some processes, the last one first. -/
def edits (req : ι → DtcCall) (l : List ι) (dtc_map : UInt32) : UInt32 :=
  l.foldr (fun i => (req i).edit) dtc_map

section
variable {req : ι → DtcCall}

theorem testBit_edits_of_ne (hmask : ∀ i, InMask (req i).dtc) (l : List ι) (v : UInt32) {b : Nat}
    (hb : ∀ i, (req i).bit ≠ b) : (edits req l v).toNat.testBit b = v.toNat.testBit b := by
  induction l with
  | nil => rfl
  | cons k l ih => exact (testBit_edit (hmask k) _ b).trans ((if_neg (hb k).symm).trans ih)

theorem testBit_edits_of_mem (hmask : ∀ i, InMask (req i).dtc)
    (hdistinct : Function.Injective fun i => (req i).dtc) {l : List ι} {i : ι} (hi : i ∈ l)
    (v : UInt32) : (edits req l v).toNat.testBit (req i).bit = (req i).on := by
  induction l with
  | nil => simp at hi
  | cons k l ih =>
      rw [edits, List.foldr_cons, testBit_edit (hmask k)]
      split
      · rename_i hbit
        rw [hdistinct ((hmask i).inj (hmask k) hbit)]
      · rename_i hbit
        refine ih ((List.mem_cons.mp hi).resolve_left ?_)
        rintro rfl
        exact hbit rfl

end

variable [DecidableEq ι]

/-- What the accesses so far say about a process. -/
def own (init : UInt32) (req : ι → DtcCall) (h : List (ι × Access)) (i : ι) : Own :=
  ⟨((ledger h).taken i).map (edits req · init), h.contains (i, .put)⟩

/-- The map holds the edits the ledger says, and nobody writes it twice. -/
structure Cell (init : UInt32) (req : ι → DtcCall) (m : RegFile) (h : List (ι × Access)) :
    Prop where
  map : dtcMap m = edits req (ledger h).applied init
  orderly : Orderly h
  once : ∀ i, ¬ Overtakes h i i

section
variable {init : UInt32} {req : ι → DtcCall} {m m' : RegFile} {h : List (ι × Access)} {i : ι}

theorem own_take (i : ι) : own init req (h ++ [(i, .take)]) i =
    { own init req h i with copy := some (edits req (ledger h).applied init) } := by
  simp [own, Ledger.step]

theorem own_put (i : ι) : own init req (h ++ [(i, .put)]) i =
    { own init req h i with wrote := true } := by
  simp [own, Ledger.step]

theorem own_of_ne {j : ι} (hj : j ≠ i) (a : Access) :
    own init req (h ++ [(i, a)]) j = own init req h j := by
  cases a <;> simp [own, Ledger.step, hj]

theorem take_of_copy (hcopy : (own init req h i).copy ≠ none) : (i, .take) ∈ h := by
  induction h using List.reverseRecOn with
  | nil => exact absurd rfl hcopy
  | append_singleton h x ih =>
      obtain ⟨k, a⟩ := x
      by_cases hk : i = k
      · subst hk
        cases a with
        | take => simp
        | put =>
            rw [own_put] at hcopy
            exact List.mem_append_left _ (ih hcopy)
      · rw [own_of_ne hk] at hcopy
        exact List.mem_append_left _ (ih hcopy)

theorem dtcMap_put (m : RegFile) (v : UInt32) : dtcMap (m.store dtcAddr (bytes32 v)) = v := by
  have hload := @load_store m dtcAddr (bytes32 v) (by rw [length_leBytes]; decide)
  rw [length_leBytes] at hload
  rw [dtcMap, hload]
  exact word32_bytes32 v

theorem Cell.take (hcell : Cell init req m h) (i : ι) :
    Cell init req m (h ++ [(i, .take)]) := by
  refine ⟨?_, hcell.orderly.snoc (fun hput => by cases hput), fun k hover => ?_⟩
  · rw [ledger_snoc]
    exact hcell.map
  · rcases hover.of_snoc with hover | ⟨heq, -⟩
    · exact hcell.once k hover
    · exact absurd (Prod.mk.inj heq).2 (by decide)

theorem Cell.put (hcell : Cell init req m h) {copy : UInt32}
    (hcopy : (own init req h i).copy = some copy) (hwrote : (own init req h i).wrote = false) :
    Cell init req (m.store dtcAddr (bytes32 ((req i).edit copy))) (h ++ [(i, .put)]) := by
  refine ⟨?_, hcell.orderly.snoc fun _ => ?_, fun k hover => ?_⟩
  · obtain ⟨l, hl, rfl⟩ := Option.map_eq_some_iff.mp hcopy
    rw [dtcMap_put, ledger_snoc, Ledger.step, hl]
    rfl
  · exact take_of_copy (by rw [hcopy]; exact Option.some_ne_none copy)
  · rcases hover.of_snoc with hover | ⟨heq, hput⟩
    · exact hcell.once k hover
    · obtain rfl := (Prod.mk.inj heq).1
      exact Bool.false_ne_true (hwrote.symm.trans (List.contains_iff_mem.mpr hput))

theorem Cell.other (hcell : Cell init req m h) (hmap : dtcMap m' = dtcMap m) :
    Cell init req m' h :=
  ⟨hmap.trans hcell.map, hcell.orderly, hcell.once⟩

theorem Cell.access {history : List (ι × RegI.Event)} (hcell : Cell init req m (accesses history))
    {o : RegOp} {r : RegOp.Ans o}
    (hguard : Own.Allowed (req i) (own init req (accesses history) i) o)
    (answer : m.answer o = some (r, m')) :
    Cell init req m' (accesses (history ++ [(i, ⟨o, r⟩)])) ∧
      Own.world (own init req (accesses history) i) o r
        (own init req (accesses (history ++ [(i, ⟨o, r⟩)])) i) ∧
      ∀ j ≠ i, own init req (accesses (history ++ [(i, ⟨o, r⟩)])) j =
        own init req (accesses history) j := by
  rw [accesses_snoc]
  cases o with
  | readReg addr cnt timeout =>
      obtain ⟨rfl, rfl⟩ := Prod.mk.inj (Option.some.inj answer)
      by_cases haddr : addr = dtcAddr
      · subst haddr
        obtain rfl := hguard rfl
        refine ⟨hcell.take i, ?_, fun j hj => own_of_ne hj _⟩
        rw [show (Option.map (i, ·) (McuRegWr.access ⟨.readReg dtcAddr 4 timeout, _⟩)).toList =
          [(i, Access.take)] from rfl, own_take, ← hcell.map]
        exact .take _ timeout _
      · rw [show McuRegWr.access ⟨.readReg addr cnt timeout, _⟩ = none from if_neg haddr]
        simp only [Option.map_none, Option.toList_none, List.append_nil]
        exact ⟨hcell, .read _ _ haddr, fun _ _ => trivial⟩
  | writeReg addr data timeout =>
      obtain ⟨rfl, rfl⟩ := Prod.mk.inj (Option.some.inj answer)
      by_cases haddr : addr = dtcAddr
      · subst haddr
        rw [Own.Allowed, if_pos rfl] at hguard
        obtain ⟨hwrote, copy, hcopy, rfl⟩ := hguard
        refine ⟨hcell.put hcopy hwrote, ?_, fun j hj => own_of_ne hj _⟩
        rw [show (Option.map (i, ·) (McuRegWr.access ⟨.writeReg dtcAddr _ timeout, _⟩)).toList =
          [(i, Access.put)] from rfl, own_put]
        exact .put _ _ timeout
      · rw [show McuRegWr.access ⟨.writeReg addr data timeout, _⟩ = none from if_neg haddr]
        simp only [Option.map_none, Option.toList_none, List.append_nil]
        rw [Own.Allowed, if_neg haddr] at hguard
        refine ⟨hcell.other ?_, .write _ haddr, fun _ _ => trivial⟩
        exact congrArg word32 (load_store_of_disjoint hguard)
  | openFile path => exact hguard.elim
  | readFile fd count => exact hguard.elim
  | closeFile fd => exact hguard.elim
  | usleep usec => exact hguard.elim

end

abbrev DtcPool (ι : Type) : Type := Pool RegI ι DtcCall (Int × UInt8) RegFile

/-- Every process is about to begin its one call. -/
def DtcPool.start (m : RegFile) (req : ι → DtcCall) : DtcPool ι where
  shared := m
  clients := fun i => some ⟨req i, [], (req i).code⟩
  history := []
  log := []

/-- The processes' accesses interleave, and nobody else is there. -/
abbrev DtcReachable : DtcPool ι → DtcPool ι → Prop :=
  Pool.Reachable RegFile.world (fun _ _ => False) DtcCall.code (fun _ _ => False)

structure Tracks (init : UInt32) (req : ι → DtcCall) (p : DtcPool ι) : Prop where
  cell : Cell init req p.shared (accesses p.history)
  running : ∀ i cl, p.clients i = some cl → cl.rest.wlp Own.world (Own.Allowed (req i))
    (fun _ s => s.wrote = true) (own init req (accesses p.history) i)
  finished : ∀ i, p.clients i = none → (i, .put) ∈ accesses p.history

theorem Tracks.start {m : RegFile} {req : ι → DtcCall} (hmask : ∀ i, InMask (req i).dtc) :
    Tracks (dtcMap m) req (.start m req) := by
  refine ⟨⟨rfl, orderly_nil, ?_⟩, fun i cl hcl => ?_, fun i hi => ?_⟩
  · rintro i ⟨a, b, heq, -⟩
    simp [DtcPool.start, accesses] at heq
  · obtain rfl := Option.some.inj hcl
    exact wlp_code (hmask i)
  · simp [DtcPool.start] at hi

theorem Tracks.step {init : UInt32} {req : ι → DtcCall} {p q : DtcPool ι} (hp : Tracks init req p)
    (hstep : Pool.Step RegFile.world (fun _ _ => False) DtcCall.code (fun _ _ => False) p q) :
    Tracks init req q := by
  cases hstep with
  | start idle hmay => exact hmay.elim
  | @work i c t o next r m' busy answer more =>
      obtain ⟨hguard, hnext⟩ := hp.running i _ busy
      obtain ⟨hcell, hown, hothers⟩ := hp.cell.access hguard answer
      refine ⟨hcell, Pool.forall_update (fun cl hcl => ?_) (fun j hj cl hcl => ?_), fun j hj => ?_⟩
      · obtain rfl := Option.some.inj hcl
        exact hnext _ _ hown
      · rw [hothers j hj]
        exact hp.running j cl hcl
      · by_cases hji : j = i
        · subst hji
          simp at hj
        · have hdone : p.clients j = none := (Function.update_of_ne hji _ _).symm.trans hj
          rw [accesses_snoc]
          exact List.mem_append_left _ (hp.finished j hdone)
  | @finish i c t o next r m' a busy answer last =>
      obtain ⟨hguard, hnext⟩ := hp.running i _ busy
      obtain ⟨hcell, hown, hothers⟩ := hp.cell.access hguard answer
      have hwrote := hnext _ _ hown
      rw [last, wlp_done] at hwrote
      refine ⟨hcell, Pool.forall_update (fun cl hcl => by simp at hcl) (fun j hj cl hcl => ?_),
        fun j hj => ?_⟩
      · rw [hothers j hj]
        exact hp.running j cl hcl
      · by_cases hji : j = i
        · subst hji
          exact List.contains_iff_mem.mp hwrote
        · have hdone : p.clients j = none := (Function.update_of_ne hji _ _).symm.trans hj
          rw [accesses_snoc]
          exact List.mem_append_left _ (hp.finished j hdone)
  | env henv => exact henv.elim

/-- When all are done, the map has the bit of every process that none overtook, and it has all the
bits that none asked for. -/
theorem dtc_updates_kept {req : ι → DtcCall} {m : RegFile} {q : DtcPool ι}
    (hmask : ∀ i, InMask (req i).dtc) (hdistinct : Function.Injective fun i => (req i).dtc)
    (hreach : DtcReachable (.start m req) q) (hdone : ∀ i, q.clients i = none) :
    (∀ i, (∀ j ≠ i, ¬ Overtakes (accesses q.history) j i) →
      (dtcMap q.shared).toNat.testBit (req i).bit = (req i).on) ∧
    ∀ b, (∀ i, (req i).bit ≠ b) →
      (dtcMap q.shared).toNat.testBit b = (dtcMap m).toNat.testBit b := by
  have htracks : Tracks (dtcMap m) req q :=
    Pool.Reachable.invariant (fun _ _ hp hstep => hp.step hstep) hreach (.start hmask)
  rw [htracks.cell.map]
  constructor
  · intro i hfresh
    have hmem : i ∈ (ledger (accesses q.history)).applied := by
      apply mem_applied htracks.cell.orderly (htracks.finished i (hdone i))
      intro j
      by_cases hji : j = i
      · rw [hji]
        exact htracks.cell.once i
      · exact hfresh j hji
    exact testBit_edits_of_mem hmask hdistinct hmem _
  · intro b hb
    exact testBit_edits_of_ne hmask _ _ hb

/-! ### Two processes -/

/-- They set the faults 1 and 2. -/
def setBoth (i : Bool) : DtcCall := ⟨if i then 2 else 1, true, 0xff⟩

theorem setBoth_inMask (i : Bool) : InMask (setBoth i).dtc := by
  cases i
  · exact ⟨by decide, by decide⟩
  · exact ⟨by decide, by decide⟩

theorem setBoth_injective : Function.Injective fun i => (setBoth i).dtc := by
  decide

/-- Both read the map before either writes it: the fault of the first is lost. -/
theorem dtc_update_lost :
    ¬ ∀ (m : RegFile) (req : Bool → DtcCall) (q : DtcPool Bool), (∀ i, InMask (req i).dtc) →
      Function.Injective (fun i => (req i).dtc) → DtcReachable (.start m req) q →
      (∀ i, q.clients i = none) →
      (∀ i, (dtcMap q.shared).toNat.testBit (req i).bit = (req i).on) ∧
      ∀ b, (∀ i, (req i).bit ≠ b) →
        (dtcMap q.shared).toNat.testBit b = (dtcMap m).toNat.testBit b := by
  intro h
  have hreach : DtcReachable _ _ := Pool.reachable_schedule (fun _ _ _ _ => id)
    [false, true, false, false, false, true, true, true] (DtcPool.start (fun _ => 0) setBoth)
  have hboth := (h _ _ _ setBoth_inMask setBoth_injective hreach (by decide +kernel)).1 false
  revert hboth
  decide +kernel

/-- One after the other. -/
theorem dtc_updates_kept_in_turn :
    ∃ q, DtcReachable (.start (fun _ => 0) setBoth) q ∧ (∀ i, q.clients i = none) ∧
      ∀ i, (dtcMap q.shared).toNat.testBit (setBoth i).bit = true := by
  have hreach : DtcReachable _ _ := Pool.reachable_schedule (fun _ _ _ _ => id)
    [false, false, false, false, true, true, true, true] (DtcPool.start (fun _ => 0) setBoth)
  refine ⟨_, hreach, by decide +kernel, fun i => ?_⟩
  have hkept := dtc_updates_kept setBoth_inMask setBoth_injective hreach (by decide +kernel)
  exact hkept.1 i fun j => by revert i j; decide +kernel

end McuRegWr
