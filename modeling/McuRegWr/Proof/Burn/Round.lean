import McuRegWr.Base.World
import McuRegWr.RearviewMcu

/-!
# A round of the transfer

A round of the loop over a chunk tries the ring once. A try that brought nothing costs a retry, and
one that found the ring full has a look at the status first.
-/

namespace McuRegWr

open Base Prog

variable {σ : Type} {W : World RegI σ} {G : σ → RegOp → Prop} {data : List UInt8} {cs : ChunkState}
  {Q : ChunkState ⊕ Except Int BurnStaReg → σ → Prop} {s : σ}

/-- `Q` of a round that has tried in vain: it is the last one, or costs a retry. -/
def AfterVain (Q : ChunkState ⊕ Except Int BurnStaReg → σ → Prop) (cs : ChunkState)
    (reg : BurnStaReg) (ret : Int) (s : σ) : Prop :=
  if cs.retry > BURN_WR_MAX_RETRY then Q (.inr (.error ret)) s
  else Q (.inl ⟨cs.start, cs.retry + 1, reg⟩) s

/-- `Q` of a round that has asked for the status. -/
def AfterStatus (Q : ChunkState ⊕ Except Int BurnStaReg → σ → Prop) (cs : ChunkState)
    (a : Int × BurnStaReg) (s : σ) : Prop :=
  if a.1 < 0 then Q (.inr (.error a.1)) s
  else if a.2.burn_mode = BURNMODE_BURN_ERROR then Q (.inr (.error (-a.2.parameter.toNat))) s
  else AfterVain Q cs a.2 a.1 s

/-- `Q` of a round whose try has returned `ret`. -/
def AfterTry (W : World RegI σ) (G : σ → RegOp → Prop)
    (Q : ChunkState ⊕ Except Int BurnStaReg → σ → Prop) (cs : ChunkState) (ret : Int) (s : σ) :
    Prop :=
  if ret > 0 then Q (.inl { cs with start := cs.start + ret.toNat }) s
  else if ret = 0 then (readBurnSta cs.reg 500).wlp W G (AfterStatus Q cs) s
  else AfterVain Q cs cs.reg ret s

theorem AfterVain.intro {reg : BurnStaReg} {ret : Int}
    (hlast : BURN_WR_MAX_RETRY < cs.retry → Q (.inr (.error ret)) s)
    (hretry : cs.retry ≤ BURN_WR_MAX_RETRY → Q (.inl ⟨cs.start, cs.retry + 1, reg⟩) s) :
    AfterVain Q cs reg ret s := by
  rw [AfterVain]
  split
  · exact hlast ‹_›
  · exact hretry (Nat.not_lt.mp ‹_›)

theorem AfterStatus.of_neg {a : Int × BurnStaReg} (hret : a.1 < 0)
    (hunread : Q (.inr (.error a.1)) s) : AfterStatus Q cs a s := by
  rwa [AfterStatus, if_pos hret]

theorem AfterStatus.of_read {reg : BurnStaReg}
    (herror : reg.burn_mode = BURNMODE_BURN_ERROR → Q (.inr (.error (-reg.parameter.toNat))) s)
    (hvain : reg.burn_mode ≠ BURNMODE_BURN_ERROR → AfterVain Q cs reg 0 s) :
    AfterStatus Q cs (0, reg) s := by
  rw [AfterStatus, if_neg (lt_irrefl 0)]
  split
  · exact herror ‹_›
  · exact hvain ‹_›

theorem AfterTry.of_pos {ret : Int} (hret : 0 < ret)
    (htook : Q (.inl { cs with start := cs.start + ret.toNat }) s) : AfterTry W G Q cs ret s := by
  rwa [AfterTry, if_pos hret]

theorem AfterTry.of_none {ret : Int} (hret : ret ≤ 0)
    (hfull : ret = 0 → (readBurnSta cs.reg 500).wlp W G (AfterStatus Q cs) s)
    (hvain : ret < 0 → AfterVain Q cs cs.reg ret s) : AfterTry W G Q cs ret s := by
  rw [AfterTry, if_neg (Int.not_lt.mpr hret)]
  split
  · exact hfull ‹_›
  · exact hvain (lt_of_le_of_ne hret ‹_›)

/-- A round is over with the chunk, or tries the ring with what is left of it. -/
theorem wlp_chunkRound (hlen : data.length ≤ BURN_PARTICLE_SIZE)
    (hdone : data.drop cs.start = [] → Q (.inr (.ok cs.reg)) s)
    (hmore : cs.start < data.length → 0 < (data.drop cs.start).length →
      (data.drop cs.start).length < 65536 →
      (RegWrCb.write regWrCbHandle RWREG_CB_BURN_START (data.drop cs.start)
        (UInt32.ofNat (data.drop cs.start).length) 200).wlp W G (AfterTry W G Q cs) s) :
    (burnChunkRound data cs).wlp W G Q s := by
  have hvain : ∀ reg ret t, AfterVain Q cs reg ret t →
      (if cs.retry > BURN_WR_MAX_RETRY then pure (.inr (.error ret))
        else pure (.inl ⟨cs.start, cs.retry + 1, reg⟩) :
          Prog RegI (ChunkState ⊕ Except Int BurnStaReg)).wlp W G Q t := by
    intro reg ret t h
    rw [AfterVain] at h
    split
    · rwa [if_pos ‹_›] at h
    · rwa [if_neg ‹_›] at h
  rw [burnChunkRound]
  split
  · rename_i hlt
    rw [List.length_drop, BURN_PARTICLE_SIZE] at *
    rw [wlp_bind]
    refine wlp_conseq (hmore hlt (by omega) (by omega)) fun ret t h => ?_
    rw [AfterTry] at h
    split
    · rwa [if_pos ‹_›] at h
    rw [if_neg ‹_›] at h
    split
    · rw [if_pos ‹_›] at h
      rw [wlp_bind]
      refine wlp_conseq h fun a u h => ?_
      obtain ⟨ret', reg⟩ := a
      rw [AfterStatus] at h
      dsimp only at h ⊢
      split
      · rwa [if_pos ‹_›] at h
      rw [if_neg ‹_›] at h
      split
      · rwa [if_pos ‹_›] at h
      rw [if_neg ‹_›] at h
      exact hvain reg ret' u h
    · rw [if_neg ‹_›] at h
      exact hvain cs.reg ret t h
  · exact hdone (List.drop_of_length_le (Nat.not_lt.mp ‹_›))

end McuRegWr
