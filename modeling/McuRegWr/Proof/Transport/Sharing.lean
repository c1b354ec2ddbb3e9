import McuRegWr.Proof.Transport.Prompt

/-!
# Registers that processes share

The locks make the accesses of interleaving processes atomic, and the handshake makes each of them
an access that is carried out or reported failed. Together, what the processes have is the
registers.
-/

namespace McuRegWr

open Base Prog

namespace Mcu

variable {ρ : Type} {R : Registers ρ}

/-- The registers of the MCU and the files of the processes, as the layers above see them: an access
is carried out and reported, or reported failed and carried out or not. -/
def served {φ : Type} (R : Registers ρ) (files : World FileI φ) : World RegI (ρ × φ) :=
  beside (R.world.lossy RegOp.Failed) files

variable {ι π α φ : Type} [DecidableEq π] {proc : ι → π} {handle : π → SpiRegHandle}
  {files : π → World FileI φ}

theorem served_of_serial {i : ι} {s s' : Mcu ρ} {y y' : φ} {o : RegOp} {r : RegOp.Ans o}
    (hfits : o.Fits)
    (haccess : Guard.serial (K := RegI) proc (fun _ => world R) files
      (fun p => SpiReg.access (handle p)) i (s, y) o r (s', y')) :
    served R (files (proc i)) (s.regs, y) o r (s'.regs, y') := by
  have haccess : Exec (Guard.world proc (fun _ => world R) files i)
      (SpiReg.access (handle (proc i)) o) (Guard.free s y) r (Guard.free s' y') := haccess
  have hfree : ∀ {x x' : Mcu ρ} {z z' : φ},
      (Guard.free x z : Guard ι π (Mcu ρ) φ) = Guard.free x' z' → x = x' ∧ z = z' := by
    intro x x' z z' heq
    exact ⟨congrArg Guard.device heq, congrArg Guard.rest heq⟩
  cases o with
  | readReg reg_addr reg_cnt timeout =>
      rw [SpiReg.access_readReg] at haccess
      rcases Guard.of_exec_guarded haccess with ⟨ret, hret, rfl, heq⟩ | ⟨x', hrun, heq⟩
      · obtain ⟨rfl, rfl⟩ := hfree heq
        rw [readAnswer_of_neg hret]
        exact ⟨.inr ⟨trivial, .inl rfl⟩, rfl⟩
      · obtain ⟨rfl, rfl⟩ := hfree heq
        have hlossy := wlp_exec (wlp_readBody s _ hfits) hrun
        exact ⟨hlossy, rfl⟩
  | writeReg reg_addr reg_data timeout =>
      rw [SpiReg.access_writeReg] at haccess
      rcases Guard.of_exec_guarded haccess with ⟨ret, hret, rfl, heq⟩ | ⟨x', hrun, heq⟩
      · obtain ⟨rfl, rfl⟩ := hfree heq
        have hanswer : writeAnswer ret = .error ⟨ret, hret⟩ := dif_pos hret
        rw [hanswer]
        exact ⟨.inr ⟨trivial, .inl rfl⟩, rfl⟩
      · obtain ⟨rfl, rfl⟩ := hfree heq
        have hlossy := wlp_exec (wlp_writeBody s hfits) hrun
        exact ⟨hlossy, rfl⟩
  | _ =>
      obtain ⟨r', _, ⟨y'', hfile, rfl⟩, hend⟩ := exec_ask.mp haccess
      obtain ⟨rfl, heq⟩ := exec_done.mp hend
      obtain ⟨rfl, rfl⟩ := hfree heq
      exact ⟨rfl, hfile⟩

/-- Threads of several processes that interleave their calls on one line, with an MCU at its end,
access the registers as if every access were one step, that is done once and reported, or reported
failed and done at most once. -/
theorem registers_shared [DecidableEq ι] {prog : ι → Prog RegI α} {s : Mcu ρ} {y : φ}
    (hfits : ∀ i, (prog i).Asks RegOp.Fits)
    {c : Threads HostI ι α (Guard ι π (Mcu ρ) φ)}
    (run : Threads.Reachable (Guard.world proc (fun _ => world R) files)
      (SpiReg.begun proc handle prog s y) c)
    {result : ι → α} (hdone : c.Finished result) :
    Threads.Reachable (fun i => served R (files (proc i))) ⟨(s.regs, y), prog⟩
      ⟨(c.shared.device.regs, c.shared.rest), fun i => .done (result i)⟩ := by
  have hserial := Guard.atomic (fun p o => SpiReg.shape_access (handle p) o) run hdone
  exact Threads.Reachable.map (fun x => (x.1.regs, x.2))
    (fun i _ o r _ ho haccess => served_of_serial ho haccess) hserial.1 hfits

/-- Two processes with a thread each that write the same register, with the MCU halfway through an
access of somebody else. -/
def twoWriters.after (sched : List Bool) :
    Threads HostI Bool Int (Guard Bool Bool (Mcu RegFile) Unit) :=
  sched.foldl (Threads.advance (Guard.respond id Server.regFile.mcu SpiReg.noFiles))
    (SpiReg.begun id (fun _ => ⟨3, 4, 5⟩) (fun i => RVMcu.writeReg 0x1010 [i.toUInt8] 1 100)
      ⟨fun _ => 0, .command, [SPI_ACK]⟩ ())

theorem registers_shared_twoWriters :
    let c := twoWriters.after (List.replicate 31 [false, true]).flatten
    Threads.Reachable (fun i => served Server.regFile.registers (SpiReg.twoReaders.files i))
      ⟨(fun _ => 0, ()), fun i : Bool => RVMcu.writeReg 0x1010 [i.toUInt8] 1 100⟩
      ⟨(c.shared.device.regs, c.shared.rest), fun _ => .done 0⟩ := by
  intro c
  have run : Threads.Reachable (Guard.world id (fun _ => world Server.regFile.registers)
      SpiReg.twoReaders.files) _ c :=
    Threads.reachable_schedule (fun _ _ _ _ _ h =>
      Guard.world_of_respond (fun _ => Server.regFile.world_mcu) (fun _ _ _ => rfl) h) _ _
  have hfits : ∀ i : Bool, (RVMcu.writeReg 0x1010 [i.toUInt8] 1 100).Asks RegOp.Fits := fun i =>
    RVMcu.asks_writeReg (by simp [RegOp.Fits])
  have hdone : c.Finished fun _ => 0 := by
    apply Threads.finished_of_outcome
    decide +kernel
  exact registers_shared hfits run hdone

end Mcu

end McuRegWr
