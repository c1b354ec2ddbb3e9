import McuRegWr.Proof.Transport.Burst

/-!
# An answer to another command

The header of a command travels without a checksum of its own, but the checksum of the data starts
where the header left the register. Headers of two addresses, or of two opcodes, leave it in
different states, and no byte of the data brings the states together again.
-/

namespace McuRegWr

open Base Prog

/-- A command that differs from `cmd` at `reg_addr` in the address, or else in the opcode. -/
def OtherCommand (cmd : UInt8) (reg_addr : UInt16) (cmd' : UInt8) (reg_addr' : UInt16) : Prop :=
  cmd' = cmd ∧ reg_addr' ≠ reg_addr ∨ cmd' ≠ cmd ∧ reg_addr' = reg_addr

/-- The data frame that an MCU builds for a command. -/
def answerFrame (cmd : UInt8) (reg_addr reg_cnt : UInt16) (payload : List UInt8) : List UInt8 :=
  payload ++ bigEndian (frameCrc cmd reg_addr reg_cnt payload)

theorem zipWith_xor_self (bytes : List UInt8) :
    List.zipWith (· ^^^ ·) bytes bytes = List.replicate bytes.length 0 := by
  rw [List.zipWith_self, ← List.map_const']
  exact List.map_congr_left fun b _ => UInt8.xor_self

/-- Two checksums differ by what the register makes of the difference of the headers. -/
theorem frameCrc_xor (cmd cmd' : UInt8) (reg_addr reg_addr' reg_cnt : UInt16)
    (payload : List UInt8) :
    frameCrc cmd reg_addr reg_cnt payload ^^^ frameCrc cmd' reg_addr' reg_cnt payload =
      crcFold.run 0 ([cmd ^^^ cmd', hi reg_addr ^^^ hi reg_addr', lo reg_addr ^^^ lo reg_addr'] ++
        List.replicate (2 + (payload.take reg_cnt.toNat).length) 0) := by
  let data := payload.take reg_cnt.toNat
  have hdiff : List.zipWith (· ^^^ ·) (header cmd reg_addr reg_cnt ++ data)
      (header cmd' reg_addr' reg_cnt ++ data) =
      [cmd ^^^ cmd', hi reg_addr ^^^ hi reg_addr', lo reg_addr ^^^ lo reg_addr'] ++
        (List.replicate 2 0 ++ List.replicate data.length 0) := by
    have hcnt : List.replicate 2 0 = [hi reg_cnt ^^^ hi reg_cnt, lo reg_cnt ^^^ lo reg_cnt] := by
      rw [UInt8.xor_self, UInt8.xor_self]
      rfl
    rw [← zipWith_xor_self data, hcnt]
    rfl
  have hlen : (header cmd reg_addr reg_cnt ++ data).length =
      (header cmd' reg_addr' reg_cnt ++ data).length := by
    rw [List.length_append, List.length_append]
    rfl
  calc frameCrc cmd reg_addr reg_cnt payload ^^^ frameCrc cmd' reg_addr' reg_cnt payload
      = crcFold.run 0xffff (header cmd reg_addr reg_cnt ++ data) ^^^
          crcFold.run 0xffff (header cmd' reg_addr' reg_cnt ++ data) := by
        rw [crcFold.run_append, crcFold.run_append]
        rfl
    _ = crcFold.run (0xffff ^^^ 0xffff) (List.zipWith (· ^^^ ·)
          (header cmd reg_addr reg_cnt ++ data) (header cmd' reg_addr' reg_cnt ++ data)) :=
        (crcFold.run_xor _ _ _ _ hlen).symm
    _ = _ := by
        rw [hdiff, UInt16.xor_self, List.replicate_append_replicate]

theorem frameCrc_ne {cmd cmd' : UInt8} {reg_addr reg_addr' : UInt16}
    (h : OtherCommand cmd reg_addr cmd' reg_addr') (reg_cnt : UInt16) (payload : List UInt8) :
    frameCrc cmd reg_addr reg_cnt payload ≠ frameCrc cmd' reg_addr' reg_cnt payload := by
  intro heq
  have hzero := UInt16.xor_eq_zero_iff.mpr heq
  rw [frameCrc_xor, crcFold.run_append] at hzero
  have hhead := (crcFold.run_replicate_eq_zero_iff _ _).mp hzero
  rcases h with ⟨rfl, hne⟩ | ⟨hne, rfl⟩
  · rw [UInt8.xor_self] at hhead
    obtain ⟨hhi, hlo⟩ := crcPair_eq_zero hhead
    apply hne
    rw [← hi_lo reg_addr, ← hi_lo reg_addr', UInt8.xor_eq_zero_iff.mp hhi,
      UInt8.xor_eq_zero_iff.mp hlo]
  · rw [UInt8.xor_self, UInt8.xor_self] at hhead
    have hcmd := (crcFold.run_replicate_eq_zero_iff (crcOfByte (cmd ^^^ cmd')) 2).mp hhead
    obtain ⟨hxor, -⟩ := crcPair_eq_zero (b := 0) (by rw [hcmd]; rfl)
    exact hne (UInt8.xor_eq_zero_iff.mp hxor).symm

/-- The checksum of a read never agrees with that of another address or opcode, and a data frame
built for one of them is refused. -/
theorem SpiReg.read_other_command (h : SpiRegHandle) (reg_addr reg_cnt : UInt16)
    (reg_data : List UInt8) (timeout : UInt32) (payload : List UInt8)
    (hcnt : reg_cnt.toNat ≤ 1022) (hlen : payload.length = reg_cnt.toNat) :
    (∀ cmd reg_addr' cmd', OtherCommand cmd reg_addr cmd' reg_addr' →
      frameCrc cmd reg_addr reg_cnt payload ≠ frameCrc cmd' reg_addr' reg_cnt payload) ∧
    ∀ reg_addr' cmd', OtherCommand SPI_CMD_READ_REG reg_addr cmd' reg_addr' →
      ∀ t ret reg_data' rx,
        Runs (SpiReg.read (some h) reg_addr reg_cnt reg_data timeout) t (ret, reg_data') →
        Answered t rx →
        rx.take (reg_cnt.toNat + 2) = answerFrame cmd' reg_addr' reg_cnt payload →
        ret = -3 ∧ reg_data' = reg_data := by
  refine ⟨fun cmd reg_addr' cmd' hother => frameCrc_ne hother reg_cnt payload, ?_⟩
  intro reg_addr' cmd' hother t ret reg_data' rx hrun hans hrx
  have hword : wordAt rx reg_cnt.toNat = frameCrc cmd' reg_addr' reg_cnt payload := by
    rw [← wordAt_take (le_refl (reg_cnt.toNat + 2)), hrx, answerFrame, ← hlen,
      ← List.append_nil (bigEndian _)]
    exact wordAt_bigEndian _
  have hdata : frameCrc SPI_CMD_READ_REG reg_addr reg_cnt rx =
      frameCrc SPI_CMD_READ_REG reg_addr reg_cnt payload := by
    rw [← frameCrc_take _ _ _ (Nat.le_add_right reg_cnt.toNat 2), hrx, answerFrame,
      ← frameCrc_take _ _ _ (le_refl reg_cnt.toNat), List.take_left' hlen]
  have hmiss : ¬ CrcMatches reg_addr reg_cnt rx := by
    rw [CrcMatches, hword, hdata]
    exact (frameCrc_ne hother reg_cnt payload).symm
  exact refused_of_mismatch hcnt hrun hans hmiss

/-- The answer to a read of the register before it. -/
theorem SpiReg.read_other_command_online_cnt :
    ∃ t ret reg_data' rx, Runs onlineCntRead t (ret, reg_data') ∧ Answered t rx ∧
      rx.take 3 = answerFrame SPI_CMD_READ_REG 0x1010 1 [0x2a] ∧ ret = -3 ∧ reg_data' = [0x00] := by
  have heval : onlineCntRead.eval (ackingMcu [0x2a, 0x64, 0x45]) () = some ((-3, [0x00]), ()) := by
    decide +kernel
  have hans : Answered (onlineCntRead.traceOf (ackingMcu [0x2a, 0x64, 0x45]) ())
      [0x2a, 0x64, 0x45, 0xff, 0xff, 0xff, 0xff, 0xff] :=
    onlineCntRead_answered (by decide +kernel) (by decide +kernel)
  have hrx : [0x2a, 0x64, 0x45, 0xff, 0xff, 0xff, 0xff, 0xff].take 3 =
      answerFrame SPI_CMD_READ_REG 0x1010 1 [0x2a] := by decide +kernel
  have hrefused := (SpiReg.read_other_command ⟨3, 4, 5⟩ 0x1011 1 [0x00] 100 [0x2a] (by decide)
    rfl).2 0x1010 SPI_CMD_READ_REG (.inl ⟨rfl, by decide⟩) _ _ _ _ (runs_traceOf heval) hans hrx
  exact ⟨_, _, _, _, runs_traceOf heval, hans, hrx, hrefused⟩

end McuRegWr
