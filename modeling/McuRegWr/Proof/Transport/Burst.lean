import McuRegWr.Proof.Transport.Read

/-!
# Bursts in a read response

An error of two adjacent bytes in the answer to a read is caught by the checksum, unless it
straddles the end of the data. There the reflected checksum meets its big-endian layout: the byte
it would need to cancel the error of the last data byte comes first, and for 31 error bytes it is
the only one. -/

namespace McuRegWr

open Base Prog

/-- The data and the checksum a read of these registers accepts. -/
def readFrame (reg_addr reg_cnt : UInt16) (payload : List UInt8) : List UInt8 :=
  payload ++ bigEndian (frameCrc SPI_CMD_READ_REG reg_addr reg_cnt payload)

/-- The error `a, b` at the offsets `i, i + 1` of `n` bytes. -/
def burst (n i : Nat) (a b : UInt8) : List UInt8 :=
  List.replicate i 0 ++ [a, b] ++ List.replicate (n - i - 2) 0

def corrupted (bytes err : List UInt8) : List UInt8 := List.zipWith (· ^^^ ·) bytes err

/-- The error lies on the last data byte and the first checksum byte and cancels there. -/
def Straddles (reg_cnt : UInt16) (i : Nat) (a b : UInt8) : Prop :=
  i + 1 = reg_cnt.toNat ∧ crc16 0 [a] 1 = wordAt [b, 0] 0

theorem length_burst {n i : Nat} (h : i + 2 ≤ n) (a b : UInt8) : (burst n i a b).length = n := by
  simp only [burst, List.length_append, List.length_replicate, List.length_cons, List.length_nil]
  omega

/-! ### The checksum of a difference -/

theorem word_xor (x y a b : UInt8) :
    UInt16.ofNat ((x ^^^ a).toNat * 256 + (y ^^^ b).toNat) =
      UInt16.ofNat (x.toNat * 256 + y.toNat) ^^^ UInt16.ofNat (a.toNat * 256 + b.toNat) := by
  have hlt (u v : UInt8) : u.toNat * 256 + v.toNat < 2 ^ 16 := by
    have hu := u.toNat_lt
    have hv := v.toNat_lt
    omega
  have hbit (u v : UInt8) (j : Nat) : (u.toNat * 256 + v.toNat).testBit j =
      if j < 8 then v.toNat.testBit j else u.toNat.testBit (j - 8) := by
    rw [Nat.mul_comm]
    exact Nat.testBit_two_pow_mul_add u.toNat v.toNat_lt j
  apply UInt16.toNat_inj.mp
  rw [UInt16.toNat_xor, UInt16.toNat_ofNat', UInt16.toNat_ofNat', UInt16.toNat_ofNat',
    Nat.mod_eq_of_lt (hlt _ _), Nat.mod_eq_of_lt (hlt _ _), Nat.mod_eq_of_lt (hlt _ _)]
  apply Nat.eq_of_testBit_eq
  intro j
  rw [Nat.testBit_xor, hbit, hbit, hbit]
  by_cases hj : j < 8
  · simp only [if_pos hj, UInt8.toNat_xor, Nat.testBit_xor]
  · simp only [if_neg hj, UInt8.toNat_xor, Nat.testBit_xor]

theorem getD_corrupted {bytes err : List UInt8} {i : Nat} (hlen : bytes.length = err.length)
    (hi : i < bytes.length) :
    (corrupted bytes err).getD i 0 = bytes.getD i 0 ^^^ err.getD i 0 := by
  have hi' : i < err.length := hlen ▸ hi
  simp [corrupted, List.getD_eq_getElem?_getD, hi, hi']

theorem wordAt_corrupted {bytes err : List UInt8} {off : Nat} (hlen : bytes.length = err.length)
    (hoff : off + 2 ≤ bytes.length) :
    wordAt (corrupted bytes err) off = wordAt bytes off ^^^ wordAt err off := by
  rw [wordAt, getD_corrupted hlen (by omega), getD_corrupted hlen (by omega)]
  exact word_xor _ _ _ _

theorem xor_eq_xor_iff (c w r : UInt16) : c ^^^ w = c ^^^ r ↔ r = w := by
  rw [UInt16.xor_right_inj]
  exact eq_comm

/-- A corrupted frame is accepted exactly if the error alone, fed to a clear register, is followed
by its own checksum. -/
theorem crcMatches_corrupted {reg_addr reg_cnt : UInt16} {payload err : List UInt8}
    (hlen : payload.length = reg_cnt.toNat) (herr : err.length = reg_cnt.toNat + 2) :
    CrcMatches reg_addr reg_cnt (corrupted (readFrame reg_addr reg_cnt payload) err) ↔
      crcFold.run 0 (err.take reg_cnt.toNat) = wordAt err reg_cnt.toNat := by
  have hframe : (readFrame reg_addr reg_cnt payload).length = err.length := by
    rw [readFrame, List.length_append, hlen, herr]
    rfl
  have hword : wordAt (readFrame reg_addr reg_cnt payload) reg_cnt.toNat =
      frameCrc SPI_CMD_READ_REG reg_addr reg_cnt payload := by
    rw [readFrame, ← hlen, ← List.append_nil (bigEndian _)]
    exact wordAt_bigEndian _
  have htake : (readFrame reg_addr reg_cnt payload).take reg_cnt.toNat = payload := by
    rw [readFrame, ← hlen, List.take_left]
  let head := crc16 0xffff (header SPI_CMD_READ_REG reg_addr reg_cnt) CMD_WR_CMD_LEN
  have hcrc : frameCrc SPI_CMD_READ_REG reg_addr reg_cnt
      (corrupted (readFrame reg_addr reg_cnt payload) err) =
      frameCrc SPI_CMD_READ_REG reg_addr reg_cnt payload ^^^
        crcFold.run 0 (err.take reg_cnt.toNat) := by
    have herrlen : payload.length = (err.take reg_cnt.toNat).length := by
      rw [List.length_take, herr, hlen]
      omega
    have hpay : payload.take reg_cnt.toNat = payload := List.take_of_length_le (by omega)
    calc frameCrc SPI_CMD_READ_REG reg_addr reg_cnt
          (corrupted (readFrame reg_addr reg_cnt payload) err)
        = crcFold.run head
            ((corrupted (readFrame reg_addr reg_cnt payload) err).take reg_cnt.toNat) := rfl
      _ = crcFold.run (head ^^^ 0)
            (List.zipWith (· ^^^ ·) payload (err.take reg_cnt.toNat)) := by
          rw [corrupted, List.take_zipWith, htake, UInt16.xor_zero]
      _ = crcFold.run head payload ^^^ crcFold.run 0 (err.take reg_cnt.toNat) :=
          crcFold.run_xor _ _ _ _ herrlen
      _ = _ := by
          rw [frameCrc, crc16_eq_run, hpay]
  rw [CrcMatches, wordAt_corrupted hframe (by omega), hword, hcrc, xor_eq_xor_iff]

/-! ### The three places of a burst -/

theorem getD_burst (n i : Nat) (a b : UInt8) (j : Nat) :
    (burst n i a b).getD j 0 = if j = i then a else if j = i + 1 then b else 0 := by
  rw [burst, List.getD_eq_getElem?_getD]
  grind

theorem burst_take {n k i : Nat} {a b : UInt8} {front back : List UInt8}
    (hsplit : burst n i a b = front ++ back) (hk : front.length = k) :
    (burst n i a b).take k = front := by
  rw [hsplit, ← hk, List.take_left]

theorem run_zeros_append (n : Nat) (xs : List UInt8) :
    crcFold.run 0 (List.replicate n 0 ++ xs) = crcFold.run 0 xs := by
  rw [crcFold.run_append]
  exact congrArg (fun c => crcFold.run c xs) (crcFold.run_zeros n)

/-- Inside the data the register never comes back to zero. -/
theorem run_burst_inside {k i : Nat} (h : i + 2 ≤ k) {a b : UInt8} (hab : a ≠ 0 ∨ b ≠ 0) :
    crcFold.run 0 ((burst (k + 2) i a b).take k) ≠ 0 := by
  have hfront : (burst (k + 2) i a b).take k =
      List.replicate i 0 ++ ([a, b] ++ List.replicate (k - i - 2) 0) := by
    apply @burst_take _ _ _ _ _ _ (List.replicate 2 0)
    · have hpad : k + 2 - i - 2 = k - i - 2 + 2 := by omega
      rw [burst, hpad, ← List.replicate_append_replicate]
      simp only [List.append_assoc]
    · simp only [List.length_append, List.length_replicate, List.length_cons, List.length_nil]
      omega
  rw [hfront, run_zeros_append, crcFold.run_append]
  intro hzero
  have hpair := (crcFold.run_replicate_eq_zero_iff _ _).mp hzero
  obtain ⟨ha, hb⟩ := crcPair_eq_zero hpair
  exact hab.elim (· ha) (· hb)

theorem run_burst_straddling {k i : Nat} (h : i + 1 = k) (a b : UInt8) :
    crcFold.run 0 ((burst (k + 2) i a b).take k) = crc16 0 [a] 1 := by
  have hfront : (burst (k + 2) i a b).take k = List.replicate i 0 ++ [a] := by
    apply @burst_take _ _ _ _ _ _ (b :: List.replicate (k + 2 - i - 2) 0)
    · simp [burst]
    · simpa using h
  rw [hfront, run_zeros_append]
  rfl

theorem run_burst_behind (k : Nat) (a b : UInt8) :
    crcFold.run 0 ((burst (k + 2) k a b).take k) = 0 := by
  have hfront : (burst (k + 2) k a b).take k = List.replicate k 0 := by
    apply @burst_take _ _ _ _ _ _ ([a, b] ++ List.replicate (k + 2 - k - 2) 0)
    · rw [burst, List.append_assoc]
    · exact List.length_replicate
  rw [hfront]
  exact crcFold.run_zeros k

theorem word_eq_zero {a b : UInt8} (h : UInt16.ofNat (a.toNat * 256 + b.toNat) = 0) :
    a = 0 ∧ b = 0 := by
  have ha := a.toNat_lt
  have hb := b.toNat_lt
  have hval := congrArg UInt16.toNat h
  rw [UInt16.toNat_ofNat', Nat.mod_eq_of_lt (by omega)] at hval
  change a.toNat * 256 + b.toNat = 0 at hval
  exact ⟨UInt8.toNat_inj.mp (show a.toNat = 0 by omega),
    UInt8.toNat_inj.mp (show b.toNat = 0 by omega)⟩

/-- Of all bursts only one that straddles is followed by its own checksum. -/
theorem burst_accepted_iff {reg_cnt : UInt16} {i : Nat} (hi : i ≤ reg_cnt.toNat) {a b : UInt8}
    (hab : a ≠ 0 ∨ b ≠ 0) :
    crcFold.run 0 ((burst (reg_cnt.toNat + 2) i a b).take reg_cnt.toNat) =
      wordAt (burst (reg_cnt.toNat + 2) i a b) reg_cnt.toNat ↔ Straddles reg_cnt i a b := by
  have hword : wordAt (burst (reg_cnt.toNat + 2) i a b) reg_cnt.toNat = UInt16.ofNat
      ((if reg_cnt.toNat = i then a else if reg_cnt.toNat = i + 1 then b else 0).toNat * 256 +
        (if reg_cnt.toNat + 1 = i then a
          else if reg_cnt.toNat + 1 = i + 1 then b else 0).toNat) := by
    rw [wordAt, getD_burst, getD_burst]
  have hnext : reg_cnt.toNat + 1 ≠ i := by omega
  rw [if_neg hnext] at hword
  by_cases hin : i + 2 ≤ reg_cnt.toNat
  · rw [if_neg (by omega), if_neg (by omega), if_neg (by omega)] at hword
    rw [hword]
    exact ⟨fun heq => absurd heq (run_burst_inside hin hab), fun hstr => by
      have := hstr.1
      omega⟩
  by_cases hstr : i + 1 = reg_cnt.toNat
  · rw [if_neg (by omega), if_pos (by omega), if_neg (by omega)] at hword
    rw [hword, run_burst_straddling hstr]
    exact ⟨fun heq => ⟨hstr, heq⟩, fun hs => hs.2⟩
  · obtain rfl : i = reg_cnt.toNat := by omega
    rw [if_pos rfl, if_pos rfl] at hword
    rw [hword, run_burst_behind]
    constructor
    · intro heq
      obtain ⟨ha, hb⟩ := word_eq_zero heq.symm
      exact absurd hab (by simp [ha, hb])
    · intro hs
      exact absurd hs.1 (Nat.succ_ne_self _)

/-! ### A whole call -/

/-- An answer that differs from the expected one by a burst is refused and leaves the caller's
buffer, unless the burst straddles the end of the data, and then it is accepted. -/
theorem SpiReg.read_burst (h : SpiRegHandle) (reg_addr reg_cnt : UInt16) (reg_data : List UInt8)
    (timeout : UInt32) (payload : List UInt8) (i : Nat) (a b : UInt8)
    (hcnt : reg_cnt.toNat ≤ 1022) (hlen : payload.length = reg_cnt.toNat)
    (hi : i ≤ reg_cnt.toNat) (hab : a ≠ 0 ∨ b ≠ 0) (t : List SysI.Event) (ret : Int)
    (reg_data' rx : List UInt8)
    (hrun : Runs (SpiReg.read (some h) reg_addr reg_cnt reg_data timeout) t (ret, reg_data'))
    (hans : Answered t rx)
    (hrx : rx.take (reg_cnt.toNat + 2) =
      corrupted (readFrame reg_addr reg_cnt payload) (burst (reg_cnt.toNat + 2) i a b)) :
    (¬ Straddles reg_cnt i a b → ret = -3 ∧ reg_data' = reg_data) ∧
      (Straddles reg_cnt i a b → ret = 0) := by
  have hburst : (burst (reg_cnt.toNat + 2) i a b).length = reg_cnt.toNat + 2 :=
    length_burst (by omega) a b
  have hiff : CrcMatches reg_addr reg_cnt rx ↔ Straddles reg_cnt i a b := by
    rw [← burst_accepted_iff hi hab, ← crcMatches_corrupted hlen hburst, ← hrx, CrcMatches,
      CrcMatches, wordAt_take (le_refl _), frameCrc_take _ _ _ (Nat.le_add_right _ _)]
  obtain ⟨-, hend⟩ := runs_read hcnt hrun
  cases hend with
  | givenUp hret hnone => exact absurd hans (hnone rx)
  | mismatch hans' hle hcrc =>
      rw [hans'.rx_eq hans, hiff] at hcrc
      exact ⟨fun _ => ⟨rfl, rfl⟩, fun hs => absurd hs hcrc⟩
  | accepted hans' hle hcrc =>
      rw [hans'.rx_eq hans, hiff] at hcrc
      exact ⟨fun hs => absurd hcrc hs, fun _ => rfl⟩

/-- The error bytes that a straddling burst can hide. -/
example : (List.range 256).countP (fun a => (crcOfByte (UInt8.ofNat a)).toNat % 256 = 0 ∧ a ≠ 0) =
    31 := by decide +kernel

/-- A read of `mpu_online_cnt` from an MCU that acknowledges everything. -/
abbrev onlineCntRead : Prog SysI (Int × List UInt8) :=
  SpiReg.read (some ⟨3, 4, 5⟩) 0x1011 1 [0x00] 100

theorem onlineCntRead_answered {answer rx : List UInt8}
    (hflocks : flocks (onlineCntRead.traceOf (ackingMcu answer) ()) = [0])
    (hphases : phases (onlineCntRead.traceOf (ackingMcu answer) ()) =
      [.sent [83] 1, .got 65, .moved [3, 16, 17, 0, 1, 255, 255, 255] 8 rx, .got 65,
        .moved [3, 16, 17, 0, 1, 255, 255, 255] 8 rx, .got 65]) :
    Answered (onlineCntRead.traceOf (ackingMcu answer) ()) rx :=
  ⟨⟨0, hflocks, le_refl _⟩, _, _, 8, rx, 8, by decide, by decide, hphases⟩

/-- The data byte `0x2a` arrives as `0x26` and the checksum `0x9844` as `0x9d44`. -/
theorem SpiReg.read_burst_missed :
    ∃ t rx, Runs onlineCntRead t (0, [0x26]) ∧ Answered t rx ∧
      rx.take 3 = corrupted (readFrame 0x1011 1 [0x2a]) (burst 3 0 0x0c 0x05) := by
  have heval : onlineCntRead.eval (ackingMcu [0x26, 0x9d, 0x44]) () = some ((0, [0x26]), ()) := by
    decide +kernel
  have hans : Answered (onlineCntRead.traceOf (ackingMcu [0x26, 0x9d, 0x44]) ())
      [0x26, 0x9d, 0x44, 0xff, 0xff, 0xff, 0xff, 0xff] :=
    onlineCntRead_answered (by decide +kernel) (by decide +kernel)
  exact ⟨_, _, runs_traceOf heval, hans, by decide +kernel⟩

theorem SpiReg.read_burst_caught :
    ∃ t rx ret reg_data, Runs onlineCntRead t (ret, reg_data) ∧ Answered t rx ∧
      rx.take 3 = corrupted (readFrame 0x1011 1 [0x2a]) (burst 3 1 0x01 0x00) ∧
      ret = -3 ∧ reg_data = [0x00] := by
  have heval : onlineCntRead.eval (ackingMcu [0x2a, 0x99, 0x44]) () = some ((-3, [0x00]), ()) := by
    decide +kernel
  have hans : Answered (onlineCntRead.traceOf (ackingMcu [0x2a, 0x99, 0x44]) ())
      [0x2a, 0x99, 0x44, 0xff, 0xff, 0xff, 0xff, 0xff] :=
    onlineCntRead_answered (by decide +kernel) (by decide +kernel)
  have hrx : [0x2a, 0x99, 0x44, 0xff, 0xff, 0xff, 0xff, 0xff].take 3 =
      corrupted (readFrame 0x1011 1 [0x2a]) (burst 3 1 0x01 0x00) := by decide +kernel
  refine ⟨_, _, _, _, runs_traceOf heval, hans, hrx, ?_⟩
  refine (SpiReg.read_burst ⟨3, 4, 5⟩ 0x1011 1 [0x00] 100 [0x2a] 1 0x01 0x00 (by decide) rfl
    (by decide) (by decide) _ _ _ _ (runs_traceOf heval) hans hrx).1 ?_
  exact fun hstr => absurd hstr.1 (by decide)

end McuRegWr
