import McuRegWr.Base.Fifo
import McuRegWr.Proof.Ring.Client

/-!
# The MCU's side of a ring

A ring of the MCU is a bounded queue of bytes. Its size registers report its level and its free
space, and a transfer is made whole or not at all: one that asks for more than there is fails and
changes nothing. -/

namespace McuRegWr

open Base Prog

namespace Ring

variable {cap : Nat}

/-- The accesses the ring at `cb_addr` serves, with the queue each of them leaves. -/
def Serves (cb_addr : UInt16) (q : Fifo UInt8 cap) :
    (o : RegOp) → RegOp.Ans o → Fifo UInt8 cap → Prop
  | .readReg addr cnt _, .ok bytes, q' =>
      addr = cb_addr + CBREG_CMD_GET_SIZE ∧ bytes.val = leBytes 4 q.level ∧ q' = q ∨
      addr = cb_addr + CBREG_CMD_GET_FREESIZE ∧ bytes.val = leBytes 4 q.free ∧ q' = q ∨
      addr = cb_addr + CBREG_CMD_READ ∧ cnt.toNat ≤ q.level ∧ bytes.val = q.front cnt.toNat ∧
        q' = q.pop cnt.toNat ∨
      addr = cb_addr + CBREG_CMD_PEEP ∧ cnt.toNat ≤ q.level ∧ bytes.val = q.front cnt.toNat ∧ q' = q
  | .readReg addr cnt _, .error _, q' =>
      (addr = cb_addr + CBREG_CMD_READ ∨ addr = cb_addr + CBREG_CMD_PEEP) ∧ q.level < cnt.toNat ∧
        q' = q
  | .writeReg addr data _, .ok _, q' =>
      addr = cb_addr + CBREG_CMD_WRITE ∧ (∃ h : data.length ≤ q.free, q' = q.push data h) ∨
      addr = cb_addr + CBREG_CMD_CLEAN ∧ q' = .empty ∨
      addr = cb_addr + CBREG_CMD_READAIR ∧ ofLeBytes data ≤ q.level ∧ q' = q.pop (ofLeBytes data)
  | .writeReg addr data _, .error _, q' =>
      (addr = cb_addr + CBREG_CMD_WRITE ∧ q.free < data.length ∨
        addr = cb_addr + CBREG_CMD_READAIR ∧ q.level < ofLeBytes data) ∧ q' = q
  | _, _, _ => False

variable {cb_addr : UInt16} {q q' : Fifo UInt8 cap} {timeout : UInt32}

theorem reg_ne {a b : UInt16} (h : a ≠ b) : cb_addr + a ≠ cb_addr + b := by
  intro heq
  apply h
  have hcancel := congrArg (fun x => x - cb_addr) heq
  simpa [UInt16.add_comm cb_addr, UInt16.add_sub_cancel] using hcancel

/-- A ring serves the registers of its block and no others. -/
theorem serves_block {addr cnt : UInt16} {r : RegOp.Ans (.readReg addr cnt timeout)}
    (h : Serves cb_addr q (.readReg addr cnt timeout) r q') : addr - cb_addr ≤ CBREG_CMD_PEEP := by
  have hblock {cmd : UInt16} (hcmd : cmd ≤ CBREG_CMD_PEEP) (haddr : addr = cb_addr + cmd) :
      addr - cb_addr ≤ CBREG_CMD_PEEP := by
    rwa [haddr, UInt16.add_comm, UInt16.add_sub_cancel]
  cases r with
  | error code =>
      rcases h with ⟨haddr | haddr, -⟩
      · exact hblock (by decide) haddr
      · exact hblock (by decide) haddr
  | ok bytes =>
      rcases h with ⟨haddr, -⟩ | ⟨haddr, -⟩ | ⟨haddr, -⟩ | ⟨haddr, -⟩
      · exact hblock (by decide) haddr
      · exact hblock (by decide) haddr
      · exact hblock (by decide) haddr
      · exact hblock (by decide) haddr

theorem serves_block_write {addr : UInt16} {data : List UInt8}
    {r : RegOp.Ans (.writeReg addr data timeout)}
    (h : Serves cb_addr q (.writeReg addr data timeout) r q') :
    addr - cb_addr ≤ CBREG_CMD_PEEP := by
  have hblock {cmd : UInt16} (hcmd : cmd ≤ CBREG_CMD_PEEP) (haddr : addr = cb_addr + cmd) :
      addr - cb_addr ≤ CBREG_CMD_PEEP := by
    rwa [haddr, UInt16.add_comm, UInt16.add_sub_cancel]
  cases r with
  | error code =>
      rcases h with ⟨⟨haddr, -⟩ | ⟨haddr, -⟩, -⟩
      · exact hblock (by decide) haddr
      · exact hblock (by decide) haddr
  | ok u =>
      rcases h with ⟨haddr, -⟩ | ⟨haddr, -⟩ | ⟨haddr, -⟩
      · exact hblock (by decide) haddr
      · exact hblock (by decide) haddr
      · exact hblock (by decide) haddr

theorem serves_size {r : RegOp.Ans (.readReg (cb_addr + CBREG_CMD_GET_SIZE) 4 timeout)}
    (h : Serves cb_addr q (.readReg (cb_addr + CBREG_CMD_GET_SIZE) 4 timeout) r q') :
    q' = q ∧ ∃ size, r = .ok size ∧ size.val = leBytes 4 q.level := by
  cases r with
  | error code =>
      rcases h with ⟨haddr | haddr, -⟩
      · exact absurd haddr (reg_ne (by decide))
      · exact absurd haddr (reg_ne (by decide))
  | ok size =>
      rcases h with ⟨-, hval, rfl⟩ | ⟨haddr, -⟩ | ⟨haddr, -⟩ | ⟨haddr, -⟩
      · exact ⟨rfl, size, rfl, hval⟩
      · exact absurd haddr (reg_ne (by decide))
      · exact absurd haddr (reg_ne (by decide))
      · exact absurd haddr (reg_ne (by decide))

theorem serves_freeSize {r : RegOp.Ans (.readReg (cb_addr + CBREG_CMD_GET_FREESIZE) 4 timeout)}
    (h : Serves cb_addr q (.readReg (cb_addr + CBREG_CMD_GET_FREESIZE) 4 timeout) r q') :
    q' = q ∧ ∃ size, r = .ok size ∧ size.val = leBytes 4 q.free := by
  cases r with
  | error code =>
      rcases h with ⟨haddr | haddr, -⟩
      · exact absurd haddr (reg_ne (by decide))
      · exact absurd haddr (reg_ne (by decide))
  | ok size =>
      rcases h with ⟨haddr, -⟩ | ⟨-, hval, rfl⟩ | ⟨haddr, -⟩ | ⟨haddr, -⟩
      · exact absurd haddr (reg_ne (by decide))
      · exact ⟨rfl, size, rfl, hval⟩
      · exact absurd haddr (reg_ne (by decide))
      · exact absurd haddr (reg_ne (by decide))

/-- A read moves the oldest bytes out, or fails and moves none. -/
theorem serves_read {cnt : UInt16} {r : RegOp.Ans (.readReg (cb_addr + CBREG_CMD_READ) cnt timeout)}
    (h : Serves cb_addr q (.readReg (cb_addr + CBREG_CMD_READ) cnt timeout) r q') :
    (∃ code, r = .error code) ∧ q' = q ∨
      ∃ bytes, r = .ok bytes ∧ cnt.toNat ≤ q.level ∧ bytes.val = q.front cnt.toNat ∧
        q' = q.pop cnt.toNat := by
  cases r with
  | error code => exact .inl ⟨⟨code, rfl⟩, h.2.2⟩
  | ok bytes =>
      rcases h with ⟨haddr, -⟩ | ⟨haddr, -⟩ | ⟨-, hmoved⟩ | ⟨haddr, -⟩
      · exact absurd haddr (reg_ne (by decide))
      · exact absurd haddr (reg_ne (by decide))
      · exact .inr ⟨bytes, rfl, hmoved⟩
      · exact absurd haddr (reg_ne (by decide))

/-- A peep shows the oldest bytes and moves none. -/
theorem serves_peep {cnt : UInt16} {r : RegOp.Ans (.readReg (cb_addr + CBREG_CMD_PEEP) cnt timeout)}
    (h : Serves cb_addr q (.readReg (cb_addr + CBREG_CMD_PEEP) cnt timeout) r q') :
    q' = q ∧ ((∃ code, r = .error code) ∨
      ∃ bytes, r = .ok bytes ∧ cnt.toNat ≤ q.level ∧ bytes.val = q.front cnt.toNat) := by
  cases r with
  | error code => exact ⟨h.2.2, .inl ⟨code, rfl⟩⟩
  | ok bytes =>
      rcases h with ⟨haddr, -⟩ | ⟨haddr, -⟩ | ⟨haddr, -⟩ | ⟨-, hle, hval, hsame⟩
      · exact absurd haddr (reg_ne (by decide))
      · exact absurd haddr (reg_ne (by decide))
      · exact absurd haddr (reg_ne (by decide))
      · exact ⟨hsame, .inr ⟨bytes, rfl, hle, hval⟩⟩

/-- A skip moves the oldest bytes out, or fails and moves none. -/
theorem serves_readAir {data : List UInt8}
    {r : RegOp.Ans (.writeReg (cb_addr + CBREG_CMD_READAIR) data timeout)}
    (h : Serves cb_addr q (.writeReg (cb_addr + CBREG_CMD_READAIR) data timeout) r q') :
    (∃ code, r = .error code) ∧ q' = q ∨
      r = .ok () ∧ ofLeBytes data ≤ q.level ∧ q' = q.pop (ofLeBytes data) := by
  cases r with
  | error code => exact .inl ⟨⟨code, rfl⟩, h.2⟩
  | ok u =>
      rcases h with ⟨haddr, -⟩ | ⟨haddr, -⟩ | ⟨-, hmoved⟩
      · exact absurd haddr (reg_ne (by decide))
      · exact absurd haddr (reg_ne (by decide))
      · exact .inr ⟨rfl, hmoved⟩

/-- A write moves its bytes in, or fails and moves none. -/
theorem serves_write {data : List UInt8}
    {r : RegOp.Ans (.writeReg (cb_addr + CBREG_CMD_WRITE) data timeout)}
    (h : Serves cb_addr q (.writeReg (cb_addr + CBREG_CMD_WRITE) data timeout) r q') :
    (∃ code, r = .error code) ∧ q' = q ∨
      r = .ok () ∧ ∃ h : data.length ≤ q.free, q' = q.push data h := by
  cases r with
  | error code => exact .inl ⟨⟨code, rfl⟩, h.2⟩
  | ok u =>
      rcases h with ⟨-, hmoved⟩ | ⟨haddr, -⟩ | ⟨haddr, -⟩
      · exact .inr ⟨rfl, hmoved⟩
      · exact absurd haddr (reg_ne (by decide))
      · exact absurd haddr (reg_ne (by decide))

/-! ### A ring that answers -/

/-- The result of an access that was not made. -/
def refused : Fail := ⟨-1, by decide⟩

/-- The result of an access whose last acknowledgement is missing. -/
def unacknowledged : Fail := ⟨-2, by decide⟩

/-- The answer of the ring to a query or a transfer. -/
def answer (cb_addr : UInt16) (q : Fifo UInt8 cap) :
    (o : RegOp) → Option (RegOp.Ans o × Fifo UInt8 cap)
  | .readReg addr cnt _ =>
      if hsize : addr = cb_addr + CBREG_CMD_GET_SIZE ∧ cnt = 4 then
        some (.ok ⟨leBytes 4 q.level, by rw [hsize.2, length_leBytes]; rfl⟩, q)
      else if hfree : addr = cb_addr + CBREG_CMD_GET_FREESIZE ∧ cnt = 4 then
        some (.ok ⟨leBytes 4 q.free, by rw [hfree.2, length_leBytes]; rfl⟩, q)
      else if addr = cb_addr + CBREG_CMD_READ then
        if hle : cnt.toNat ≤ q.level then
          some (.ok ⟨q.front cnt.toNat, Fifo.length_front hle⟩, q.pop cnt.toNat)
        else some (.error unacknowledged, q)
      else none
  | .writeReg addr data _ =>
      if addr = cb_addr + CBREG_CMD_WRITE then
        if hfits : data.length ≤ q.free then some (.ok (), q.push data hfits)
        else some (.error unacknowledged, q)
      else none
  | _ => none

theorem serves_answer {o : RegOp} {r : RegOp.Ans o} (h : answer cb_addr q o = some (r, q')) :
    Serves cb_addr q o r q' := by
  cases o with
  | readReg addr cnt timeout =>
      simp only [answer] at h
      split at h
      · rename_i hsize
        obtain ⟨rfl, rfl⟩ := Prod.mk.inj (Option.some.inj h)
        exact .inl ⟨hsize.1, rfl, rfl⟩
      split at h
      · rename_i hfree
        obtain ⟨rfl, rfl⟩ := Prod.mk.inj (Option.some.inj h)
        exact .inr (.inl ⟨hfree.1, rfl, rfl⟩)
      split at h
      · rename_i hread
        split at h
        · rename_i hle
          obtain ⟨rfl, rfl⟩ := Prod.mk.inj (Option.some.inj h)
          exact .inr (.inr (.inl ⟨hread, hle, rfl, rfl⟩))
        · rename_i hle
          obtain ⟨rfl, rfl⟩ := Prod.mk.inj (Option.some.inj h)
          exact ⟨.inl hread, not_le.mp hle, rfl⟩
      · simp at h
  | writeReg addr data timeout =>
      simp only [answer] at h
      split at h
      · rename_i hwrite
        split at h
        · rename_i hfits
          obtain ⟨rfl, rfl⟩ := Prod.mk.inj (Option.some.inj h)
          exact .inl ⟨hwrite, hfits, rfl⟩
        · rename_i hfits
          obtain ⟨rfl, rfl⟩ := Prod.mk.inj (Option.some.inj h)
          exact ⟨.inl ⟨hwrite, not_le.mp hfits⟩, rfl⟩
      · simp at h
  | _ => simp [answer] at h

end Ring

end McuRegWr
