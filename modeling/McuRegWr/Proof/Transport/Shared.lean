import McuRegWr.Base.Atomic
import McuRegWr.Proof.Transport.Write
import McuRegWr.Reg

/-!
# Processes that share the transport

Several processes with several threads each, every one of them with programs of its own, on one
serial port and one SPI bus. All that keeps them apart are the mutex of a handle and the lock on a
file every process has open. An access is a section under these two locks, so the threads that
interleave call by call access the registers one after the other. -/

namespace McuRegWr

open Base Prog

/-! ### An access by its calls -/

def RegOp.isAccess : RegOp → Bool
  | .readReg _ _ _ => true
  | .writeReg _ _ _ => true
  | _ => false

/-- What a program asks besides its register accesses. -/
abbrev FileI : Iface := ⟨{o : RegOp // o.isAccess = false}, fun o => RegOp.Ans o.val⟩

namespace FileI

abbrev openFile (path : String) : FileI.Op := ⟨.openFile path, rfl⟩

abbrev readFile (fd : Int) (count : Nat) : FileI.Op := ⟨.readFile fd count, rfl⟩

abbrev closeFile (fd : Int) : FileI.Op := ⟨.closeFile fd, rfl⟩

abbrev usleep (usec : Nat) : FileI.Op := ⟨.usleep usec, rfl⟩

end FileI

/-- Registers beside the files. -/
def beside {ρ φ : Type} (regs : World RegI ρ) (files : World FileI φ) : World RegI (ρ × φ)
  | (m, y), o, r, (m', y') =>
      if h : o.isAccess = false then m' = m ∧ files y ⟨o, h⟩ r y' else regs m o r m' ∧ y' = y

abbrev HostI : Iface := GuardI SysI FileI

def SysOp.isLock : SysOp → Bool
  | .mutexLock => true
  | .mutexUnlock => true
  | .flock _ _ => true
  | _ => false

/-- A call of the transport is one of the locks or one of the bus. Every process has the same file
open under its `lock_fd`. -/
def hostOp : (o : SysOp) → Prog HostI (SysOp.Ans o)
  | .mutexLock => @req HostI .lock
  | .mutexUnlock => @req HostI .unlock
  | .flock _ .LOCK_EX => @req HostI .acquire
  | .flock _ .LOCK_UN => @req HostI .release
  | .tcflush fd => @req HostI (.dev (.tcflush fd))
  | .write fd data => @req HostI (.dev (.write fd data))
  | .poll fd timeout => @req HostI (.dev (.poll fd timeout))
  | .read fd size => @req HostI (.dev (.read fd size))
  | .spiMessage fd tx => @req HostI (.dev (.spiMessage fd tx))

theorem hostOp_of_not_lock {o : SysOp} (h : o.isLock = false) :
    hostOp o = @req HostI (.dev o) := by
  cases o <;> first | rfl | cases h

/-- What a read reports, by the result and the buffer it leaves. -/
def readAnswer (reg_cnt : UInt16) (res : Int × List UInt8) :
    Except Fail {bytes : List UInt8 // bytes.length = reg_cnt.toNat} :=
  if h : res.1 < 0 then .error ⟨res.1, h⟩
  else .ok ⟨(res.2 ++ List.replicate reg_cnt.toNat 0).take reg_cnt.toNat, by simp⟩

def writeAnswer (ret : Int) : Except Fail Unit := if h : ret < 0 then .error ⟨ret, h⟩ else .ok ()

namespace SpiReg

/-- An operation of a program, by the calls it makes through the handle `h`. -/
def access (h : SpiRegHandle) : (o : RegOp) → Prog HostI (RegOp.Ans o)
  | .readReg reg_addr reg_cnt timeout =>
      (do
        let res ← SpiReg.read (some h) reg_addr reg_cnt (List.replicate reg_cnt.toNat 0) timeout
        return readAnswer reg_cnt res).lower hostOp
  | .writeReg reg_addr reg_data timeout =>
      (do
        let ret ← SpiReg.write (some h) reg_addr (UInt16.ofNat reg_data.length) reg_data timeout
        return writeAnswer ret).lower hostOp
  | .openFile path => @req HostI (.own (FileI.openFile path))
  | .readFile fd count => @req HostI (.own (FileI.readFile fd count))
  | .closeFile fd => @req HostI (.own (FileI.closeFile fd))
  | .usleep usec => @req HostI (.own (FileI.usleep usec))

/-! ### An access is a section -/

/-- The calls between the locks. -/
abbrev OnBus (o : SysOp) : Prop := o.isLock = false

theorem onBus_req {o : SysOp} (h : o.isLock = false) : (@req SysI o).Asks OnBus := asks_req h

theorem asks_read_one (fd timeout : Int) : (Uart.read fd 1 timeout).Asks OnBus := by
  rw [Uart.read_one]
  apply (onBus_req rfl).bind
  intro fdset
  split
  · trivial
  split
  · trivial
  split
  · refine (onBus_req rfl).bind fun ans => ?_
    cases ans <;> trivial
  · trivial

theorem asks_waitAck (h : SpiRegHandle) (timeout : UInt32) : (waitAck h timeout).Asks OnBus := by
  apply (asks_read_one _ _).bind
  intro pair
  dsimp only
  split
  · trivial
  · exact (onBus_req rfl).bind fun _ => trivial

theorem asks_transferSpi (h : SpiRegHandle) (tx_buf rx_buf : List UInt8) (length : Nat) :
    (transferSpi h tx_buf rx_buf length).Asks OnBus :=
  (onBus_req rfl).bind fun _ => trivial

theorem asks_gotoStartCmd (h : SpiRegHandle) (timeout : UInt32) :
    (gotoStartCmd h timeout).Asks OnBus := by
  refine (onBus_req rfl).bind fun _ => (onBus_req rfl).bind fun sent => ?_
  split
  · trivial
  apply (asks_read_one _ _).bind
  intro pair
  dsimp only
  split
  · trivial
  split
  · trivial
  · exact (onBus_req rfl).bind fun _ => trivial

theorem asks_exchange (h : SpiRegHandle) (timeout : UInt32) (tx_cmd tx_data : List UInt8)
    (length : Nat) : (exchange h timeout tx_cmd tx_data length).Asks OnBus := by
  apply (asks_gotoStartCmd h timeout).bind
  intro ret
  split
  · trivial
  apply (asks_transferSpi _ _ _ _).bind
  intro ⟨ret₁, rx_buf₁⟩
  dsimp only
  split
  · trivial
  apply (asks_waitAck h timeout).bind
  intro ret
  split
  · trivial
  apply (asks_transferSpi _ _ _ _).bind
  intro ⟨ret₂, rx_buf₂⟩
  dsimp only
  split
  · trivial
  apply (asks_waitAck h timeout).bind
  intro ret
  split <;> trivial

theorem asks_readBody (h : SpiRegHandle) (reg_addr reg_cnt : UInt16) (reg_data : List UInt8)
    (timeout : UInt32) : (readBody h reg_addr reg_cnt reg_data timeout).Asks OnBus := by
  rw [readBody_eq]
  apply (asks_exchange _ _ _ _ _).bind
  intro res
  cases res with
  | error ret => trivial
  | ok pair =>
      dsimp only
      split <;> trivial

theorem asks_writeBody (h : SpiRegHandle) (reg_addr reg_cnt : UInt16) (reg_data : List UInt8)
    (timeout : UInt32) : (writeBody h reg_addr reg_cnt reg_data timeout).Asks OnBus := by
  rw [writeBody_eq]
  apply (asks_exchange _ _ _ _ _).bind
  intro res
  cases res <;> trivial

theorem locked_eq {α : Type} (h : SpiRegHandle) (refused : Int → α) (body : Prog SysI α) :
    locked h refused body =
      .ask .mutexLock fun _ => .ask (.flock h.lock_fd .LOCK_EX) fun (ret : Int) =>
        if ret < 0 then .ask .mutexUnlock fun _ => .done (refused ret)
        else body >>= fun a => .ask (.flock h.lock_fd .LOCK_UN) fun _ =>
          .ask .mutexUnlock fun _ => .done a := rfl

/-- What is made of the result of an access can be made of it inside. -/
theorem locked_map {α β : Type} (h : SpiRegHandle) {refused : Int → α} {refused' : Int → β}
    (body : Prog SysI α) {f : α → β} (hrefused : ∀ ret < 0, f (refused ret) = refused' ret) :
    (locked h refused body >>= fun a => pure (f a)) =
      locked h refused' (body >>= fun a => pure (f a)) := by
  rw [locked_eq, locked_eq, ask_bind]
  refine congrArg (ask _) (funext fun _ => ?_)
  rw [ask_bind]
  refine congrArg (ask _) (funext fun ret => ?_)
  by_cases hneg : ret < 0
  · rw [if_pos hneg, if_pos hneg, ← hrefused ret hneg]
    rfl
  · rw [if_neg hneg, if_neg hneg, bind_assoc, bind_assoc]
    rfl

theorem lower_locked {α : Type} (h : SpiRegHandle) (refused : Int → α) {body : Prog SysI α}
    (hbody : body.Asks OnBus) :
    (locked h refused body).lower hostOp = Guard.guarded refused body := by
  have hbus : body.lower hostOp = Guard.onDevice FileI body :=
    lower_congr hbody fun o ho => hostOp_of_not_lock ho
  rw [locked_eq, Guard.guarded]
  refine congrArg (ask _) (funext fun _ => congrArg (ask _) (funext fun ret => ?_))
  change @lower HostI SysI α hostOp (if ret < 0 then _ else _) = if ret < 0 then _ else _
  by_cases hneg : ret < 0
  · rw [if_pos hneg, if_pos hneg]
    rfl
  · rw [if_neg hneg, if_neg hneg, lower_bind, hbus]
    rfl

theorem access_readReg (h : SpiRegHandle) (reg_addr reg_cnt : UInt16) (timeout : UInt32) :
    access h (.readReg reg_addr reg_cnt timeout) =
      Guard.guarded
        (fun ret => readAnswer reg_cnt (ret, List.replicate reg_cnt.toNat 0))
        (readBody h reg_addr reg_cnt (List.replicate reg_cnt.toNat 0) timeout >>= fun res =>
          pure (readAnswer reg_cnt res)) := by
  rw [access, SpiReg.read, locked_map h _ fun ret _ => rfl]
  exact lower_locked h _ ((asks_readBody h _ _ _ _).bind fun _ => trivial)

theorem access_writeReg (h : SpiRegHandle) (reg_addr : UInt16) (reg_data : List UInt8)
    (timeout : UInt32) :
    access h (.writeReg reg_addr reg_data timeout) =
      Guard.guarded (fun ret => writeAnswer ret)
        (writeBody h reg_addr (UInt16.ofNat reg_data.length) reg_data timeout >>= fun ret =>
          pure (writeAnswer ret)) := by
  rw [access, SpiReg.write, locked_map h _ fun ret _ => rfl]
  exact lower_locked h _ ((asks_writeBody h _ _ _ _).bind fun _ => trivial)

theorem shape_access (h : SpiRegHandle) (o : RegOp) : Guard.Shape (access h o) := by
  cases o with
  | readReg reg_addr reg_cnt timeout =>
      rw [access_readReg]
      exact .guarded _ _
  | writeReg reg_addr reg_data timeout =>
      rw [access_writeReg]
      exact .guarded _ _
  | openFile path => exact .own _ id
  | readFile fd count => exact .own _ id
  | closeFile fd => exact .own _ id
  | usleep usec => exact .own _ id

theorem returns_hostOp (o : SysOp) : (hostOp o).Returns := by
  cases o with
  | flock fd operation => cases operation <;> exact returns_req _
  | _ => exact returns_req _

theorem returns_access (h : SpiRegHandle) (o : RegOp) : (access h o).Returns := by
  cases o with
  | readReg reg_addr reg_cnt timeout =>
      exact ((returns_read h _ _ _ _).bind fun _ => returns_pure _).lower returns_hostOp
  | writeReg reg_addr reg_data timeout =>
      exact ((returns_write h _ _ _ _).bind fun _ => returns_pure _).lower returns_hostOp
  | _ => exact returns_req _

/-! ### The calls of the layers above -/

/-- What a read returns and leaves in the caller's buffer, by what it reports. -/
def onBuffer {reg_cnt : UInt16} (reg_data : List UInt8) :
    Except Fail {bytes : List UInt8 // bytes.length = reg_cnt.toNat} → Int × List UInt8
  | .error code => (code.val, reg_data)
  | .ok bytes => (0, storeAt reg_data 0 bytes.val)

theorem onBuffer_of_neg {reg_cnt : UInt16} {ret : Int} (h : ret < 0) (buf reg_data : List UInt8) :
    onBuffer reg_data (readAnswer reg_cnt (ret, buf)) = (ret, reg_data) := by
  rw [readAnswer, dif_pos h]
  rfl

theorem onBuffer_of_read {reg_cnt : UInt16} {rx : List UInt8} (h : rx.length = reg_cnt.toNat)
    (reg_data : List UInt8) :
    onBuffer reg_data (readAnswer reg_cnt (0, storeAt (List.replicate reg_cnt.toNat 0) 0 rx)) =
      (0, storeAt reg_data 0 rx) := by
  have hbuf : (storeAt (List.replicate reg_cnt.toNat 0) 0 rx ++
      List.replicate reg_cnt.toNat 0).take reg_cnt.toNat = rx := by
    simp [storeAt, h]
  rw [readAnswer, dif_neg (lt_irrefl (0 : Int)), onBuffer]
  dsimp only
  rw [hbuf]

/-- The buffer of a read is written at its end, if at all. -/
theorem readBody_onBuffer (h : SpiRegHandle) {reg_addr reg_cnt : UInt16} (reg_data : List UInt8)
    (timeout : UInt32) (hcnt : reg_cnt.toNat ≤ 1022) :
    (readBody h reg_addr reg_cnt (List.replicate reg_cnt.toNat 0) timeout >>= fun res =>
        pure (onBuffer reg_data (readAnswer reg_cnt res))) =
      readBody h reg_addr reg_cnt reg_data timeout := by
  rw [readBody_eq, readBody_eq, bind_assoc]
  apply bind_congr_runs
  intro t res hrun
  obtain ⟨-, hres⟩ := runs_exchange hrun
  cases res with
  | error ret => exact congrArg done (onBuffer_of_neg hres.1 _ _)
  | ok pair =>
      obtain ⟨ret, rx_buf⟩ := pair
      obtain ⟨-, rx, -, hlen, htake⟩ := hres
      rw [List.length_take, length_commandBuf, Nat.min_eq_left (transLength_le hcnt)] at hlen
      have hle := le_transLength reg_cnt
      have hbuf : (rx_buf.take reg_cnt.toNat).length = reg_cnt.toNat := by
        have hrx := congrArg List.length htake
        rw [List.length_take] at hrx ⊢
        omega
      dsimp only
      split
      · exact congrArg done (onBuffer_of_read hbuf _)
      · exact congrArg done (onBuffer_of_neg (by decide) _ _)

/-- `RVMcu_ReadReg`, whose register access is carried out, is the call to `SpiReg_Read`. -/
theorem lower_readReg (h : SpiRegHandle) {reg_addr reg_cnt : UInt16} (reg_data : List UInt8)
    (timeout : UInt32) (hcnt : reg_cnt.toNat ≤ 1022) :
    (RVMcu.readReg reg_addr reg_data reg_cnt timeout).lower (access h) =
      (SpiReg.read (some h) reg_addr reg_cnt reg_data timeout).lower hostOp := by
  have hcall : SpiReg.read (some h) reg_addr reg_cnt reg_data timeout =
      SpiReg.read (some h) reg_addr reg_cnt (List.replicate reg_cnt.toNat 0) timeout >>= fun res =>
        pure (onBuffer reg_data (readAnswer reg_cnt res)) := by
    rw [SpiReg.read, ← readBody_onBuffer h reg_data timeout hcnt]
    refine (locked_map h (readBody h reg_addr reg_cnt _ timeout) ?_).symm
    intro ret hret
    exact onBuffer_of_neg hret _ _
  rw [hcall, RVMcu.readReg, req_eq, ask_bind, lower_ask, access, lower_bind, lower_bind, bind_assoc]
  refine congrArg (_ >>= ·) (funext fun res => ?_)
  generalize readAnswer reg_cnt res = r
  cases r <;> rfl

/-- What a write returns, by what it reports. -/
def resultOf : Except Fail Unit → Int
  | .error code => code.val
  | .ok _ => 0

theorem resultOf_of_neg {ret : Int} (h : ret < 0) : resultOf (writeAnswer ret) = ret := by
  rw [writeAnswer, dif_pos h]
  rfl

/-- A write sends no more of its buffer than it was asked to. -/
theorem writeBuf_of_take (reg_addr reg_cnt : UInt16) (reg_data : List UInt8) :
    writeBuf reg_addr reg_cnt (reg_data.take reg_cnt.toNat) =
      writeBuf reg_addr reg_cnt reg_data := by
  have hcrc : writeCrc reg_addr reg_cnt (reg_data.take reg_cnt.toNat) =
      writeCrc reg_addr reg_cnt reg_data := by
    rw [writeCrc_eq, writeCrc_eq, frameCrc_take _ _ _ (le_refl _)]
  rw [writeBuf, writeBuf, hcrc, List.take_take, Nat.min_self]

theorem writeBody_resultOf (h : SpiRegHandle) (reg_addr reg_cnt : UInt16) (reg_data : List UInt8)
    (timeout : UInt32) :
    (writeBody h reg_addr reg_cnt (reg_data.take reg_cnt.toNat) timeout >>= fun ret =>
        pure (resultOf (writeAnswer ret))) = writeBody h reg_addr reg_cnt reg_data timeout := by
  rw [writeBody_eq, writeBody_eq, writeBuf_of_take, bind_assoc]
  apply bind_congr_runs
  intro t res hrun
  obtain ⟨-, hres⟩ := runs_exchange hrun
  cases res with
  | error ret => exact congrArg done (resultOf_of_neg hres.1)
  | ok pair =>
      obtain ⟨ret, rx_buf⟩ := pair
      obtain ⟨rfl, -⟩ := hres
      rfl

/-- `RVMcu_WriteReg`, whose register access is carried out, is the call to `SpiReg_Write`. -/
theorem lower_writeReg (h : SpiRegHandle) {reg_addr reg_cnt : UInt16} {reg_data : List UInt8}
    (timeout : UInt32) (hlen : reg_cnt.toNat ≤ reg_data.length) :
    (RVMcu.writeReg reg_addr reg_data reg_cnt timeout).lower (access h) =
      (SpiReg.write (some h) reg_addr reg_cnt reg_data timeout).lower hostOp := by
  have hcnt : UInt16.ofNat (reg_data.take reg_cnt.toNat).length = reg_cnt := by
    rw [List.length_take, Nat.min_eq_left hlen, UInt16.ofNat_toNat]
  have hcall : SpiReg.write (some h) reg_addr reg_cnt reg_data timeout =
      SpiReg.write (some h) reg_addr reg_cnt (reg_data.take reg_cnt.toNat) timeout >>= fun ret =>
        pure (resultOf (writeAnswer ret)) := by
    rw [SpiReg.write, ← writeBody_resultOf h reg_addr reg_cnt reg_data timeout]
    refine (locked_map h (writeBody h reg_addr reg_cnt _ timeout) ?_).symm
    intro ret hret
    exact resultOf_of_neg hret
  rw [hcall, RVMcu.writeReg, req_eq, ask_bind, lower_ask, access, hcnt, lower_bind, lower_bind,
    bind_assoc]
  refine congrArg (_ >>= ·) (funext fun ret => ?_)
  generalize writeAnswer ret = r
  cases r <;> rfl

/-- `RVMcu_ReadReg` and `RVMcu_WriteReg`, with the access that they ask for carried out call by
call, are `SpiReg_Read` and `SpiReg_Write` on the caller's own buffer: the same calls in the same
order, the same result and the same buffer, whatever is answered. -/
theorem lower_calls (h : SpiRegHandle) (reg_addr reg_cnt : UInt16) (reg_data : List UInt8)
    (timeout : UInt32) :
    (reg_cnt.toNat ≤ 1022 → (RVMcu.readReg reg_addr reg_data reg_cnt timeout).lower (access h) =
      (SpiReg.read (some h) reg_addr reg_cnt reg_data timeout).lower hostOp) ∧
    (reg_cnt.toNat ≤ reg_data.length →
      (RVMcu.writeReg reg_addr reg_data reg_cnt timeout).lower (access h) =
        (SpiReg.write (some h) reg_addr reg_cnt reg_data timeout).lower hostOp) :=
  ⟨lower_readReg h reg_data timeout, lower_writeReg h timeout⟩

theorem lower_calls_online_cnt :
    (RVMcu.readReg 0x1011 [0x00] 1 200).lower (access ⟨3, 4, 5⟩) =
      (SpiReg.read (some ⟨3, 4, 5⟩) 0x1011 1 [0x00] 200).lower hostOp ∧
    (RVMcu.writeReg 0x1011 [0x2a] 1 200).lower (access ⟨3, 4, 5⟩) =
      (SpiReg.write (some ⟨3, 4, 5⟩) 0x1011 1 [0x2a] 200).lower hostOp :=
  ⟨(lower_calls _ 0x1011 1 [0x00] 200).1 (by decide),
    (lower_calls _ 0x1011 1 [0x2a] 200).2 (by decide)⟩

/-! ### Threads that access the registers -/

/-- The threads before their first call: every process with its handle, all locks free. -/
abbrev begun {ι π α δ φ : Type} (proc : ι → π) (handle : π → SpiRegHandle) (prog : ι → Prog RegI α)
    (x : δ) (y : φ) : Threads HostI ι α (Guard ι π δ φ) :=
  Guard.start proc (fun p => access (handle p)) prog x y

theorem minus_one_neg : (-1 : Int) < 0 := by decide

/-- A file system that has nothing. -/
def noFiles : Unit → (o : FileI.Op) → FileI.Ans o × Unit
  | _, ⟨.readReg _ _ _, _⟩ => (.error ⟨-1, minus_one_neg⟩, ())
  | _, ⟨.writeReg _ _ _, _⟩ => (.error ⟨-1, minus_one_neg⟩, ())
  | _, ⟨.openFile _, _⟩ => ((-1 : Int), ())
  | _, ⟨.readFile _ _, _⟩ => (.error ⟨-1, minus_one_neg⟩, ())
  | _, ⟨.closeFile _, _⟩ => ((), ())
  | _, ⟨.usleep _, _⟩ => ((), ())

/-- Two processes with a thread each that read the same register. -/
abbrev twoReaders : Threads HostI Bool (Int × List UInt8) (Guard Bool Bool Unit Unit) :=
  begun id (fun _ => ⟨3, 4, 5⟩) (fun _ => RVMcu.readReg 0x1011 [0x00] 1 100) () ()

namespace twoReaders

def bus (_ : Bool) : World SysI Unit
  | x, o, r, x' => (r, x') = ackingMcu [0x2a, 0x98, 0x44] x o

def files (_ : Bool) : World FileI Unit
  | y, o, r, y' => (r, y') = noFiles y o

/-- The two processes, by which of them makes the next call. -/
def after (sched : List Bool) :
    Threads HostI Bool (Int × List UInt8) (Guard Bool Bool Unit Unit) :=
  sched.foldl (Threads.advance (Guard.respond id (ackingMcu [0x2a, 0x98, 0x44]) noFiles)) twoReaders

theorem reachable (sched : List Bool) :
    Threads.Reachable (Guard.world id bus files) twoReaders (after sched) :=
  Threads.reachable_schedule (fun _ _ _ _ _ h =>
    Guard.world_of_respond (fun _ _ _ => rfl) (fun _ _ _ => rfl) h) sched twoReaders

end twoReaders

section

variable {ι π α δ φ : Type} [DecidableEq ι] [DecidableEq π] {proc : ι → π}
  {handle : π → SpiRegHandle} {bus : π → World SysI δ} {files : π → World FileI φ}
  {prog : ι → Prog RegI α} {x : δ} {y : φ} {c : Threads HostI ι α (Guard ι π δ φ)}

/-- A thread about to use the serial port or the bus holds the mutex of its process and the file
lock, and no other thread is about to. -/
theorem bus_exclusive
    (run : Threads.Reachable (Guard.world proc bus files) (begun proc handle prog x y) c)
    {i : ι} {o : SysOp} {next : SysOp.Ans o → Prog HostI α} (head : c.prog i = .ask (.dev o) next) :
    c.shared.mutex (proc i) = some i ∧ c.shared.owner = some (proc i) ∧
      ∀ j op on, c.prog j = .ask (.dev op) on → j = i :=
  Guard.exclusive (fun p o => shape_access (handle p) o) run head

theorem bus_exclusive_twoReaders :
    let c := twoReaders.after [false, true, true]
    c.shared.mutex true = some true ∧ c.shared.owner = some true ∧
      ∀ j op on, c.prog j = .ask (.dev op) on → j = true := by
  have run := twoReaders.reachable [false, true, true]
  exact bus_exclusive run (i := true) (o := .tcflush 5) rfl

/-- However the calls of the threads interleave, once they have all returned it is as if every
access had been made alone, from free locks to free locks: some order of whole accesses leads to the
same results, the same device and the same files. -/
theorem accesses_atomic
    (run : Threads.Reachable (Guard.world proc bus files) (begun proc handle prog x y) c)
    {result : ι → α} (hdone : c.Finished result) :
    Threads.Reachable (Guard.serial proc bus files fun p => access (handle p)) ⟨(x, y), prog⟩
      ⟨(c.shared.device, c.shared.rest), fun i => .done (result i)⟩ ∧
    c.shared = Guard.free c.shared.device c.shared.rest :=
  Guard.atomic (fun p o => shape_access (handle p) o) run hdone

theorem accesses_atomic_twoReaders :
    let c := twoReaders.after (List.replicate 31 [false, true]).flatten
    Threads.Reachable (Guard.serial id twoReaders.bus twoReaders.files fun _ => access ⟨3, 4, 5⟩)
      ⟨((), ()), fun _ => RVMcu.readReg 0x1011 [0x00] 1 100⟩
      ⟨(c.shared.device, c.shared.rest), fun _ => .done (0, [0x2a])⟩ ∧
    c.shared = Guard.free c.shared.device c.shared.rest := by
  intro c
  -- the two take turns, and the one that has to wait misses its turn
  have run : Threads.Reachable (Guard.world id twoReaders.bus twoReaders.files) twoReaders c :=
    twoReaders.reachable _
  have hdone : c.Finished fun _ => (0, [0x2a]) := by
    apply Threads.finished_of_outcome
    decide +kernel
  exact accesses_atomic run hdone

/-- As long as some thread has something to do, some thread can make its next call, and it need not
be a call that the file lock is refused to. -/
theorem bus_progress (answers : ∀ p x o, ∃ r x', bus p x o r x')
    (answers' : ∀ p y o, ∃ r y', files p y o r y')
    (run : Threads.Reachable (Guard.world proc bus files) (begun proc handle prog x y) c)
    {i : ι} {o : HostI.Op} {next : HostI.Ans o → Prog HostI α} (head : c.prog i = .ask o next) :
    ∃ j op on r s', c.prog j = .ask op on ∧ Guard.world proc bus files j c.shared op r s' ∧
      Guard.Granted op r :=
  Guard.progress (fun p o => shape_access (handle p) o) (fun p o => returns_access (handle p) o)
    answers answers' run head

theorem bus_progress_twoReaders :
    let c := twoReaders.after [false, true, true]
    ∃ j op on r s', c.prog j = .ask op on ∧
      Guard.world id twoReaders.bus twoReaders.files j c.shared op r s' ∧ Guard.Granted op r := by
  have hbus : ∀ p x o, ∃ r x', twoReaders.bus p x o r x' := fun _ x o => ⟨_, _, rfl⟩
  have hfiles : ∀ p y o, ∃ r y', twoReaders.files p y o r y' := fun _ y o => ⟨_, _, rfl⟩
  have run := twoReaders.reachable [false, true, true]
  have hwait : ∃ next, (twoReaders.after [false, true, true]).prog false =
      @Prog.ask HostI (Int × List UInt8) .acquire next := ⟨_, rfl⟩
  obtain ⟨next, hwait⟩ := hwait
  exact bus_progress hbus hfiles run hwait

end

end SpiReg

end McuRegWr
