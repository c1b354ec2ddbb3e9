import McuRegWr.Base.History
import McuRegWr.Proof.Burn.Success

/-!
# The order of the handshake

A burn is a conversation over one status register: the MCU waits, is told to erase, says that it
has, is told to burn, takes the file through its ring, is told that the file is complete and says
what it makes of it. Whatever registers and files answer, the host says nothing out of turn.
-/

namespace McuRegWr

open Base Prog RegWrCb

/-- A register of the burn ring. -/
abbrev burnReg (cmd : UInt16) : UInt16 := RWREG_CB_BURN_START + cmd

namespace Handshake

/-- A status that meets `P` was read. -/
def Status (P : BurnStaReg → Prop) (e : RegI.Event) : Prop :=
  ∃ timeout bytes, e = ⟨.readReg RWREG_BURN_START 2 timeout, .ok bytes⟩ ∧ P (.ofBytes bytes.val)

/-- A mode was written, with success or without. -/
def Issued (mode : UInt8) (e : RegI.Event) : Prop :=
  ∃ timeout r, e = ⟨.writeReg RWREG_BURN_START [mode] timeout, r⟩

/-- A mode was written with success. -/
def Written (mode : UInt8) (e : RegI.Event) : Prop :=
  ∃ timeout, e = ⟨.writeReg RWREG_BURN_START [mode] timeout, .ok ()⟩

/-- The number of fruitless tries to write to the ring since the file was last read, after one more
access: the free space cannot be read, or there is none, or the write fails. -/
def triesAfter (tries : Nat) : RegI.Event → Nat
  | ⟨.usleep _, _⟩ => tries
  | ⟨.readFile _ _, _⟩ => 0
  | ⟨.openFile _, _⟩ => tries
  | ⟨.closeFile _, _⟩ => tries
  | ⟨.readReg reg_addr _ _, .error _⟩ =>
      if reg_addr = burnReg CBREG_CMD_GET_FREESIZE then tries + 1 else tries
  | ⟨.readReg reg_addr _ _, .ok bytes⟩ =>
      if reg_addr = burnReg CBREG_CMD_GET_FREESIZE ∧ int32 bytes.val ≤ 0 then tries + 1 else tries
  | ⟨.writeReg reg_addr _ _, .error _⟩ =>
      if reg_addr = burnReg CBREG_CMD_WRITE then tries + 1 else tries
  | ⟨.writeReg _ _ _, .ok _⟩ => tries

def tries (h : List RegI.Event) : Nat := h.foldl triesAfter 0

/-- One try too many was fruitless. -/
def Exhausted (h : List RegI.Event) : Prop := ∃ t, t <+: h ∧ BURN_WR_MAX_RETRY + 1 < tries t

/-- The status has reported an error, or the tries to write to the ring were exhausted. -/
def Aborted (h : List RegI.Event) : Prop :=
  (∃ e ∈ h, Status (·.burn_mode = BURNMODE_BURN_ERROR) e) ∨ Exhausted h

/-- The MCU waited for a burn, was told to erase, had erased and was told to burn. -/
def Ready (h : List RegI.Event) : Prop :=
  InOrder [Status (·.burn_mode = BURNMODE_WAIT_BURN), Written BURNMODE_START_ERASE,
    Status (·.burn_mode = BURNMODE_ERASE_OK), Written BURNMODE_START_BURN] h

/-- The MCU was told that the file is complete, and later had accepted it. -/
def Accepted (h : List RegI.Event) : Prop :=
  InOrder [Issued BURNMODE_FINISH_TRANSFER,
    Status fun reg => reg.burn_mode ≠ BURNMODE_FINISH_TRANSFER ∧ reg.parameter = 0] h

/-- The access is in turn after the history `h`. -/
structure Ordered (h : List RegI.Event) (o : RegOp) : Prop where
  data : ∀ reg_data timeout, o = .writeReg (burnReg CBREG_CMD_WRITE) reg_data timeout → Ready h
  finish : ∀ timeout, o = .writeReg RWREG_BURN_START [BURNMODE_FINISH_TRANSFER] timeout →
    ¬ Aborted h
  exit : ∀ timeout, o = .writeReg RWREG_BURN_START [BURNMODE_EXIT_BURN] timeout →
    (∀ e ∈ h, ¬ Issued BURNMODE_START_ERASE e) ∨ Accepted h

variable {h : List RegI.Event} {n : Nat} {e : RegI.Event}

/-! ### Accesses that are in turn at any time -/

theorem Ordered.readReg {reg_addr reg_cnt : UInt16} {timeout : UInt32} :
    Ordered h (.readReg reg_addr reg_cnt timeout) :=
  ⟨nofun, nofun, nofun⟩

theorem Ordered.openFile {path : String} : Ordered h (.openFile path) := ⟨nofun, nofun, nofun⟩

theorem Ordered.readFile {fd : Int} {count : Nat} : Ordered h (.readFile fd count) :=
  ⟨nofun, nofun, nofun⟩

theorem Ordered.closeFile {fd : Int} : Ordered h (.closeFile fd) := ⟨nofun, nofun, nofun⟩

theorem Ordered.usleep {usec : Nat} : Ordered h (.usleep usec) := ⟨nofun, nofun, nofun⟩

theorem Ordered.mode {mode : UInt8} {timeout : UInt32} (hfinish : mode ≠ BURNMODE_FINISH_TRANSFER)
    (hexit : mode ≠ BURNMODE_EXIT_BURN) :
    Ordered h (.writeReg RWREG_BURN_START [mode] timeout) := by
  refine ⟨fun _ _ heq => ?_, fun _ heq => ?_, fun _ heq => ?_⟩
  · injection heq with haddr
    exact absurd haddr (by decide)
  · injection heq with _ hmode
    exact absurd (List.cons.inj hmode).1 hfinish
  · injection heq with _ hmode
    exact absurd (List.cons.inj hmode).1 hexit

theorem Ordered.ring {cmd : UInt16} {data : List UInt8} {timeout : UInt32}
    (hring : cmd = CBREG_CMD_CLEAN ∨ cmd = CBREG_CMD_WRITE ∧ Ready h) :
    Ordered h (.writeReg (burnReg cmd) data timeout) := by
  have haddr : burnReg cmd ≠ RWREG_BURN_START := by
    rcases hring with rfl | ⟨rfl, -⟩
    · decide
    · decide
  refine ⟨fun _ _ heq => ?_, fun _ heq => ?_, fun _ heq => ?_⟩
  · rcases hring with rfl | ⟨-, hready⟩
    · injection heq with hcmd
      exact absurd hcmd (by decide)
    · exact hready
  · injection heq with hcmd
    exact absurd hcmd haddr
  · injection heq with hcmd
    exact absurd hcmd haddr

/-! ### Histories without an abort -/

theorem tries_snoc (h : List RegI.Event) (e : RegI.Event) :
    tries (h ++ [e]) = triesAfter (tries h) e := by
  rw [tries, List.foldl_append]
  rfl

/-- Nothing was aborted, and `n` tries were fruitless since the file was last read. -/
structure Calm (h : List RegI.Event) (n : Nat) : Prop where
  tries_eq : tries h = n
  unaborted : ¬ Aborted h

theorem Calm.nil : Calm [] 0 := by
  refine ⟨rfl, ?_⟩
  rintro (⟨e, he, -⟩ | ⟨t, ht, htries⟩)
  · exact absurd he List.not_mem_nil
  · rw [List.prefix_nil.mp ht] at htries
    exact absurd htries (by decide)

theorem Calm.snoc (hcalm : Calm h n) (hn : triesAfter n e ≤ BURN_WR_MAX_RETRY + 1)
    (he : ¬ Status (·.burn_mode = BURNMODE_BURN_ERROR) e) :
    Calm (h ++ [e]) (triesAfter n e) := by
  have htries : tries (h ++ [e]) = triesAfter n e := by
    rw [tries_snoc, hcalm.tries_eq]
  refine ⟨htries, ?_⟩
  rintro (⟨e', he', hstatus⟩ | ⟨t, ht, hmany⟩)
  · rcases List.mem_append.mp he' with hold | hnew
    · exact hcalm.unaborted (.inl ⟨e', hold, hstatus⟩)
    · rw [List.mem_singleton.mp hnew] at hstatus
      exact he hstatus
  · rcases List.prefix_concat_iff.mp ht with rfl | hold
    · rw [htries] at hmany
      omega
    · exact hcalm.unaborted (.inr ⟨t, hold, hmany⟩)

theorem Calm.le (hcalm : Calm h n) : n ≤ BURN_WR_MAX_RETRY + 1 := by
  rw [← hcalm.tries_eq]
  exact not_lt.mp fun hmany => hcalm.unaborted (.inr ⟨h, List.prefix_refl _, hmany⟩)

theorem Calm.same (hcalm : Calm h n) (hn : triesAfter n e = n)
    (he : ¬ Status (·.burn_mode = BURNMODE_BURN_ERROR) e) : Calm (h ++ [e]) n := by
  have hnext := hcalm.snoc (hn.trans_le hcalm.le) he
  rwa [hn] at hnext

theorem not_status {P : BurnStaReg → Prop} {o : RegOp} {r : RegOp.Ans o}
    (ho : ∀ reg_cnt timeout, o ≠ .readReg RWREG_BURN_START reg_cnt timeout) :
    ¬ Status P ⟨o, r⟩ := by
  rintro ⟨timeout, _, heq, -⟩
  injection heq with hop
  exact ho 2 timeout hop

theorem Calm.readReg (hcalm : Calm h n) {reg_addr reg_cnt : UInt16} {timeout : UInt32}
    {r : RegOp.Ans (.readReg reg_addr reg_cnt timeout)} (haddr : reg_addr ≠ RWREG_BURN_START)
    (hfree : reg_addr ≠ burnReg CBREG_CMD_GET_FREESIZE) :
    Calm (h ++ [⟨.readReg reg_addr reg_cnt timeout, r⟩]) n := by
  apply hcalm.same
  · cases r with
    | error code => exact if_neg hfree
    | ok bytes => exact if_neg fun h => hfree h.1
  · apply not_status
    intro _ _ heq
    injection heq with hreg
    exact haddr hreg

theorem Calm.writeReg (hcalm : Calm h n) {reg_addr : UInt16} {reg_data : List UInt8}
    {timeout : UInt32} {r : RegOp.Ans (.writeReg reg_addr reg_data timeout)}
    (haddr : reg_addr ≠ burnReg CBREG_CMD_WRITE) :
    Calm (h ++ [⟨.writeReg reg_addr reg_data timeout, r⟩]) n := by
  apply hcalm.same
  · cases r with
    | error code => exact if_neg haddr
    | ok u => rfl
  · exact not_status nofun

theorem Calm.openFile (hcalm : Calm h n) {path : String} {fd : Int} :
    Calm (h ++ [⟨.openFile path, fd⟩]) n :=
  hcalm.same rfl (not_status nofun)

theorem Calm.readFile (hcalm : Calm h n) {fd : Int} {count : Nat}
    {r : RegOp.Ans (.readFile fd count)} : Calm (h ++ [⟨.readFile fd count, r⟩]) 0 :=
  hcalm.snoc (Nat.zero_le _) (not_status nofun)

theorem Calm.closeFile (hcalm : Calm h n) {fd : Int} {r : Unit} :
    Calm (h ++ [⟨.closeFile fd, r⟩]) n :=
  hcalm.same rfl (not_status nofun)

theorem Calm.usleep (hcalm : Calm h n) {usec : Nat} {r : Unit} :
    Calm (h ++ [⟨.usleep usec, r⟩]) n :=
  hcalm.same rfl (not_status nofun)

theorem Calm.status (hcalm : Calm h n) {reg : BurnStaReg} (he : Status (· = reg) e)
    (hmode : reg.burn_mode ≠ BURNMODE_BURN_ERROR) : Calm (h ++ [e]) n := by
  obtain ⟨timeout, bytes, rfl, hreg⟩ := he
  have haddr : RWREG_BURN_START ≠ burnReg CBREG_CMD_GET_FREESIZE := by decide
  apply hcalm.same
  · rw [triesAfter, if_neg fun hfree => haddr hfree.1]
  · rintro ⟨timeout', bytes', heq, herror⟩
    cases heq
    rw [hreg] at herror
    exact hmode herror

theorem Calm.issued (hcalm : Calm h n) {mode : UInt8} (he : Issued mode e) : Calm (h ++ [e]) n := by
  obtain ⟨timeout, r, rfl⟩ := he
  exact hcalm.writeReg (by decide)

/-! ### What the operations leave behind -/

theorem Status.imp {P P' : BurnStaReg → Prop} (he : Status P e) (hP : ∀ reg, P reg → P' reg) :
    Status P' e := by
  obtain ⟨timeout, bytes, heq, hreg⟩ := he
  exact ⟨timeout, bytes, heq, hP _ hreg⟩

theorem Written.issued {mode : UInt8} (he : Written mode e) : Issued mode e := by
  obtain ⟨timeout, heq⟩ := he
  exact ⟨timeout, _, heq⟩

theorem wlp_readBurnSta {reg : BurnStaReg} {timeout : UInt32}
    {Q : Int × BurnStaReg → List RegI.Event → Prop}
    (hread : ∀ reg' e, Status (· = reg') e → Q (0, reg') (h ++ [e]))
    (hfail : ∀ ret reg' h', ret < 0 → Q (ret, reg') h') :
    (readBurnSta reg timeout).wlp recording Ordered Q h := by
  rw [readBurnSta_eq]
  apply wlp_recording .readReg
  intro r
  cases r with
  | error code => exact hfail _ _ _ code.property
  | ok bytes => exact hread _ _ ⟨timeout, bytes, rfl, rfl⟩

theorem wlp_writeBurnMode {reg : BurnStaReg} {timeout : UInt32}
    {Q : Int → List RegI.Event → Prop}
    (hordered : Ordered h (.writeReg RWREG_BURN_START [reg.burn_mode] timeout))
    (hQ : ∀ ret e, Issued reg.burn_mode e → (¬ ret < 0 → Written reg.burn_mode e) →
      Q ret (h ++ [e])) :
    (writeBurnMode reg timeout).wlp recording Ordered Q h := by
  rw [writeBurnMode_eq]
  apply wlp_recording hordered
  intro r
  cases r with
  | error code => exact hQ _ _ ⟨timeout, _, rfl⟩ fun hret => absurd code.property hret
  | ok _ => exact hQ _ _ ⟨timeout, _, rfl⟩ fun _ => ⟨timeout, rfl⟩

theorem wlp_clean {timeout : UInt32} {Q : Int → List RegI.Event → Prop} (hready : Ready h)
    (hcalm : Calm h n) (hQ : ∀ ret h', Ready h' → Calm h' n → Q ret h') :
    (clean regWrCbHandle RWREG_CB_BURN_START timeout).wlp recording Ordered Q h := by
  rw [clean_eq]
  apply wlp_recording (Ordered.ring (.inl rfl))
  intro r
  have hcalm' : Calm (h ++ [⟨.writeReg (burnReg CBREG_CMD_CLEAN) [0x00] timeout, r⟩]) n :=
    hcalm.writeReg (by decide)
  cases r with
  | ok _ => exact hQ _ _ (hready.append _) hcalm'
  | error code => exact hQ _ _ (hready.append _) hcalm'

theorem Calm.fruitless (hcalm : Calm h n) (hn : triesAfter n e = n + 1)
    (hretry : n ≤ BURN_WR_MAX_RETRY) (he : ¬ Status (·.burn_mode = BURNMODE_BURN_ERROR) e) :
    Calm (h ++ [e]) (n + 1) := by
  have hnext := hcalm.snoc (by omega) he
  rwa [hn] at hnext

/-- A try of the ring moves bytes, or is one more fruitless try. -/
theorem wlp_ringWrite {data : List UInt8} {timeout : UInt32} {Q : Int → List RegI.Event → Prop}
    (hpos : 0 < data.length) (hlen : data.length < 65536) (hready : Ready h) (hcalm : Calm h n)
    (htook : ∀ ret h', 0 < ret → Ready h' → Calm h' n → Q ret h')
    (hnone : ∀ ret h', ret ≤ 0 → Ready h' → (n ≤ BURN_WR_MAX_RETRY → Calm h' (n + 1)) → Q ret h') :
    (RegWrCb.write regWrCbHandle RWREG_CB_BURN_START data (UInt32.ofNat data.length) timeout).wlp
      recording Ordered Q h := by
  apply wlp_write hpos hlen .readReg
  · rintro code _ rfl
    exact hnone _ _ (le_of_lt code.property) (hready.append _) fun hretry =>
      hcalm.fruitless (by rw [triesAfter, if_pos rfl]) hretry (not_status nofun)
  · rintro size _ rfl hfull
    exact hnone _ _ hfull (hready.append _) fun hretry =>
      hcalm.fruitless (by rw [triesAfter, if_pos ⟨rfl, hfull⟩]) hretry (not_status nofun)
  · rintro size _ k rfl hfree hk _
    have hready' := hready.append
      [⟨.readReg (burnReg CBREG_CMD_GET_FREESIZE) 4 timeout, .ok size⟩]
    have hcalm' := hcalm.same (by rw [triesAfter, if_neg fun hfull => hfree.not_ge hfull.2])
      (@not_status _ (.readReg (burnReg CBREG_CMD_GET_FREESIZE) 4 timeout) (.ok size) nofun)
    refine ⟨.ring (.inr ⟨rfl, hready'⟩), ?_⟩
    rintro r _ rfl
    cases r with
    | error code =>
        exact hnone _ _ (le_of_lt code.property) (hready'.append _) fun hretry =>
          hcalm'.fruitless (by rw [triesAfter, if_pos rfl]) hretry (not_status nofun)
    | ok _ =>
        exact htook _ _ (Int.natCast_pos.mpr hk) (hready'.append _)
          (hcalm'.same rfl (not_status nofun))

/-! ### The transfer -/

/-- The file is being transferred, with `n` fruitless tries so far. -/
structure Sending (h : List RegI.Event) (n : Nat) : Prop where
  ready : Ready h
  calm : Calm h n

/-- What the loops leave behind unless they abort. -/
def OnOk (P : BurnStaReg → List RegI.Event → Prop) (r : Except Int BurnStaReg)
    (h : List RegI.Event) : Prop :=
  ∀ reg, r = .ok reg → P reg h

theorem wlp_abort {β : Type} {inv : β → List RegI.Event → Prop}
    {P : BurnStaReg → List RegI.Event → Prop} {ret : Int} :
    (pure (.inr (.error ret)) : Prog RegI (β ⊕ Except Int BurnStaReg)).wlp recording Ordered
      (Sum.elim inv (OnOk P)) h := by
  intro reg heq
  cases heq

theorem wlp_burnChunkRound {data : List UInt8} (hlen : data.length ≤ BURN_PARTICLE_SIZE)
    {cs : ChunkState} (hsend : Sending h cs.retry) :
    (burnChunkRound data cs).wlp recording Ordered
      (Sum.elim (fun cs' h' => Sending h' cs'.retry) (OnOk fun _ h' => ∃ n, Sending h' n)) h := by
  apply wlp_chunkRound hlen
  · exact fun _ _ _ => ⟨_, hsend⟩
  intro _ hpos hlen
  apply wlp_ringWrite hpos hlen hsend.ready hsend.calm
  · intro ret h' hret hready hcalm
    exact .of_pos hret ⟨hready, hcalm⟩
  intro ret h' hret hready hcalm
  apply AfterTry.of_none hret
  · intro _
    apply wlp_readBurnSta
    · intro reg e he
      apply AfterStatus.of_read
      · exact fun _ => wlp_abort
      intro herror
      apply AfterVain.intro
      · exact fun _ => wlp_abort
      · intro hretry
        exact ⟨hready.append _, (hcalm hretry).status he herror⟩
    · intro ret' reg h'' hret'
      exact .of_neg hret' wlp_abort
  · intro _
    apply AfterVain.intro
    · exact fun _ => wlp_abort
    · intro hretry
      exact ⟨hready, hcalm hretry⟩

theorem wlp_burnChunk {data : List UInt8} (hlen : data.length ≤ BURN_PARTICLE_SIZE)
    (hsend : Sending h 0) (reg : BurnStaReg) :
    (burnChunk data reg).wlp recording Ordered (OnOk fun _ h' => ∃ n, Sending h' n) h :=
  wlp_loop (fun (cs : ChunkState) h' => Sending h' cs.retry)
    (fun _ _ hinv => wlp_burnChunkRound hlen hinv) _ hsend

theorem wlp_burnFileRound (hsend : ∃ n, Sending h n) (fd : Int) (reg : BurnStaReg) :
    (burnFileRound fd reg).wlp recording Ordered
      (Sum.elim (fun _ h' => ∃ n, Sending h' n) (OnOk fun _ h' => ∃ n, Sending h' n)) h := by
  obtain ⟨n, hready, hcalm⟩ := hsend
  apply wlp_recording .readFile
  intro r
  have hnext : Sending (h ++ [⟨.readFile fd BURN_PARTICLE_SIZE, r⟩]) 0 :=
    ⟨hready.append _, hcalm.readFile⟩
  cases r with
  | error code => exact fun _ _ => ⟨0, hnext⟩
  | ok data =>
      show wlp recording Ordered (if data.val = [] then _ else _) _ _
      split
      · exact fun _ _ => ⟨0, hnext⟩
      · rw [wlp_bind]
        apply wlp_conseq (wlp_burnChunk data.property hnext reg)
        intro r' h' hr'
        cases r' with
        | error ret => exact wlp_abort
        | ok reg' => exact hr' reg' rfl

/-! ### The result -/

/-- What the status says once it is about the complete file. -/
def Judged (reg : BurnStaReg) (h : List RegI.Event) : Prop :=
  reg.parameter = 0 → Accepted h

theorem wlp_burnResultRound (hfinish : InOrder [Issued BURNMODE_FINISH_TRANSFER] h)
    (reg : BurnStaReg) :
    (burnResultRound reg).wlp recording Ordered
      (Sum.elim (fun _ => InOrder [Issued BURNMODE_FINISH_TRANSFER]) (OnOk Judged)) h := by
  rw [burnResultRound, wlp_bind]
  apply wlp_readBurnSta
  · intro reg' e he
    dsimp only
    rw [if_neg (lt_irrefl (0 : Int))]
    split
    · rename_i hmode
      rintro _ ⟨⟩ hparameter
      refine hfinish.snoc (he.imp ?_)
      rintro _ rfl
      exact ⟨hmode, hparameter⟩
    · exact wlp_recording .usleep fun _ => (hfinish.append _).append _
  · intro ret reg' h' hret
    dsimp only
    rw [if_pos hret]
    exact wlp_abort

theorem parameter_eq_zero {reg : BurnStaReg} (h : ¬ (-reg.parameter.toNat : Int) < 0) :
    reg.parameter = 0 := by
  apply UInt8.toNat_inj.mp
  rw [UInt8.toNat_zero]
  omega

theorem Ordered.finishTransfer {timeout : UInt32} (h' : ¬ Aborted h) :
    Ordered h (.writeReg RWREG_BURN_START [BURNMODE_FINISH_TRANSFER] timeout) := by
  refine ⟨fun _ _ heq => ?_, fun _ _ => h', fun _ heq => ?_⟩
  · injection heq with haddr
    exact absurd haddr (by decide)
  · injection heq with _ hmode
    exact absurd hmode (by decide)

theorem Ordered.exitBurn {timeout : UInt32}
    (h' : (∀ e ∈ h, ¬ Issued BURNMODE_START_ERASE e) ∨ Accepted h) :
    Ordered h (.writeReg RWREG_BURN_START [BURNMODE_EXIT_BURN] timeout) := by
  refine ⟨fun _ _ heq => ?_, fun _ heq => ?_, fun _ _ => h'⟩
  · injection heq with haddr
    exact absurd haddr (by decide)
  · injection heq with _ hmode
    exact absurd hmode (by decide)

theorem wlp_burnFile (hsend : Sending h n) (fuel : Nat) (fd : Int) (reg : BurnStaReg) :
    (burnFile fuel fd reg).wlp recording Ordered (fun _ _ => True) h := by
  rw [burnFile, wlp_bind]
  apply wlp_conseq (wlp_loop (fun _ h' => ∃ n, Sending h' n)
    (fun reg' _ hinv => wlp_burnFileRound hinv fd reg') fuel ⟨n, hsend⟩)
  intro r h₁ hr
  cases r with
  | error ret => trivial
  | ok reg' =>
      obtain ⟨m, hready, hcalm⟩ := hr reg' rfl
      rw [wlp_bind]
      apply wlp_writeBurnMode (Ordered.finishTransfer hcalm.unaborted)
      intro _ e he _
      have hfinish : InOrder [Issued BURNMODE_FINISH_TRANSFER] (h₁ ++ [e]) :=
        (InOrder.nil h₁).snoc he
      rw [wlp_bind]
      apply wlp_conseq (wlp_loop (fun _ => InOrder [Issued BURNMODE_FINISH_TRANSFER])
        (fun reg _ hinv => wlp_burnResultRound hinv reg) fuel hfinish)
      intro r h₂ hr
      cases r with
      | error ret => trivial
      | ok result =>
          dsimp only
          split
          · trivial
          · rename_i hret
            have haccepted := hr result rfl (parameter_eq_zero hret)
            rw [wlp_bind]
            apply wlp_writeBurnMode (Ordered.exitBurn (.inr haccepted))
            intro _ _ _ _
            trivial

theorem wlp_burnOpen (hsend : Sending h n) (fuel : Nat) (path : String) (reg : BurnStaReg) :
    (do
      let _ ← RegWrCb.clean regWrCbHandle RWREG_CB_BURN_START 200
      let firmware_fd ← File.openRdonly path
      if firmware_fd < 0 then return firmware_fd
      let ret ← burnFile fuel firmware_fd reg
      File.close firmware_fd
      return ret : Prog RegI Int).wlp recording Ordered (fun _ _ => True) h := by
  rw [wlp_bind]
  apply wlp_clean hsend.ready hsend.calm
  intro _ h' hready hcalm
  apply wlp_recording .openFile
  intro fd
  show wlp recording Ordered (if fd < 0 then _ else _) _ _
  split
  · trivial
  · rw [wlp_bind]
    apply wlp_conseq (wlp_burnFile ⟨hready.append _, hcalm.openFile⟩ fuel fd reg)
    intro ret h'' _
    exact wlp_recording .closeFile fun _ => trivial

theorem wlp_burnMcu (hwait : InOrder [Status (·.burn_mode = BURNMODE_WAIT_BURN)] h)
    (hcalm : Calm h n) (fuel : Nat) (path : String) :
    (burnMcu fuel path).wlp recording Ordered (fun _ _ => True) h := by
  rw [burnMcu, wlp_bind]
  apply wlp_writeBurnMode (Ordered.mode (by decide) (by decide))
  intro ret e he hwritten
  dsimp only
  split
  · trivial
  rename_i hret
  have hcalm₁ := hcalm.issued he
  have herase := hwait.snoc (hwritten hret)
  rw [wlp_bind]
  apply wlp_readBurnSta
  · intro reg e' he'
    dsimp only
    rw [if_neg (lt_irrefl (0 : Int))]
    split
    · trivial
    rename_i hmode
    have hmode := not_not.mp hmode
    have hcalm₂ := hcalm₁.status he' (by rw [hmode]; decide)
    have herased := herase.snoc (@Status.imp _ _ (·.burn_mode = BURNMODE_ERASE_OK) he' (by
      rintro _ rfl
      exact hmode))
    have hstart : ∀ h', Ordered h' (.writeReg RWREG_BURN_START [BURNMODE_START_BURN] 500) :=
      fun _ => .mode (by decide) (by decide)
    rw [wlp_bind]
    apply wlp_writeBurnMode (hstart _)
    intro ret e'' he'' hwritten'
    split
    · trivial
    · rename_i hret'
      have hburn : Ready _ := herased.snoc (hwritten' hret')
      exact wlp_burnOpen ⟨hburn, hcalm₂.issued he''⟩ fuel path _
  · intro ret' reg h' hret'
    dsimp only
    rw [if_pos hret']
    trivial

/-! ### Before the burn -/

/-- Nothing is erased yet. -/
structure Waiting (h : List RegI.Event) : Prop where
  unerased : ∀ e ∈ h, ¬ Issued BURNMODE_START_ERASE e
  calm : Calm h 0

/-- An access from before the burn. -/
def Early : RegOp → Prop
  | .readReg reg_addr _ _ =>
      reg_addr ≠ RWREG_BURN_START ∧ reg_addr ≠ burnReg CBREG_CMD_GET_FREESIZE
  | .writeReg reg_addr reg_data _ =>
      reg_addr = RWREG_BURN_START ∧ reg_data = [BURNMODE_APP_GOTO_BOOTLOADER]
  | _ => True

theorem Early.ordered {o : RegOp} (ho : Early o) : Ordered h o := by
  cases o with
  | readReg => exact .readReg
  | writeReg reg_addr reg_data timeout =>
      obtain ⟨rfl, rfl⟩ := ho
      exact .mode (by decide) (by decide)
  | openFile => exact .openFile
  | readFile => exact .readFile
  | closeFile => exact .closeFile
  | usleep => exact .usleep

theorem Waiting.snoc (hwait : Waiting h) (hcalm : Calm (h ++ [e]) 0)
    (he : ¬ Issued BURNMODE_START_ERASE e) : Waiting (h ++ [e]) := by
  refine ⟨fun e' he' => ?_, hcalm⟩
  rcases List.mem_append.mp he' with hold | hnew
  · exact hwait.unerased e' hold
  · rw [List.mem_singleton.mp hnew]
    exact he

theorem not_issued {mode : UInt8} {o : RegOp} {r : RegOp.Ans o}
    (ho : ∀ timeout, o ≠ .writeReg RWREG_BURN_START [mode] timeout) : ¬ Issued mode ⟨o, r⟩ := by
  rintro ⟨timeout, _, heq⟩
  injection heq with hop
  exact ho timeout hop

theorem Waiting.early (hwait : Waiting h) {o : RegOp} (ho : Early o) (r : RegOp.Ans o) :
    Waiting (h ++ [⟨o, r⟩]) := by
  cases o with
  | readReg => exact hwait.snoc (hwait.calm.readReg ho.1 ho.2) (not_issued nofun)
  | writeReg reg_addr reg_data timeout =>
      obtain ⟨rfl, rfl⟩ := ho
      refine hwait.snoc (hwait.calm.writeReg (by decide)) (not_issued fun _ heq => ?_)
      injection heq with _ hmode
      exact absurd hmode (by decide)
  | openFile => exact hwait.snoc hwait.calm.openFile (not_issued nofun)
  | readFile => exact hwait.snoc hwait.calm.readFile (not_issued nofun)
  | closeFile => exact hwait.snoc hwait.calm.closeFile (not_issued nofun)
  | usleep => exact hwait.snoc hwait.calm.usleep (not_issued nofun)

theorem Waiting.nil : Waiting [] := ⟨fun _ he => absurd he List.not_mem_nil, .nil⟩

/-- What comes before the burn leaves the MCU waiting. -/
theorem wlp_early {α : Type} {p : Prog RegI α} (hp : p.Asks Early) (hwait : Waiting h)
    {Q : α → List RegI.Event → Prop} (hQ : ∀ a t, Waiting (h ++ t) → Q a (h ++ t)) :
    p.wlp recording Ordered Q h := by
  have hkept : ∀ h' o r, (Waiting h' ∧ h <+: h') → Early o →
      Waiting (h' ++ [⟨o, r⟩]) ∧ h <+: h' ++ [⟨o, r⟩] :=
    fun _ _ r hinv ho => ⟨hinv.1.early ho r, hinv.2.trans (List.prefix_append _ _)⟩
  apply wlp_conseq (hp.wlp_recording (fun _ _ _ ho => ho.ordered) hkept ⟨hwait, List.prefix_refl _⟩)
  rintro a _ ⟨hwait', t, rfl⟩
  exact hQ a t hwait'

theorem early_getBurnFirmwarePart (path : String) : (getBurnFirmwarePart path).Asks Early := by
  have hclose : ∀ fd ret : Int, (do File.close fd; return ret : Prog RegI Int).Asks Early :=
    fun _ _ => ⟨trivial, fun _ => trivial⟩
  refine ⟨trivial, fun fd => ?_⟩
  show @Asks RegI Int Early (if fd < 0 then _ else _)
  split
  · trivial
  refine ⟨trivial, fun r => ?_⟩
  cases r with
  | error code => exact hclose fd _
  | ok head_data =>
      show @Asks RegI Int Early (if head_data.val.length ≠ HEAD_DATA_SIZE then _ else _)
      split
      · exact hclose fd _
      split
      · exact hclose fd _
      · exact hclose fd _

theorem early_readPartition (timeout : UInt32) : (RVMcu.readPartition timeout).Asks Early := by
  refine ⟨⟨by decide, by decide⟩, fun r => ?_⟩
  cases r <;> trivial

theorem early_gotoBootloader (timeout : UInt32) :
    (writeBurnMode ⟨BURNMODE_APP_GOTO_BOOTLOADER, 0⟩ timeout).Asks Early := by
  refine ⟨⟨rfl, rfl⟩, fun r => ?_⟩
  cases r <;> trivial

theorem wlp_burnChecked (hwait : Waiting h) (fuel : Nat) (path : String) (reg : BurnStaReg) :
    (RVMcu.burnChecked fuel path reg).wlp recording Ordered (fun _ _ => True) h := by
  rw [RVMcu.burnChecked, wlp_bind]
  apply wlp_readBurnSta
  · intro reg' e he
    dsimp only
    rw [if_neg (lt_irrefl (0 : Int))]
    split
    · trivial
    rename_i hmode
    have hmode := not_not.mp hmode
    have horder := (InOrder.nil h).snoc (@Status.imp _ _ (·.burn_mode = BURNMODE_WAIT_BURN) he (by
      rintro _ rfl
      exact hmode))
    have hcalm := hwait.calm.status he (by rw [hmode]; decide)
    split
    · have hunissued : ¬ Issued BURNMODE_START_ERASE e := by
        obtain ⟨timeout, bytes, rfl, -⟩ := he
        exact not_issued nofun
      rw [wlp_bind]
      apply wlp_early (early_getBurnFirmwarePart path) (hwait.snoc hcalm hunissued)
      intro part t hwait'
      split
      · rw [wlp_bind]
        apply wlp_writeBurnMode (Ordered.exitBurn (.inl hwait'.unerased))
        intro _ _ _ _
        trivial
      · exact wlp_burnMcu (horder.append t) hwait'.calm fuel path
    · exact wlp_burnMcu horder hcalm fuel path
  · intro ret reg' h' hret
    dsimp only
    rw [if_pos hret]
    trivial

theorem wlp_rvBurnMcu (fuel : Nat) (path : String) :
    (RVMcu.burnMcu fuel path).wlp recording Ordered (fun _ _ => True) [] := by
  rw [RVMcu.burnMcu, wlp_bind]
  apply wlp_early (early_readPartition 200) .nil
  intro (ret, partition) t hwait
  dsimp only
  split
  · trivial
  split
  · rw [wlp_bind]
    apply wlp_early (early_gotoBootloader 200) hwait
    intro ret t' hwait'
    split
    · trivial
    · apply wlp_recording .usleep
      intro r
      exact wlp_burnChecked (hwait'.early (show Early (.usleep 400000) from trivial) r) fuel path _
  · exact wlp_burnChecked hwait fuel path _

theorem wlp_rvForceBurnMcu (fuel : Nat) (path : String) :
    (RVMcu.forceBurnMcu fuel path).wlp recording Ordered (fun _ _ => True) [] := by
  rw [RVMcu.forceBurnMcu, wlp_bind]
  have hround : ∀ u, (RVMcu.forceRound u).Asks Early := by
    refine fun _ => (early_readPartition 10).bind ?_
    intro (ret, partition)
    dsimp only
    split <;> trivial
  apply wlp_early (asks_loop hround fuel ()) .nil
  intro _ t hwait
  exact wlp_burnChecked hwait fuel path _

end Handshake

/-- Whatever the registers and the files answer, every access of a burn is in turn. -/
theorem burn_handshake {fuel : Nat} {path : String} {p q : Prog RegI Int}
    (hp : p = RVMcu.burnMcu fuel path ∨ p = RVMcu.forceBurnMcu fuel path)
    {t u : List RegI.Event} {e : RegI.Event} (run : Reach p (t ++ e :: u) q) :
    Handshake.Ordered t e.1 := by
  rcases hp with rfl | rfl
  · exact wlp_event (Handshake.wlp_rvBurnMcu fuel path) run
  · exact wlp_event (Handshake.wlp_rvForceBurnMcu fuel path) run

/-- An MCU that has nothing to complain about and waits for a burn. -/
def waitingStatus (mode : UInt8) : BurnStaReg :=
  if mode = BURNMODE_FORBID then ⟨BURNMODE_WAIT_BURN, 0⟩ else goodStatus mode

/-- Three bytes are burnt: the whole handshake comes before they are written. -/
theorem burn_handshake_three_bytes : ∃ t e u,
    Runs (RVMcu.burnMcu 2 "mcu.bin") (t ++ e :: u) 0 ∧
      e.1 = .writeReg (burnReg CBREG_CMD_WRITE) [1, 2, 3] 200 ∧ Handshake.Ready t := by
  obtain ⟨s, heval⟩ : ∃ s, (RVMcu.burnMcu 2 "mcu.bin").eval (BurnSeen.device waitingStatus)
      (.start [1, 2, 3]) = some (0, s) := ⟨_, rfl⟩
  have hrun := runs_traceOf heval
  obtain ⟨t, r, u, htrace⟩ : ∃ t r u, (RVMcu.burnMcu 2 "mcu.bin").traceOf
      (BurnSeen.device waitingStatus) (.start [1, 2, 3]) =
        t ++ ⟨.writeReg (burnReg CBREG_CMD_WRITE) [1, 2, 3] 200, r⟩ :: u :=
    ⟨_, _, _, (List.take_append_drop 9 _).symm⟩
  rw [htrace] at hrun
  exact ⟨t, _, u, hrun, rfl, (burn_handshake (.inl rfl) hrun).data _ _ rfl⟩

end McuRegWr
