import McuRegWr.Proof.Ring.Client

/-!
# What a burn sees

The runs of `_BurnMcu` against any answers at all: a register access fails or brings any bytes, the
ring reports any free space, the file is opened or not, and every read of it fails or brings some of
what it still holds. Beside the program the world keeps what the run has been answered, and whether
a status was one that the code takes for something else. That is told from the answers alone, not
from what the code made of them.
-/

namespace McuRegWr

open Base Prog RegWrCb

structure BurnSeen where
  /-- What the file still holds. -/
  rest : List UInt8
  /-- The bytes of the writes to the ring that succeeded. -/
  accepted : List UInt8
  /-- The last mode written. -/
  mode : UInt8
  /-- Tries of the ring since the last read of the file that brought nothing. -/
  fruitless : Nat
  /-- A read of the file failed before its end. -/
  cut : Bool
  /-- A write of the end of the transfer failed. -/
  refused : Bool
  /-- The end of the transfer was written. -/
  finished : Bool
  /-- The last status, if it could be read. -/
  status : Option BurnStaReg
  misled : Bool

namespace BurnSeen

def start (file : List UInt8) : BurnSeen :=
  ⟨file, [], BURNMODE_FORBID, 0, false, false, false, none, false⟩

/-- A status that the code takes for a success: with the parameter 0 an erase that did not end in
`BURNMODE_ERASE_OK`, a burn error, or a result that is no `BURNMODE_FINISH_BURN`; any status but a
burn error after the last try of a full ring; and a result with the parameter 0 after a read of the
file or the write of the end of the transfer has failed. -/
def misleads (s : BurnSeen) (reg : BurnStaReg) : Bool :=
  if s.mode = BURNMODE_START_ERASE then
    reg.burn_mode ≠ BURNMODE_ERASE_OK && reg.parameter = 0
  else if s.mode = BURNMODE_START_BURN then
    if reg.burn_mode = BURNMODE_BURN_ERROR then reg.parameter = 0
    else BURN_WR_MAX_RETRY + 1 < s.fruitless
  else
    reg.burn_mode ≠ BURNMODE_FINISH_TRANSFER && reg.parameter = 0 &&
      (reg.burn_mode ≠ BURNMODE_FINISH_BURN || s.refused || s.cut)

def seeStatus (s : BurnSeen) (reg : BurnStaReg) : BurnSeen :=
  { s with status := some reg, misled := s.misled || s.misleads reg }

def seeRead (s : BurnSeen) (addr : UInt16) {cnt : UInt16} :
    Except Fail {bytes : List UInt8 // bytes.length = cnt.toNat} → BurnSeen
  | .ok bytes =>
      if addr = RWREG_BURN_START then s.seeStatus (.ofBytes bytes.val)
      else if addr = RWREG_CB_BURN_START + CBREG_CMD_GET_FREESIZE ∧ int32 bytes.val ≤ 0 then
        { s with fruitless := s.fruitless + 1 }
      else s
  | .error _ =>
      if addr = RWREG_BURN_START then { s with status := none }
      else if addr = RWREG_CB_BURN_START + CBREG_CMD_GET_FREESIZE then
        { s with fruitless := s.fruitless + 1 }
      else s

def seeWrite (s : BurnSeen) (addr : UInt16) (data : List UInt8) : Except Fail Unit → BurnSeen
  | .ok _ =>
      if addr = RWREG_BURN_START then
        { s with mode := data.headD 0, finished := s.finished || data = [BURNMODE_FINISH_TRANSFER] }
      else if addr = RWREG_CB_BURN_START + CBREG_CMD_WRITE then
        { s with accepted := s.accepted ++ data }
      else s
  | .error _ =>
      if addr = RWREG_BURN_START then
        { s with mode := data.headD 0, refused := s.refused || data = [BURNMODE_FINISH_TRANSFER] }
      else if addr = RWREG_CB_BURN_START + CBREG_CMD_WRITE then
        { s with fruitless := s.fruitless + 1 }
      else s

/-- Registers answer anything. A read of the file brings bytes until there are none, or fails. -/
inductive world : World RegI BurnSeen
  | readReg (s : BurnSeen) (addr cnt : UInt16) (timeout : UInt32) (r : _) :
      world s (.readReg addr cnt timeout) r (s.seeRead addr r)
  | writeReg (s : BurnSeen) (addr : UInt16) (data : List UInt8) (timeout : UInt32) (r : _) :
      world s (.writeReg addr data timeout) r (s.seeWrite addr data r)
  | openFile (s : BurnSeen) (path : String) (fd : Int) : world s (.openFile path) fd s
  | readFail (s : BurnSeen) (fd : Int) (count : Nat) (code : Fail) :
      world s (.readFile fd count) (.error code)
        { s with cut := s.cut || s.rest ≠ [], fruitless := 0 }
  | readFile (s : BurnSeen) (fd : Int) (count : Nat)
      (data : {bytes : List UInt8 // bytes.length ≤ count}) (rest : List UInt8)
      (hrest : s.rest = data.val ++ rest) (hend : data.val = [] → rest = [] ∨ count = 0) :
      world s (.readFile fd count) (.ok data) { s with rest := rest, fruitless := 0 }
  | closeFile (s : BurnSeen) (fd : Int) : world s (.closeFile fd) () s
  | usleep (s : BurnSeen) (usec : Nat) : world s (.usleep usec) () s

/-- The file is burnt: its bytes were accepted, the end of the transfer was written, and the last
status says so. -/
structure Sound (file : List UInt8) (s : BurnSeen) : Prop where
  accepted : s.accepted = file
  finished : s.finished = true
  status : s.status = some ⟨BURNMODE_FINISH_BURN, 0⟩

/-- What is wanted of a result. -/
def Fits (file : List UInt8) (ret : Int) (s : BurnSeen) : Prop :=
  (0 ≤ ret → s.Sound file) ↔ s.misled = false

/-! ### Single operations -/

variable {s : BurnSeen} {reg : BurnStaReg} {timeout : UInt32}

/-- Nothing is asked of the operations here. -/
abbrev anyOp : BurnSeen → RegOp → Prop := fun _ _ => True

theorem wlp_readBurnSta {Q : Int × BurnStaReg → BurnSeen → Prop}
    (hok : ∀ reg', Q (0, reg') (s.seeStatus reg'))
    (herr : ∀ ret < 0, Q (ret, reg) { s with status := none }) :
    (readBurnSta reg timeout).wlp world anyOp Q s := by
  rw [readBurnSta_eq]
  refine ⟨trivial, fun r s' answer => ?_⟩
  cases answer with
  | readReg =>
      cases r with
      | ok bytes => exact hok _
      | error code => exact herr _ code.property

theorem wlp_writeBurnMode {Q : Int → BurnSeen → Prop}
    (hok : Q 0 { s with mode := reg.burn_mode,
                        finished := s.finished || [reg.burn_mode] = [BURNMODE_FINISH_TRANSFER] })
    (herr : ∀ ret < 0, Q ret { s with mode := reg.burn_mode,
                                      refused := s.refused ||
                                        [reg.burn_mode] = [BURNMODE_FINISH_TRANSFER] }) :
    (writeBurnMode reg timeout).wlp world anyOp Q s := by
  rw [writeBurnMode_eq]
  refine ⟨trivial, fun r s' answer => ?_⟩
  cases answer with
  | writeReg =>
      cases r with
      | ok _ => exact hok
      | error code => exact herr _ code.property

theorem wlp_clean {Q : Int → BurnSeen → Prop} (hQ : ∀ ret, Q ret s) :
    (clean regWrCbHandle RWREG_CB_BURN_START timeout).wlp world anyOp Q s := by
  rw [clean_eq]
  refine ⟨trivial, fun r s' answer => ?_⟩
  cases answer with
  | writeReg =>
      cases r with
      | ok _ => exact hQ _
      | error code => exact hQ _

theorem seeRead_free {size : {bytes : List UInt8 // bytes.length = (4 : UInt16).toNat}}
    (h : 0 < int32 size.val) :
    s.seeRead (RWREG_CB_BURN_START + CBREG_CMD_GET_FREESIZE) (.ok size) = s := by
  rw [seeRead, if_neg (by decide), if_neg fun hfull => absurd h (Int.not_lt.mpr hfull.2)]

theorem seeRead_full {size : {bytes : List UInt8 // bytes.length = (4 : UInt16).toNat}}
    (h : int32 size.val ≤ 0) :
    s.seeRead (RWREG_CB_BURN_START + CBREG_CMD_GET_FREESIZE) (.ok size) =
      { s with fruitless := s.fruitless + 1 } := by
  rw [seeRead, if_neg (by decide), if_pos ⟨rfl, h⟩]

/-- A try of the ring: it takes a first part of the bytes, or brings nothing. -/
theorem wlp_ringWrite {data : List UInt8} {Q : Int → BurnSeen → Prop} (hpos : 0 < data.length)
    (hlen : data.length < 65536)
    (htook : ∀ n : Nat, 0 < n → n ≤ data.length →
      Q n { s with accepted := s.accepted ++ data.take n })
    (hnone : ∀ ret ≤ 0, Q ret { s with fruitless := s.fruitless + 1 }) :
    (RegWrCb.write regWrCbHandle RWREG_CB_BURN_START data (UInt32.ofNat data.length) timeout).wlp
      world anyOp Q s := by
  apply wlp_write hpos hlen trivial
  · intro code s' answer
    cases answer with
    | readReg => exact hnone _ (le_of_lt code.property)
  · intro size s' answer hfull
    cases answer with
    | readReg =>
        rw [seeRead_full hfull]
        exact hnone _ hfull
  · intro size s' n answer hfree hn hle
    cases answer with
    | readReg =>
        rw [seeRead_free hfree]
        refine ⟨trivial, fun r s' answer => ?_⟩
        cases answer with
        | writeReg =>
            cases r with
            | ok _ => exact htook n hn hle
            | error code => exact hnone _ (le_of_lt code.property)

end BurnSeen

end McuRegWr
