import McuRegWr.Base.Prog

/-!
# The log of the debug module

`dbg_out_str` of `debug.c`: every line goes to the standard output and to a log file, a new file is
begun every `LOG_INTERVAL_TIME` minutes, and the oldest one is then removed.
-/

namespace McuRegWr

open Base

def LOG_INTERVAL_TIME : Int := 20

def LOG_MAX_FILE_COUNT : Nat := 5

def LOG_DIR_PATH : String := "/userdata/log"

def LOG_FILENAME_LEN : Nat := 23

/-- A file name as `strlen` and `strcmp` see it: bytes without a zero. -/
structure FileName where
  bytes : List UInt8
  no_zero : 0 ∉ bytes

/-- `strcmp` of two strings: the difference of the first bytes that differ. -/
def strcmp : List UInt8 → List UInt8 → Int
  | [], [] => 0
  | [], b :: _ => -(b.toNat : Int)
  | a :: _, [] => a.toNat
  | a :: as, b :: bs => if a = b then strcmp as bs else (a.toNat : Int) - b.toNat

/-- `"%s/%s"` -/
structure LogPath where
  dir : String
  name : FileName

/-- `struct dirent` with the fields that are read. `d_type` says only whether it is `DT_REG`. -/
structure Dirent where
  is_reg : Bool
  d_name : FileName

/-- A stream: the value of a `FILE *` that is not `NULL`. -/
abbrev Stream : Type := Nat

/-- What `dbg_out_str` calls. `strftime` stands for the two calls that format a time as the name of a
log file. -/
inductive LogOp where
  | time
  | putStdout (str : String)
  | fclose (fp : Stream)
  | opendir (path : String)
  | mkdir (path : String)
  | strftime (c_time : Int)
  | fopen (path : LogPath)
  | readdir (dir : Nat)
  | remove (path : LogPath)
  | closedir (dir : Nat)
  | fputs (str : String) (fp : Option Stream)
  | fflush (fp : Option Stream)

@[reducible] def LogOp.Ans : LogOp → Type
  | .time => Int
  | .putStdout _ => Unit
  | .fclose _ => Unit
  | .opendir _ => Option Nat
  | .mkdir _ => Int
  | .strftime _ => FileName
  | .fopen _ => Option Stream
  | .readdir _ => Option Dirent
  | .remove _ => Unit
  | .closedir _ => Unit
  | .fputs _ _ => Unit
  | .fflush _ => Unit

abbrev LogI : Iface := ⟨LogOp, LogOp.Ans⟩

/-- `struct LogRecord` -/
structure LogRecord where
  deadline : Int
  log_fp : Option Stream
  deriving DecidableEq, Repr

namespace LogRecord

/-- The static record of a process that has just started. -/
def zero : LogRecord := ⟨0, none⟩

/-- `logRecord.deadline < c_time || logRecord.log_fp == NULL` -/
def due (logRecord : LogRecord) (c_time : Int) : Bool :=
  logRecord.deadline < c_time || logRecord.log_fp.isNone

end LogRecord

/-- `if(logRecord.log_fp) fclose(logRecord.log_fp);` -/
def closeLog (logRecord : LogRecord) : Prog LogI Unit := do
  match logRecord.log_fp with
  | some fp => @Prog.req LogI (.fclose fp)
  | none => return ()

/-- Open the directory of the log, which is made when it cannot be opened. -/
def openLogDir : Prog LogI (Option Nat) := do
  match ← @Prog.req LogI (.opendir LOG_DIR_PATH) with
  | some dir_ptr => return some dir_ptr
  | none =>
      let ret ← @Prog.req LogI (.mkdir LOG_DIR_PATH)
      if ret < 0 then return none
      @Prog.req LogI (.opendir LOG_DIR_PATH)

/-- `file_count` and `log_pioneer_name`. -/
structure LogScan where
  file_count : Nat
  log_pioneer_name : FileName

/-- What an entry of the directory adds to the scan. -/
def LogScan.entry (log_name : FileName) (s : LogScan) (dp : Dirent) : LogScan :=
  if dp.is_reg && dp.d_name.bytes.length = LOG_FILENAME_LEN &&
      strcmp dp.d_name.bytes log_name.bytes < 0 then
    { file_count := s.file_count + 1
      log_pioneer_name :=
        if strcmp dp.d_name.bytes s.log_pioneer_name.bytes < 0 then dp.d_name
        else s.log_pioneer_name }
  else s

/-- One round of `while((dp = readdir(dir_ptr)))`. -/
def scanRound (dir_ptr : Nat) (log_name : FileName) (s : LogScan) :
    Prog LogI (LogScan ⊕ LogScan) := do
  match ← @Prog.req LogI (.readdir dir_ptr) with
  | none => return .inr s
  | some dp => return .inl (s.entry log_name dp)

/-- The body of `if(logRecord.deadline < c_time || logRecord.log_fp == NULL)`: the record, and
whether `dbg_out_str` goes on. -/
def rotateLog (fuel : Nat) (c_time : Int) (logRecord : LogRecord) :
    Prog LogI (LogRecord × Bool) := do
  closeLog logRecord
  match ← openLogDir with
  | none => return (logRecord, false)
  | some dir_ptr =>
      let log_name ← @Prog.req LogI (.strftime c_time)
      match ← @Prog.req LogI (.fopen ⟨LOG_DIR_PATH, log_name⟩) with
      | none =>
          @Prog.req LogI (.closedir dir_ptr)
          return ({ logRecord with log_fp := none }, false)
      | some fp =>
          let scan ← Prog.loop (scanRound dir_ptr log_name) fuel ⟨0, log_name⟩
          if scan.file_count ≥ LOG_MAX_FILE_COUNT then
            @Prog.req LogI (.remove ⟨LOG_DIR_PATH, scan.log_pioneer_name⟩)
          @Prog.req LogI (.closedir dir_ptr)
          return (⟨c_time + LOG_INTERVAL_TIME * 60, some fp⟩, true)

/-- A rotation if one is due. -/
def rotateDue (fuel : Nat) (c_time : Int) (logRecord : LogRecord) :
    Prog LogI (LogRecord × Bool) :=
  if logRecord.due c_time then rotateLog fuel c_time logRecord else return (logRecord, true)

/-- `dbg_out_str`. `logRecord` is the static record, returned as the call leaves it. -/
def dbgOutStr (fuel : Nat) (str : String) (logRecord : LogRecord) : Prog LogI LogRecord := do
  let c_time ← @Prog.req LogI .time
  @Prog.req LogI (.putStdout str)
  if LOG_MAX_FILE_COUNT = 0 then return logRecord
  let (logRecord, on) ← rotateDue fuel c_time logRecord
  if on then
    @Prog.req LogI (.fputs str logRecord.log_fp)
    @Prog.req LogI (.fflush logRecord.log_fp)
    return logRecord
  return logRecord

end McuRegWr
