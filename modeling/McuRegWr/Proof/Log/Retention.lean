import Mathlib.Data.List.Lex
import McuRegWr.Base.Chain
import McuRegWr.Base.Rotation
import McuRegWr.Base.World
import McuRegWr.General.DebugLog

/-!
# How many log files are kept

A rotation counts the log files older than the one it begins, and removes the oldest when there are
`LOG_MAX_FILE_COUNT` of them. Files that are newer by name, left by a clock that has been set back,
are not counted.
-/

namespace McuRegWr

open Base Prog

/-! ### The order of the names -/

namespace FileName

def key (name : FileName) : List Nat := name.bytes.map UInt8.toNat

theorem key_injective : Function.Injective key := by
  intro a b h
  obtain ⟨as, ha⟩ := a
  obtain ⟨bs, hb⟩ := b
  have hbytes : as = bs :=
    List.map_injective_iff.mpr (fun x y hxy => UInt8.toNat_inj.mp hxy) h
  subst hbytes
  rfl

/-- Names in the order of their bytes. -/
instance : LinearOrder FileName := LinearOrder.lift' key key_injective

end FileName

theorem strcmp_neg_iff {as bs : List UInt8} (hb : 0 ∉ bs) :
    strcmp as bs < 0 ↔ as.map UInt8.toNat < bs.map UInt8.toNat := by
  induction as generalizing bs with
  | nil =>
      cases bs with
      | nil => simp [strcmp]
      | cons b bs =>
          have hne : b ≠ 0 := fun h => hb (h ▸ List.mem_cons_self)
          have hpos : 0 < b.toNat := UInt8.pos_iff_ne_zero.mpr hne
          simp [strcmp, hpos]
  | cons a as ih =>
      cases bs with
      | nil => simp [strcmp]
      | cons b bs =>
          have hrest := ih fun h => hb (List.mem_cons_of_mem _ h)
          rw [strcmp]
          split
          · rename_i heq
            rw [hrest, heq, List.map_cons, List.map_cons, List.cons_lt_cons_iff]
            simp
          · rename_i hne
            have hne' : a.toNat ≠ b.toNat := fun h => hne (UInt8.toNat_inj.mp h)
            rw [List.map_cons, List.map_cons, List.cons_lt_cons_iff]
            omega

theorem strcmp_neg_iff_lt {a b : FileName} : strcmp a.bytes b.bytes < 0 ↔ a < b :=
  strcmp_neg_iff b.no_zero

/-! ### The directory -/

/-- A directory that is being read: what it held when it was opened and what was returned of it. -/
structure Listing where
  held : Finset FileName
  seen : Finset FileName

/-- The directory of the log. -/
structure Disk where
  made : Bool
  regular : Finset FileName
  other : Finset FileName
  listing : Option Listing
  opened : Option FileName

/-- The log files: the regular files with a name as long as theirs. -/
def Disk.logs (s : Disk) : Finset FileName :=
  s.regular.filter fun name => name.bytes.length = LOG_FILENAME_LEN

/-- A reading of the clock, and the name it is formatted to. -/
structure Clock where
  c_time : Int
  log_name : FileName
  length_name : log_name.bytes.length = LOG_FILENAME_LEN

/-- File operations succeed. A directory is read in any order; what is put into it in the meantime
may be returned or not. -/
def disk (now : Clock) : World LogI Disk
  | s, .time, c_time, s' => c_time = now.c_time ∧ s' = s
  | s, .strftime _, log_name, s' => log_name = now.log_name ∧ s' = s
  | s, .opendir _, dir_ptr, s' =>
      s.made = true ∧ dir_ptr ≠ none ∧
          s' = { s with listing := some ⟨s.regular ∪ s.other, ∅⟩ } ∨
        s.made = false ∧ dir_ptr = none ∧ s' = s
  | s, .mkdir _, ret, s' => 0 ≤ ret ∧ s' = { s with made := true }
  | s, .fopen path, fp, s' =>
      fp ≠ none ∧ path.name ∉ s.other ∧
        s' = { s with regular := insert path.name s.regular, opened := some path.name }
  | s, .readdir _, none, s' => ∃ l, s.listing = some l ∧ l.held ⊆ l.seen ∧ s' = s
  | s, .readdir _, some dp, s' => ∃ l, s.listing = some l ∧
      dp.d_name ∈ s.regular ∪ s.other ∧ dp.d_name ∉ l.seen ∧
      dp.is_reg = decide (dp.d_name ∈ s.regular) ∧
      s' = { s with listing := some { l with seen := insert dp.d_name l.seen } }
  | s, .remove path, _, s' => s' = { s with regular := s.regular.erase path.name }
  | s, .closedir _, _, s' => s' = { s with listing := none }
  | s, .putStdout _, _, s' => s' = s
  | s, .fclose _, _, s' => s' = s
  | s, .fputs _ _, _, s' => s' = s
  | s, .fflush _, _, s' => s' = s

/-- What is removed is the log file with the least name, and not the one just opened. -/
def RemovesOldest (s : Disk) : LogOp → Prop
  | .remove path => path.dir = LOG_DIR_PATH ∧ IsLeast (s.logs : Set FileName) path.name ∧
      s.opened ≠ some path.name
  | _ => True

variable {now : Clock} {s t : Disk} {seen : Finset FileName}

/-! ### The scan -/

/-- The scan of the entries as they come. -/
def LogScan.scan (scan : LogScan) : Scan FileName := ⟨scan.file_count, scan.log_pioneer_name⟩

theorem scan_entry_log (scan : LogScan) {log_name : FileName} {dp : Dirent}
    (hreg : dp.is_reg = true) (hlen : dp.d_name.bytes.length = LOG_FILENAME_LEN) :
    (scan.entry log_name dp).scan = scan.scan.entry log_name dp.d_name := by
  simp only [LogScan.entry, Scan.entry, LogScan.scan, hreg, hlen, strcmp_neg_iff_lt, decide_true,
    Bool.true_and, decide_eq_true_eq]
  split
  · rfl
  · rfl

theorem scan_entry_other (scan : LogScan) {log_name : FileName} {dp : Dirent}
    (hother : ¬ (dp.is_reg = true ∧ dp.d_name.bytes.length = LOG_FILENAME_LEN)) :
    scan.entry log_name dp = scan := by
  rw [LogScan.entry, if_neg]
  simp only [Bool.and_eq_true, decide_eq_true_eq]
  exact fun h => hother h.1

/-- The log files returned so far. -/
def seenLogs (s : Disk) (seen : Finset FileName) : Finset FileName := s.logs.filter (· ∈ seen)

theorem mem_logs {name : FileName} :
    name ∈ s.logs ↔ name ∈ s.regular ∧ name.bytes.length = LOG_FILENAME_LEN :=
  Finset.mem_filter

theorem seenLogs_insert_log {name : FileName} (hlog : name ∈ s.logs) :
    seenLogs s (insert name seen) = insert name (seenLogs s seen) := by
  ext y
  simp only [seenLogs, Finset.mem_filter, Finset.mem_insert]
  constructor
  · rintro ⟨hy, rfl | hseen⟩
    · exact .inl rfl
    · exact .inr ⟨hy, hseen⟩
  · rintro (rfl | ⟨hy, hseen⟩)
    · exact ⟨hlog, .inl rfl⟩
    · exact ⟨hy, .inr hseen⟩

theorem seenLogs_insert_other {name : FileName} (hother : name ∉ s.logs) :
    seenLogs s (insert name seen) = seenLogs s seen := by
  ext y
  simp only [seenLogs, Finset.mem_filter, Finset.mem_insert]
  constructor
  · rintro ⟨hy, rfl | hseen⟩
    · exact absurd hy hother
    · exact ⟨hy, hseen⟩
  · rintro ⟨hy, hseen⟩
    exact ⟨hy, .inr hseen⟩

/-- The directory under way: `seen` was returned, and the scan is that of the log files in it. -/
def Scanning (now : Clock) (s : Disk) (held : Finset FileName) (scan : LogScan) (t : Disk) : Prop :=
  ∃ seen, t = { s with listing := some ⟨held, seen⟩ } ∧
    scan.scan.Of now.log_name (seenLogs s seen)

/-- The directory at its end. -/
def Scanned (now : Clock) (s : Disk) (held : Finset FileName) (scan : LogScan) (t : Disk) : Prop :=
  ∃ seen, held ⊆ seen ∧ t = { s with listing := some ⟨held, seen⟩ } ∧
    scan.scan.Of now.log_name (seenLogs s seen)

theorem wlp_scanDir (dir_ptr : Nat) (fuel : Nat) {held : Finset FileName} {scan : LogScan}
    (h : Scanning now s held scan t) :
    (Prog.loop (scanRound dir_ptr now.log_name) fuel scan).wlp (disk now) RemovesOldest
      (Scanned now s held) t := by
  refine wlp_loop (Scanning now s held) (fun scan t h => ?_) fuel h
  obtain ⟨seen, rfl, hscan⟩ := h
  refine ⟨trivial, fun dp u hu => ?_⟩
  cases dp with
  | none =>
      obtain ⟨l, hl, hall, rfl⟩ := hu
      obtain rfl := Option.some.inj hl
      exact ⟨seen, hall, rfl, hscan⟩
  | some dp =>
      obtain ⟨l, hl, -, hnew, hreg, rfl⟩ := hu
      obtain rfl := Option.some.inj hl
      refine ⟨insert dp.d_name seen, rfl, ?_⟩
      have hnew' : dp.d_name ∉ seenLogs s seen := fun hmem => hnew (Finset.mem_filter.mp hmem).2
      by_cases hlog : dp.d_name ∈ s.logs
      · obtain ⟨hregular, hlen⟩ := mem_logs.mp hlog
        have hreg' : dp.is_reg = true := hreg.trans (decide_eq_true hregular)
        rw [seenLogs_insert_log hlog, scan_entry_log scan hreg' hlen]
        exact hscan.step hnew'
      · have hother : ¬ (dp.is_reg = true ∧ dp.d_name.bytes.length = LOG_FILENAME_LEN) := by
          rintro ⟨hreg', hlen⟩
          exact hlog (mem_logs.mpr ⟨of_decide_eq_true (hreg.symm.trans hreg'), hlen⟩)
        rw [seenLogs_insert_other hlog, scan_entry_other scan hother]
        exact hscan

/-! ### The rotation -/

/-- The directory after the new file has been opened in it. -/
def Disk.begin (s : Disk) (log_name : FileName) : Disk :=
  { s with regular := insert log_name s.regular, opened := some log_name }

theorem logs_begin (s : Disk) {log_name : FileName}
    (hlen : log_name.bytes.length = LOG_FILENAME_LEN) :
    (s.begin log_name).logs = insert log_name s.logs := by
  rw [Disk.logs, Disk.begin, Finset.filter_insert, if_pos hlen]
  rfl

/-- Of the files older than the new one none is missed, and the new one is none of them. -/
theorem below_seenLogs (hheld : s.regular ⊆ seen) :
    (seenLogs (s.begin now.log_name) seen).filter (· < now.log_name) =
      s.logs.filter (· < now.log_name) := by
  ext y
  rw [seenLogs, logs_begin s now.length_name]
  simp only [Finset.mem_filter, Finset.mem_insert]
  constructor
  · rintro ⟨⟨rfl | hy, -⟩, hlt⟩
    · exact absurd hlt (lt_irrefl _)
    · exact ⟨hy, hlt⟩
  · rintro ⟨hy, hlt⟩
    exact ⟨⟨.inr hy, hheld (mem_logs.mp hy).1⟩, hlt⟩

theorem logs_erase (s : Disk) (name : FileName) :
    Disk.logs { s with regular := s.regular.erase name } = s.logs.erase name := by
  rw [Disk.logs, Finset.filter_erase]
  rfl

theorem wlp_closeLog_disk (logRecord : LogRecord) :
    (closeLog logRecord).wlp (disk now) RemovesOldest (fun _ t => t = s) s := by
  rw [closeLog]
  split
  · refine ⟨trivial, fun _ t ht => ?_⟩
    exact ht
  · exact rfl

theorem wlp_openLogDir_disk :
    openLogDir.wlp (disk now) RemovesOldest
      (fun dir_ptr t => dir_ptr ≠ none ∧ t.regular = s.regular ∧
        t.listing = some ⟨s.regular ∪ s.other, ∅⟩) s := by
  simp only [openLogDir, req_eq, ask_bind, done_bind]
  refine ⟨trivial, fun dir_ptr t ht => ?_⟩
  rcases ht with ⟨-, hsome, rfl⟩ | ⟨-, rfl, rfl⟩
  · obtain ⟨dir_ptr, rfl⟩ := Option.ne_none_iff_exists'.mp hsome
    exact ⟨hsome, rfl, rfl⟩
  · refine ⟨trivial, fun ret u hu => ?_⟩
    obtain ⟨hmade, rfl⟩ := hu
    dsimp only
    rw [if_neg (Int.not_lt.mpr hmade)]
    refine ⟨trivial, fun dir_ptr v hv => ?_⟩
    rcases hv with ⟨-, hsome, rfl⟩ | ⟨hnot, -, -⟩
    · exact ⟨hsome, rfl, rfl⟩
    · cases hnot

theorem scanning_begin {held : Finset FileName} (hlisting : s.listing = some ⟨held, ∅⟩) :
    Scanning now (s.begin now.log_name) held ⟨0, now.log_name⟩ (s.begin now.log_name) := by
  refine ⟨∅, ?_, ?_⟩
  · rw [← hlisting]
    rfl
  · have hnone : seenLogs (s.begin now.log_name) ∅ = ∅ := by simp [seenLogs]
    rw [hnone]
    exact Scan.Of.start now.log_name

/-- The scan of a whole directory is that of the log files that were there before. -/
theorem Scanned.result {held : Finset FileName} {scan : LogScan}
    (h : Scanned now (s.begin now.log_name) held scan t) (hheld : s.regular ⊆ held) :
    t.logs = insert now.log_name s.logs ∧ t.opened = some now.log_name ∧
      scan.scan.Of now.log_name s.logs := by
  obtain ⟨seen, hall, rfl, hscan⟩ := h
  exact ⟨logs_begin s now.length_name, rfl, hscan.congr (below_seenLogs (hheld.trans hall))⟩

/-- A rotation of the directory is a rotation of its log files, and removes no file but the oldest
of them. -/
theorem wlp_rotateLog_disk (fuel : Nat) (logRecord : LogRecord) :
    (rotateLog fuel now.c_time logRecord).wlp (disk now) RemovesOldest
      (fun _ t => Rotates LOG_MAX_FILE_COUNT s.logs now.log_name t.logs) s := by
  simp only [rotateLog, wlp_bind]
  refine wlp_conseq (wlp_closeLog_disk logRecord) fun _ t ht => ?_
  obtain rfl := ht
  refine wlp_conseq wlp_openLogDir_disk fun dir_ptr u hu => ?_
  obtain ⟨hsome, hregular, hlisting⟩ := hu
  have hlogs : u.logs = t.logs := by rw [Disk.logs, hregular, Disk.logs]
  cases dir_ptr with
  | none => exact absurd rfl hsome
  | some dir_ptr =>
      simp only [req_eq, ask_bind, done_bind]
      refine ⟨trivial, fun log_name v hv => ?_⟩
      obtain ⟨rfl, rfl⟩ := hv
      refine ⟨trivial, fun fp w hw => ?_⟩
      obtain ⟨hopened, -, hw⟩ := hw
      obtain rfl : w = v.begin now.log_name := hw
      cases fp with
      | none => exact absurd rfl hopened
      | some fp =>
          simp only [wlp_bind]
          refine wlp_conseq (wlp_scanDir dir_ptr fuel (scanning_begin hlisting)) fun scan x hx => ?_
          have hheld : v.regular ⊆ t.regular ∪ t.other := by
            rw [hregular]
            exact Finset.subset_union_left
          obtain ⟨hnew, hlast, hscan⟩ := hx.result hheld
          rw [hlogs] at hnew hscan
          have hcount : scan.file_count = (t.logs.filter (· < now.log_name)).card := hscan.count_eq
          split
          · rename_i hfull
            have hpos : 0 < scan.scan.count := Nat.lt_of_lt_of_le (by decide) hfull
            obtain ⟨hleast, hlt⟩ := hscan.isLeast_of_pos hpos
            refine ⟨⟨rfl, ?_, ?_⟩, fun _ y hy => ?_⟩
            · rw [hnew]
              exact isLeast_insert hleast hlt
            · rw [hlast]
              exact fun hsame => hlt.ne' (Option.some.inj hsame)
            · obtain rfl := hy
              refine ⟨trivial, fun _ z hz => ?_⟩
              obtain rfl := hz
              have hrotates : Rotates LOG_MAX_FILE_COUNT t.logs now.log_name
                  (Disk.logs { x with regular := x.regular.erase scan.log_pioneer_name }) := by
                rw [logs_erase, hnew]
                exact Rotates.of_full (hcount ▸ hfull) hleast
              exact hrotates
          · rename_i hroom
            refine ⟨trivial, fun _ z hz => ?_⟩
            obtain rfl := hz
            have hrotates : Rotates LOG_MAX_FILE_COUNT t.logs now.log_name x.logs := by
              rw [hnew]
              exact Rotates.of_room (hcount ▸ hroom)
            exact hrotates

/-- What a call does to the log files. -/
def LogStep (now : Clock) (logRecord : LogRecord) (s t : Disk) : Prop :=
  if logRecord.due now.c_time then Rotates LOG_MAX_FILE_COUNT s.logs now.log_name t.logs
  else t.logs = s.logs

theorem wlp_rotateDue_disk (fuel : Nat) (logRecord : LogRecord) :
    (rotateDue fuel now.c_time logRecord).wlp (disk now) RemovesOldest
      (fun _ t => LogStep now logRecord s t) s := by
  rw [rotateDue]
  split
  · rename_i hdue
    refine wlp_conseq (wlp_rotateLog_disk fuel logRecord) fun _ t ht => ?_
    rwa [LogStep, if_pos hdue]
  · rename_i hdue
    exact (if_neg hdue).mpr rfl

theorem wlp_dbgOutStr_disk (fuel : Nat) (str : String) (logRecord : LogRecord) :
    (dbgOutStr fuel str logRecord).wlp (disk now) RemovesOldest
      (fun _ t => LogStep now logRecord s t) s := by
  simp only [dbgOutStr, req_eq, ask_bind, done_bind]
  refine ⟨trivial, fun c_time t ht => ⟨trivial, fun _ u hu => ?_⟩⟩
  obtain ⟨rfl, rfl⟩ := ht
  obtain rfl := hu
  rw [if_neg (by decide)]
  simp only [wlp_bind]
  refine wlp_conseq (wlp_rotateDue_disk fuel logRecord) fun a v hv => ?_
  obtain ⟨logRecord', on⟩ := a
  dsimp only
  split
  · refine ⟨trivial, fun _ w hw => ?_⟩
    obtain rfl := hw
    refine ⟨trivial, fun _ x hx => ?_⟩
    obtain rfl := hx
    exact hv
  · exact hv

/-! ### Many calls -/

/-- A call of `dbg_out_str` that has returned: the record and the directory it found, and those it
left. -/
structure DiskCall where
  now : Clock
  before : LogRecord
  found : Disk
  after : LogRecord
  left : Disk

namespace DiskCall

/-- The call is made on the directory at hand, by the same process or by one that has just started.
-/
def Step (a : LogRecord × Disk) (e : DiskCall) (b : LogRecord × Disk) : Prop :=
  (e.before = a.1 ∨ e.before = .zero) ∧ e.found = a.2 ∧ e.after = b.1 ∧ e.left = b.2 ∧
    ∃ fuel str, Exec (disk e.now) (dbgOutStr fuel str e.before) e.found e.after e.left

/-- The call leaves at most `LOG_MAX_FILE_COUNT` log files, and whatever it removes under way is the
oldest of them and not the one it has begun. -/
structure Bounded (e : DiskCall) : Prop where
  card_le : e.left.logs.card ≤ LOG_MAX_FILE_COUNT
  removes : ∀ fuel str path next t,
    Steps (disk e.now) (dbgOutStr fuel str e.before) e.found (.ask (.remove path) next) t →
      path.dir = LOG_DIR_PATH ∧ IsLeast (t.logs : Set FileName) path.name ∧
        t.opened ≠ some path.name

/-- A file that has to be begun is there already, or has room, or is newer by name than all others.
-/
def Fits (e : DiskCall) : Prop :=
  e.before.due e.now.c_time →
    e.now.log_name ∈ e.found.logs ∨ e.found.logs.card < LOG_MAX_FILE_COUNT ∨
      ∀ name ∈ e.found.logs, name < e.now.log_name

end DiskCall

/-- What is removed is the oldest log file, whatever the clock says. -/
theorem removes_oldest {fuel : Nat} {str : String} {logRecord : LogRecord} {path : LogPath}
    {next : Unit → Prog LogI LogRecord}
    (steps : Steps (disk now) (dbgOutStr fuel str logRecord) s (.ask (.remove path) next) t) :
    path.dir = LOG_DIR_PATH ∧ IsLeast (t.logs : Set FileName) path.name ∧
      t.opened ≠ some path.name :=
  wlp_guard (wlp_dbgOutStr_disk fuel str logRecord) steps

theorem LogStep.card_le_iff {logRecord : LogRecord} (h : LogStep now logRecord s t)
    (hs : s.logs.card ≤ LOG_MAX_FILE_COUNT) :
    t.logs.card ≤ LOG_MAX_FILE_COUNT ↔ (logRecord.due now.c_time → now.log_name ∈ s.logs ∨
      s.logs.card < LOG_MAX_FILE_COUNT ∨ ∀ name ∈ s.logs, name < now.log_name) := by
  rw [LogStep] at h
  split at h
  · rename_i hdue
    rw [h.card_le_iff hs]
    exact ⟨fun hfits _ => hfits, fun hfits => hfits hdue⟩
  · rename_i hdue
    rw [h]
    exact ⟨fun _ hdue' => absurd hdue' hdue, fun _ => hs⟩

/-- From few files a call leaves few just when its own fits. -/
theorem DiskCall.bounded_iff {e : DiskCall} (hfew : e.found.logs.card ≤ LOG_MAX_FILE_COUNT)
    {fuel : Nat} {str : String}
    (exec : Exec (disk e.now) (dbgOutStr fuel str e.before) e.found e.after e.left) :
    e.Bounded ↔ e.Fits := by
  have hstep := wlp_exec (wlp_dbgOutStr_disk fuel str e.before) exec
  have hleft := hstep.card_le_iff hfew
  constructor
  · intro hbounded
    exact hleft.mp hbounded.card_le
  · intro hfits
    exact ⟨hleft.mpr hfits, fun _ _ _ _ _ steps => removes_oldest steps⟩

/-- In every run of calls from a directory with few log files, few are left and only the oldest are
removed just when every file begun is there already, has room, or is newer by name than all
others. -/
theorem log_files_bounded_iff {log : List DiskCall} {s : Disk} {b : LogRecord × Disk}
    (run : Chain DiskCall.Step (.zero, s) log b) (hs : s.logs.card ≤ LOG_MAX_FILE_COUNT) :
    (∀ e ∈ log, e.Bounded) ↔ ∀ e ∈ log, e.Fits := by
  apply run.forall_iff (K := fun a => a.2.logs.card ≤ LOG_MAX_FILE_COUNT) _ hs
  intro a e b hfew hstep
  obtain ⟨-, hfound, -, hleft, fuel, str, exec⟩ := hstep
  rw [← hfound] at hfew
  rw [← hleft]
  exact ⟨DiskCall.bounded_iff hfew exec, fun hbounded => hbounded.card_le⟩

/-! ### Runs -/

theorem exec_scanDir (now : Clock) (s : Disk) (dir_ptr : Nat) (log_name : FileName)
    {held : Finset FileName} {names : List FileName} (hnodup : names.Nodup)
    (hmem : ∀ name ∈ names, name ∈ s.regular ∪ s.other) (hnew : ∀ name ∈ names, name ∉ seen)
    (hheld : held ⊆ seen ∪ names.toFinset) (scan : LogScan) :
    ∃ scan' seen', Exec (disk now)
      (Prog.loop (scanRound dir_ptr log_name) (names.length + 1) scan)
      { s with listing := some ⟨held, seen⟩ } scan' { s with listing := some ⟨held, seen'⟩ } := by
  induction names generalizing seen scan with
  | nil =>
      have hall : held ⊆ seen := by simpa using hheld
      have answer : disk now { s with listing := some ⟨held, seen⟩ } (.readdir dir_ptr) none
          { s with listing := some ⟨held, seen⟩ } := ⟨_, rfl, hall, rfl⟩
      exact ⟨scan, seen, .ask answer (.refl _ _)⟩
  | cons name names ih =>
      rw [List.nodup_cons] at hnodup
      rw [List.forall_mem_cons] at hmem hnew
      have answer : disk now { s with listing := some ⟨held, seen⟩ } (.readdir dir_ptr)
          (some ⟨decide (name ∈ s.regular), name⟩)
          { s with listing := some ⟨held, insert name seen⟩ } :=
        ⟨_, rfl, hmem.1, hnew.1, rfl, rfl⟩
      have hrest : ∀ name' ∈ names, name' ∉ insert name seen := by
        intro name' hname' hin
        rcases Finset.mem_insert.mp hin with rfl | hseen
        · exact hnodup.1 hname'
        · exact hnew.2 name' hname' hseen
      have hheld' : held ⊆ insert name seen ∪ names.toFinset := by
        rwa [List.toFinset_cons, Finset.union_insert, ← Finset.insert_union] at hheld
      obtain ⟨scan', seen', exec⟩ := ih hnodup.2 hmem.2 hrest hheld'
        (scan.entry log_name ⟨decide (name ∈ s.regular), name⟩)
      exact ⟨scan', seen', .ask answer exec⟩

theorem exec_openLogDir : ∃ dir_ptr t, Exec (disk now) openLogDir s (some dir_ptr) t ∧
    t.regular = s.regular ∧ t.other = s.other ∧ t.listing = some ⟨s.regular ∪ s.other, ∅⟩ := by
  have opens : ∀ s : Disk, s.made = true → disk now s (.opendir LOG_DIR_PATH) (some 0)
      { s with listing := some ⟨s.regular ∪ s.other, ∅⟩ } :=
    fun s hmade => .inl ⟨hmade, Option.some_ne_none 0, rfl⟩
  cases hmade : s.made with
  | true => exact ⟨0, _, .ask (opens s hmade) (.refl _ _), rfl, rfl, rfl⟩
  | false =>
      have fails : disk now s (.opendir LOG_DIR_PATH) none s := .inr ⟨hmade, rfl, rfl⟩
      have makes : disk now s (.mkdir LOG_DIR_PATH) (0 : Int) { s with made := true } :=
        ⟨le_refl _, rfl⟩
      exact ⟨0, _, .ask fails (.ask makes (.ask (opens _ rfl) (.refl _ _))), rfl, rfl, rfl⟩

theorem exec_closeLog (logRecord : LogRecord) :
    Exec (disk now) (closeLog logRecord) s () s := by
  rw [closeLog]
  split
  · exact .ask (I := LogI) (r := ()) rfl (.refl _ _)
  · exact .refl _ _

theorem exec_scanBegin (now : Clock) (dir_ptr : Nat)
    (hlisting : s.listing = some ⟨s.regular ∪ s.other, ∅⟩) :
    ∃ fuel scan t, Exec (disk now)
      (Prog.loop (scanRound dir_ptr now.log_name) fuel ⟨0, now.log_name⟩) (s.begin now.log_name)
      scan t := by
  have hheld : s.regular ∪ s.other ⊆
      ∅ ∪ ((s.begin now.log_name).regular ∪ s.other).toList.toFinset := by
    rw [Finset.toList_toFinset, Finset.empty_union]
    exact Finset.union_subset_union_left (Finset.subset_insert _ _)
  obtain ⟨scan, seen, exec⟩ := exec_scanDir now (s.begin now.log_name) dir_ptr
    now.log_name (Finset.nodup_toList _) (fun name hname => Finset.mem_toList.mp hname)
    (fun _ _ => Finset.notMem_empty _) hheld ⟨0, now.log_name⟩
  have hbegin : { s.begin now.log_name with listing := some ⟨s.regular ∪ s.other, ∅⟩ } =
      s.begin now.log_name := by
    rw [← hlisting]
    rfl
  rw [hbegin] at exec
  exact ⟨_, scan, _, exec⟩

theorem exec_rotateLog (hother : now.log_name ∉ s.other) (logRecord : LogRecord) :
    ∃ fuel logRecord' t, Exec (disk now) (rotateLog fuel now.c_time logRecord) s
      (logRecord', true) t := by
  obtain ⟨dir_ptr, u, hopen, hregular, hother', hlisting⟩ := @exec_openLogDir now s
  rw [← hregular, ← hother'] at hlisting
  obtain ⟨fuel, scan, v, hscan⟩ := exec_scanBegin now dir_ptr hlisting
  have formats : disk now u (.strftime now.c_time) now.log_name u := ⟨rfl, rfl⟩
  have opens : disk now u (.fopen ⟨LOG_DIR_PATH, now.log_name⟩) (some 0) (u.begin now.log_name) :=
    ⟨Option.some_ne_none 0, hother' ▸ hother, rfl⟩
  have closes : ∀ v : Disk, Exec (disk now) (do
      @Prog.req LogI (.closedir dir_ptr)
      return ((⟨now.c_time + LOG_INTERVAL_TIME * 60, some 0⟩ : LogRecord), true)) v
      (⟨now.c_time + LOG_INTERVAL_TIME * 60, some 0⟩, true) { v with listing := none } :=
    fun v => .ask (I := LogI) (o := .closedir dir_ptr) (r := ()) rfl (.refl _ _)
  have hend : ∃ t, Exec (disk now) (do
      if scan.file_count ≥ LOG_MAX_FILE_COUNT then
        @Prog.req LogI (.remove ⟨LOG_DIR_PATH, scan.log_pioneer_name⟩)
      @Prog.req LogI (.closedir dir_ptr)
      return ((⟨now.c_time + LOG_INTERVAL_TIME * 60, some 0⟩ : LogRecord), true)) v
      (⟨now.c_time + LOG_INTERVAL_TIME * 60, some 0⟩, true) t := by
    dsimp only
    split
    · exact ⟨_, .ask (I := LogI) (r := ()) rfl (closes _)⟩
    · exact ⟨_, closes v⟩
  obtain ⟨t, hend⟩ := hend
  refine ⟨fuel, ⟨now.c_time + LOG_INTERVAL_TIME * 60, some 0⟩, t, ?_⟩
  exact exec_bind.mpr ⟨(), s, exec_closeLog logRecord, exec_bind.mpr ⟨some dir_ptr, u, hopen,
    .ask formats (.ask opens ((exec_bind (p := Prog.loop (scanRound dir_ptr now.log_name) fuel
      ⟨0, now.log_name⟩)).mpr ⟨scan, v, hscan, hend⟩))⟩⟩

theorem disk_other {t : Disk} {o : LogI.Op} {r : LogI.Ans o} (answer : disk now s o r t) :
    t.other = s.other := by
  cases o with
  | time => exact congrArg Disk.other answer.2
  | strftime c_time => exact congrArg Disk.other answer.2
  | opendir path => rcases answer with ⟨-, -, rfl⟩ | ⟨-, -, rfl⟩ <;> rfl
  | mkdir path =>
      obtain ⟨-, rfl⟩ := answer
      rfl
  | fopen path =>
      obtain ⟨-, -, rfl⟩ := answer
      rfl
  | readdir dir_ptr =>
      cases r with
      | none =>
          obtain ⟨l, -, -, rfl⟩ := answer
          rfl
      | some dp =>
          obtain ⟨l, -, -, -, -, rfl⟩ := answer
          rfl
  | _ =>
      obtain rfl := answer
      rfl

theorem other_of_steps {α : Type} {p q : Prog LogI α} {t : Disk}
    (run : Steps (disk now) p s q t) : t.other = s.other := by
  induction run with
  | refl => rfl
  | ask answer _ ih => exact ih.trans (disk_other answer)

theorem exec_dbgOutStr (hother : now.log_name ∉ s.other) (str : String) (logRecord : LogRecord) :
    ∃ fuel logRecord' t, Exec (disk now) (dbgOutStr fuel str logRecord) s logRecord' t := by
  have hdue : ∃ fuel logRecord' t, Exec (disk now) (rotateDue fuel now.c_time logRecord) s
      (logRecord', true) t := by
    simp only [rotateDue]
    split
    · exact exec_rotateLog hother logRecord
    · exact ⟨0, logRecord, s, .refl _ _⟩
  obtain ⟨fuel, logRecord', t, exec⟩ := hdue
  have ticks : disk now s .time now.c_time s := ⟨rfl, rfl⟩
  have writes : Exec (disk now) (do
      @Prog.req LogI (.fputs str logRecord'.log_fp)
      @Prog.req LogI (.fflush logRecord'.log_fp)
      return logRecord') t logRecord' t :=
    .ask (I := LogI) (r := ()) rfl (.ask (I := LogI) (r := ()) rfl (.refl _ _))
  exact ⟨fuel, logRecord', t, .ask ticks (.ask (I := LogI) (o := .putStdout str) (r := ()) rfl
    ((exec_bind (p := rotateDue fuel now.c_time logRecord)).mpr
      ⟨(logRecord', true), t, exec, writes⟩))⟩

/-- `2024-01-0d_00:00:00.log` -/
def dayLog (d : Fin 10) : FileName where
  bytes := [50, 48, 50, 52, 45, 48, 49, 45, 48, 48 + UInt8.ofNat d.val, 95, 48, 48, 58, 48, 48, 58,
    48, 48, 46, 108, 111, 103]
  no_zero := by
    revert d
    decide

/-- `1970-01-01_00:00:20.log` -/
def bootLog : FileName where
  bytes := [49, 57, 55, 48, 45, 48, 49, 45, 48, 49, 95, 48, 48, 58, 48, 48, 58, 50, 48, 46, 108, 111,
    103]
  no_zero := by decide

/-- Five days have been logged. -/
def fiveDays : Disk where
  made := true
  regular := {dayLog 1, dayLog 2, dayLog 3, dayLog 4, dayLog 5}
  other := ∅
  listing := none
  opened := none

/-- The clock at boot. -/
def bootClock : Clock := ⟨20, bootLog, rfl⟩

/-- The clock on a day of that January. -/
def dayClock (d : Fin 10) : Clock where
  c_time := 1704067200 + 86400 * (d.val - 1)
  log_name := dayLog d
  length_name := rfl

/-- A process on the sixth day and another one on the seventh: each removes the oldest of five. -/
theorem log_files_bounded_iff_two_days : ∃ log b,
    Chain DiskCall.Step (.zero, fiveDays) log b ∧ log.length = 2 ∧ ∀ e ∈ log, e.Bounded := by
  obtain ⟨fuel, logRecord, t, exec⟩ :=
    @exec_dbgOutStr (dayClock 6) fiveDays (Finset.notMem_empty _) "a" .zero
  have hother : t.other = ∅ := other_of_steps exec
  obtain ⟨fuel', logRecord', t', exec'⟩ :=
    @exec_dbgOutStr (dayClock 7) t (by rw [hother]; exact Finset.notMem_empty _) "b" .zero
  have first : DiskCall.Step (.zero, fiveDays) ⟨dayClock 6, .zero, fiveDays, logRecord, t⟩
      (logRecord, t) := ⟨.inl rfl, rfl, rfl, rfl, fuel, "a", exec⟩
  have second : DiskCall.Step (logRecord, t) ⟨dayClock 7, .zero, t, logRecord', t'⟩
      (logRecord', t') := ⟨.inr rfl, rfl, rfl, rfl, fuel', "b", exec'⟩
  have run : Chain DiskCall.Step (.zero, fiveDays)
      [⟨dayClock 6, .zero, fiveDays, logRecord, t⟩, ⟨dayClock 7, .zero, t, logRecord', t'⟩]
      (logRecord', t') := .cons first (.cons second (.nil _))
  have hlogs : t.logs ⊆ insert (dayLog 6) fiveDays.logs := by
    have hstep := wlp_exec (wlp_dbgOutStr_disk fuel "a" .zero) exec
    have hdue : LogRecord.zero.due (dayClock 6).c_time = true := by decide
    rw [LogStep, if_pos hdue, Rotates] at hstep
    split at hstep
    · obtain ⟨y, -, heq⟩ := hstep
      rw [heq]
      exact Finset.erase_subset _ _
    · exact hstep.subset
  have hsixth : ∀ name ∈ insert (dayLog 6) fiveDays.logs, name < dayLog 7 := by decide +kernel
  refine ⟨_, _, run, rfl, (log_files_bounded_iff run (by decide +kernel)).mpr ?_⟩
  intro e he _
  obtain rfl | he := List.mem_cons.mp he
  · right
    right
    show ∀ name ∈ fiveDays.logs, name < dayLog 6
    decide +kernel
  · obtain rfl := List.mem_singleton.mp he
    exact .inr (.inr fun name hname => hsixth name (hlogs hname))

/-- A clock that has been set back leaves a sixth log file. -/
theorem log_files_unbounded : fiveDays.logs.card = LOG_MAX_FILE_COUNT ∧
    ∃ e b, Chain DiskCall.Step (.zero, fiveDays) [e] b ∧ e.now = bootClock ∧
      e.left.logs.card = LOG_MAX_FILE_COUNT + 1 ∧ ¬ e.Bounded := by
  obtain ⟨fuel, logRecord, t, exec⟩ :=
    @exec_dbgOutStr bootClock fiveDays (Finset.notMem_empty _) "a" .zero
  have run : Chain DiskCall.Step (.zero, fiveDays) [⟨bootClock, .zero, fiveDays, logRecord, t⟩]
      (logRecord, t) :=
    .cons ⟨.inl rfl, rfl, rfl, rfl, fuel, "a", exec⟩ (.nil _)
  have hstep := wlp_exec (wlp_dbgOutStr_disk fuel "a" .zero) exec
  have hfull : ¬ LOG_MAX_FILE_COUNT ≤ (fiveDays.logs.filter (· < bootLog)).card := by
    decide +kernel
  have hdue : LogRecord.zero.due bootClock.c_time = true := by decide
  have hlogs : t.logs = insert bootLog fiveDays.logs := by
    rw [LogStep, if_pos hdue, Rotates] at hstep
    exact (if_neg hfull).mp hstep
  have hcard : t.logs.card = LOG_MAX_FILE_COUNT + 1 := by
    rw [hlogs]
    decide +kernel
  refine ⟨by decide +kernel, _, _, run, rfl, hcard, fun hbounded => ?_⟩
  exact absurd (hcard.symm.trans_le hbounded.card_le) (by decide)

end McuRegWr
