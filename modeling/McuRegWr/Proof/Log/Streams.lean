import Mathlib.Data.Set.Insert
import McuRegWr.Base.Chain
import McuRegWr.Base.World
import McuRegWr.General.DebugLog

/-!
# The stream of the log

A rotation closes the old stream first and stores the new one last. When it returns in between the
static record still holds the closed stream, and the next call uses it.
-/

namespace McuRegWr

open Base Prog

/-- What a call finds: the time, whether the directory can be opened, what making it returns and
whether it can be opened then. Opening the file can succeed or fail. -/
structure LogEnv where
  c_time : Int
  opendir : Bool
  mkdir : Int
  reopendir : Bool

/-- The streams that are open, and how often this call has opened the directory. -/
structure Streams where
  isOpen : Set Stream
  opendirs : Nat

/-- A stream that is opened was not open before. -/
def streams (env : LogEnv) : World LogI Streams
  | s, .time, c_time, s' => c_time = env.c_time ∧ s' = { s with opendirs := 0 }
  | s, .fclose fp, _, s' => s' = { s with isOpen := s.isOpen \ {fp} }
  | s, .opendir _, dir_ptr, s' =>
      dir_ptr.isSome = (if s.opendirs = 0 then env.opendir else env.reopendir) ∧
        s' = { s with opendirs := s.opendirs + 1 }
  | s, .mkdir _, ret, s' => ret = env.mkdir ∧ s' = s
  | s, .fopen _, none, s' => s' = s
  | s, .fopen _, some fp, s' => fp ∉ s.isOpen ∧ s' = { s with isOpen := insert fp s.isOpen }
  | s, .putStdout _, _, s' => s' = s
  | s, .strftime _, _, s' => s' = s
  | s, .readdir _, _, s' => s' = s
  | s, .remove _, _, s' => s' = s
  | s, .closedir _, _, s' => s' = s
  | s, .fputs _ _, _, s' => s' = s
  | s, .fflush _, _, s' => s' = s

/-- No stream is used that is not open. -/
def UsesOpen (s : Streams) : LogOp → Prop
  | .fclose fp => fp ∈ s.isOpen
  | .fputs _ fp => ∃ fp' ∈ s.isOpen, fp = some fp'
  | .fflush fp => ∃ fp' ∈ s.isOpen, fp = some fp'
  | _ => True

/-- The record holds no stream, or one that is open. -/
def LogRecord.Valid (logRecord : LogRecord) (s : Streams) : Prop :=
  ∀ fp, logRecord.log_fp = some fp → fp ∈ s.isOpen

/-- The directory of the log can be neither opened nor made and opened. -/
def LogEnv.NoDir (env : LogEnv) : Prop :=
  env.opendir = false ∧ (env.mkdir < 0 ∨ env.reopendir = false)

/-- The file has expired and the directory for the next one is gone. -/
def LosesDir (env : LogEnv) (logRecord : LogRecord) : Prop :=
  logRecord.log_fp ≠ none ∧ logRecord.deadline < env.c_time ∧ env.NoDir

variable {env : LogEnv} {s : Streams} {logRecord : LogRecord}

/-! ### One call -/

theorem wlp_closeLog (h : logRecord.Valid s) :
    (closeLog logRecord).wlp (streams env) UsesOpen
      (fun _ t => t.opendirs = s.opendirs ∧ ∀ fp, logRecord.log_fp = some fp → fp ∉ t.isOpen)
      s := by
  rw [closeLog]
  split
  · rename_i fp hfp
    refine ⟨h fp hfp, fun _ t ht => ?_⟩
    obtain rfl := ht
    refine ⟨rfl, fun fp' hfp' => ?_⟩
    obtain rfl := Option.some.inj (hfp.symm.trans hfp')
    exact fun hmem => hmem.2 rfl
  · rename_i hnone
    refine ⟨rfl, fun fp hfp => ?_⟩
    rw [hnone] at hfp
    cases hfp

theorem wlp_openLogDir (hfirst : s.opendirs = 0) :
    openLogDir.wlp (streams env) UsesOpen
      (fun dir_ptr t => (dir_ptr = none ↔ env.NoDir) ∧ t.isOpen = s.isOpen) s := by
  simp only [openLogDir, req_eq, ask_bind, done_bind]
  refine ⟨trivial, fun dir_ptr t ht => ?_⟩
  obtain ⟨hdir, rfl⟩ := ht
  rw [if_pos hfirst] at hdir
  cases dir_ptr with
  | some dir_ptr =>
      refine ⟨⟨fun hnone => ?_, fun hno => ?_⟩, rfl⟩
      · cases hnone
      · rw [hno.1] at hdir
        cases hdir
  | none =>
      refine ⟨trivial, fun ret u hu => ?_⟩
      obtain ⟨rfl, rfl⟩ := hu
      have hclosed : env.opendir = false := hdir.symm
      dsimp only
      split
      · rename_i hneg
        exact ⟨⟨fun _ => ⟨hclosed, .inl hneg⟩, fun _ => rfl⟩, rfl⟩
      · rename_i hmade
        refine ⟨trivial, fun dir_ptr v hv => ?_⟩
        obtain ⟨hagain, rfl⟩ := hv
        have hagain' : dir_ptr.isSome = env.reopendir := hagain
        refine ⟨⟨fun hnone => ⟨hclosed, .inr ?_⟩, fun hno => ?_⟩, rfl⟩
        · rw [← hagain', hnone]
          rfl
        · have hlost := hno.2.resolve_left hmade
          rw [← hagain'] at hlost
          exact Option.not_isSome_iff_eq_none.mp (by rw [hlost]; decide)

theorem wlp_scan (dir_ptr : Nat) (log_name : FileName) (fuel : Nat) (scan : LogScan) :
    (Prog.loop (scanRound dir_ptr log_name) fuel scan).wlp (streams env) UsesOpen
      (fun _ t => t = s) s := by
  refine wlp_loop (fun _ t => t = s) (fun scan t ht => ?_) fuel rfl
  refine ⟨trivial, fun dp u hu => ?_⟩
  obtain rfl := hu
  cases dp with
  | none => exact ht
  | some dp => exact ht

/-- A rotation without a directory keeps a closed stream. Any other leaves an open one, or none. -/
theorem wlp_rotateLog (fuel : Nat) (c_time : Int) (h : logRecord.Valid s)
    (hfirst : s.opendirs = 0) :
    (rotateLog fuel c_time logRecord).wlp (streams env) UsesOpen
      (fun a t =>
        env.NoDir ∧ a = (logRecord, false) ∧
            (∀ fp, logRecord.log_fp = some fp → fp ∉ t.isOpen) ∨
          ¬ env.NoDir ∧ a.1.Valid t ∧ (a.2 = true → ∃ fp ∈ t.isOpen, a.1.log_fp = some fp)) s := by
  simp only [rotateLog, wlp_bind]
  refine wlp_conseq (wlp_closeLog h) fun _ t ht => ?_
  obtain ⟨hcount, hclosed⟩ := ht
  refine wlp_conseq (wlp_openLogDir (hcount.trans hfirst)) fun dir_ptr u hu => ?_
  obtain ⟨hdir, hopen⟩ := hu
  cases dir_ptr with
  | none =>
      refine .inl ⟨hdir.mp rfl, rfl, ?_⟩
      rw [hopen]
      exact hclosed
  | some dir_ptr =>
      have hfound : ¬ env.NoDir := fun hno => by cases hdir.mpr hno
      simp only [req_eq, ask_bind, done_bind]
      refine ⟨trivial, fun log_name v hv => ?_⟩
      obtain rfl := hv
      refine ⟨trivial, fun fp w hw => ?_⟩
      cases fp with
      | none =>
          refine ⟨trivial, fun _ x _ => .inr ⟨hfound, fun fp hfp => ?_, fun hon => ?_⟩⟩
          · cases hfp
          · cases hon
      | some fp =>
          obtain ⟨-, rfl⟩ := hw
          simp only [wlp_bind]
          refine wlp_conseq (wlp_scan dir_ptr log_name fuel _) fun scan x hx => ?_
          obtain rfl := hx
          have hnew : ∀ on, ¬ env.NoDir ∧
              (LogRecord.mk (c_time + LOG_INTERVAL_TIME * 60) (some fp)).Valid
                { v with isOpen := insert fp v.isOpen } ∧
              (on = true → ∃ fp' ∈ insert fp v.isOpen, some fp = some fp') := by
            intro on
            refine ⟨hfound, fun fp' hfp' => ?_, fun _ => ⟨fp, Set.mem_insert _ _, rfl⟩⟩
            obtain rfl := Option.some.inj hfp'
            exact Set.mem_insert _ _
          split
          · refine ⟨trivial, fun _ y hy => ⟨trivial, fun _ z hz => .inr ?_⟩⟩
            obtain rfl := hy
            obtain rfl := hz
            exact hnew true
          · refine ⟨trivial, fun _ z hz => .inr ?_⟩
            obtain rfl := hz
            exact hnew true

theorem due_iff {c_time : Int} :
    logRecord.due c_time = true ↔ logRecord.deadline < c_time ∨ logRecord.log_fp = none := by
  simp [LogRecord.due]

/-- A rotation if one is due. Only one that loses the directory leaves a closed stream. -/
theorem wlp_rotateDue (fuel : Nat) (h : logRecord.Valid s) (hfirst : s.opendirs = 0) :
    (rotateDue fuel env.c_time logRecord).wlp (streams env) UsesOpen
      (fun a t => (a.1.Valid t ↔ ¬ LosesDir env logRecord) ∧
        (a.2 = true → ∃ fp ∈ t.isOpen, a.1.log_fp = some fp)) s := by
  rw [rotateDue]
  split
  · rename_i hdue
    refine wlp_conseq (wlp_rotateLog fuel env.c_time h hfirst) fun a t ha => ?_
    rcases ha with ⟨hno, rfl, hclosed⟩ | ⟨hfound, hvalid, hopen⟩
    · refine ⟨⟨fun hvalid hloses => ?_, fun hkeeps fp hfp => ?_⟩, fun hon => ?_⟩
      · obtain ⟨fp, hfp⟩ := Option.ne_none_iff_exists'.mp hloses.1
        exact hclosed fp hfp (hvalid fp hfp)
      · have hopen : logRecord.log_fp ≠ none := by
          have hsome : logRecord.log_fp = some fp := hfp
          rw [hsome]
          exact Option.some_ne_none fp
        exact absurd ⟨hopen, (due_iff.mp hdue).resolve_right hopen, hno⟩ hkeeps
      · cases hon
    · exact ⟨⟨fun _ hloses => hfound hloses.2.2, fun _ => hvalid⟩, hopen⟩
  · rename_i hdue
    have hnot : ¬ (logRecord.deadline < env.c_time ∨ logRecord.log_fp = none) :=
      fun hor => hdue (due_iff.mpr hor)
    obtain ⟨hfresh, hopen⟩ := not_or.mp hnot
    refine ⟨⟨fun _ hloses => hfresh hloses.2.1, fun _ => h⟩, fun _ => ?_⟩
    obtain ⟨fp, hfp⟩ := Option.ne_none_iff_exists'.mp hopen
    exact ⟨fp, h fp hfp, hfp⟩

/-- From an open stream a call uses open streams alone, and leaves one or none but where it loses
the directory. -/
theorem wlp_dbgOutStr (fuel : Nat) (str : String) (h : logRecord.Valid s) :
    (dbgOutStr fuel str logRecord).wlp (streams env) UsesOpen
      (fun logRecord' t => logRecord'.Valid t ↔ ¬ LosesDir env logRecord) s := by
  simp only [dbgOutStr, req_eq, ask_bind, done_bind]
  refine ⟨trivial, fun c_time t ht => ⟨trivial, fun _ u hu => ?_⟩⟩
  obtain ⟨rfl, rfl⟩ := ht
  obtain rfl := hu
  rw [if_neg (by decide)]
  simp only [wlp_bind]
  refine wlp_conseq (wlp_rotateDue fuel h rfl) fun a v hv => ?_
  obtain ⟨logRecord', on⟩ := a
  obtain ⟨hvalid, hopen⟩ := hv
  dsimp only
  split
  · rename_i hon
    refine ⟨hopen hon, fun _ w hw => ?_⟩
    obtain rfl := hw
    refine ⟨hopen hon, fun _ x hx => ?_⟩
    obtain rfl := hx
    exact hvalid
  · exact hvalid

/-! ### Many calls -/

/-- A call of `dbg_out_str` that has returned: what it found and what it left. -/
structure LogCall where
  env : LogEnv
  before : LogRecord
  found : Streams
  after : LogRecord
  left : Streams

namespace LogCall

/-- The call is made with the record and the streams at hand. -/
def Step (a : LogRecord × Streams) (e : LogCall) (b : LogRecord × Streams) : Prop :=
  e.before = a.1 ∧ e.found = a.2 ∧ e.after = b.1 ∧ e.left = b.2 ∧
    ∃ fuel str, Exec (streams e.env) (dbgOutStr fuel str e.before) e.found e.after e.left

/-- The call leaves a stream that is open, or none, and whatever it does under way, it uses no
stream that is not open. -/
structure Safe (e : LogCall) : Prop where
  left_valid : e.after.Valid e.left
  uses_open : ∀ fuel str o next t,
    Steps (streams e.env) (dbgOutStr fuel str e.before) e.found (.ask o next) t → UsesOpen t o

/-- The call has to begin a new file and the directory for it is gone. -/
def Loses (e : LogCall) : Prop := LosesDir e.env e.before

end LogCall

theorem valid_zero (s : Streams) : LogRecord.zero.Valid s := by
  intro fp hfp
  cases hfp

/-- From an open stream a call is safe unless it loses the directory. -/
theorem LogCall.safe_iff {e : LogCall} (hvalid : e.before.Valid e.found) {fuel : Nat} {str : String}
    (exec : Exec (streams e.env) (dbgOutStr fuel str e.before) e.found e.after e.left) :
    e.Safe ↔ ¬ e.Loses := by
  have hleft := wlp_exec (wlp_dbgOutStr fuel str hvalid) exec
  constructor
  · intro hsafe
    exact hleft.mp hsafe.left_valid
  · intro hkeeps
    refine ⟨hleft.mpr hkeeps, fun fuel str o next u steps => ?_⟩
    exact wlp_guard (wlp_dbgOutStr fuel str hvalid) steps

/-- In every run of calls the log only ever uses and keeps open streams just when no call loses the
directory while a stream is open. -/
theorem log_streams_iff {log : List LogCall} {s : Streams} {b : LogRecord × Streams}
    (run : Chain LogCall.Step (.zero, s) log b) :
    (∀ e ∈ log, e.Safe) ↔ ∀ e ∈ log, ¬ e.Loses := by
  apply run.forall_iff (K := fun a => a.1.Valid a.2) _ (valid_zero s)
  intro a e b hvalid hstep
  obtain ⟨hbefore, hfound, hafter, hleft, fuel, str, exec⟩ := hstep
  rw [← hbefore, ← hfound] at hvalid
  rw [← hafter, ← hleft]
  exact ⟨LogCall.safe_iff hvalid exec, fun hsafe => hsafe.left_valid⟩

/-- The directory can be opened. -/
def dirThere (c_time : Int) : LogEnv := ⟨c_time, true, 0, true⟩

/-- The directory can be neither opened nor made. -/
def dirGone (c_time : Int) : LogEnv := ⟨c_time, false, -1, false⟩

def someName : FileName := ⟨[97], by decide⟩

/-- The first call opens the log. -/
def firstCall : LogCall :=
  ⟨dirThere 100, .zero, ⟨∅, 0⟩, ⟨1300, some 3⟩, ⟨insert 3 ∅, 1⟩⟩

/-- A call before the deadline writes to it. -/
def earlyCall : LogCall :=
  ⟨dirGone 200, ⟨1300, some 3⟩, ⟨insert 3 ∅, 1⟩, ⟨1300, some 3⟩, ⟨insert 3 ∅, 0⟩⟩

/-- A call after the deadline closes it and finds no directory. -/
def lateCall : LogCall :=
  ⟨dirGone 2000, ⟨1300, some 3⟩, ⟨insert 3 ∅, 1⟩, ⟨1300, some 3⟩, ⟨insert 3 ∅ \ {3}, 1⟩⟩

theorem exec_firstCall : Exec (streams firstCall.env) (dbgOutStr 1 "a" firstCall.before)
    firstCall.found firstCall.after firstCall.left := by
  have opens : streams (dirThere 100) ⟨∅, 1⟩ (.fopen ⟨LOG_DIR_PATH, someName⟩) (some 3)
      ⟨insert 3 ∅, 1⟩ := ⟨Set.notMem_empty 3, rfl⟩
  exact .ask (I := LogI) (o := .time) (r := (100 : Int)) (And.intro rfl rfl)
    (.ask (I := LogI) (o := .putStdout "a") (r := ()) rfl
    (.ask (I := LogI) (o := .opendir LOG_DIR_PATH) (r := some 7) (And.intro rfl rfl)
    (.ask (I := LogI) (o := .strftime 100) (r := someName) rfl (.ask opens
    (.ask (I := LogI) (o := .readdir 7) (r := none) rfl
    (.ask (I := LogI) (o := .closedir 7) (r := ()) rfl
    (.ask (I := LogI) (o := .fputs "a" (some 3)) (r := ()) rfl
    (.ask (I := LogI) (o := .fflush (some 3)) (r := ()) rfl (.refl _ _)))))))))

theorem exec_earlyCall : Exec (streams earlyCall.env) (dbgOutStr 1 "b" earlyCall.before)
    earlyCall.found earlyCall.after earlyCall.left :=
  .ask (I := LogI) (o := .time) (r := (200 : Int)) (And.intro rfl rfl)
    (.ask (I := LogI) (o := .putStdout "b") (r := ()) rfl
    (.ask (I := LogI) (o := .fputs "b" (some 3)) (r := ()) rfl
    (.ask (I := LogI) (o := .fflush (some 3)) (r := ()) rfl (.refl _ _))))

theorem exec_lateCall : Exec (streams lateCall.env) (dbgOutStr 1 "b" lateCall.before)
    lateCall.found lateCall.after lateCall.left :=
  .ask (I := LogI) (o := .time) (r := (2000 : Int)) (And.intro rfl rfl)
    (.ask (I := LogI) (o := .putStdout "b") (r := ()) rfl
    (.ask (I := LogI) (o := .fclose 3) (r := ()) rfl
    (.ask (I := LogI) (o := .opendir LOG_DIR_PATH) (r := none) (And.intro rfl rfl)
    (.ask (I := LogI) (o := .mkdir LOG_DIR_PATH) (r := (-1 : Int)) (And.intro rfl rfl)
      (.refl _ _)))))

theorem step_firstCall :
    LogCall.Step (.zero, ⟨∅, 0⟩) firstCall (firstCall.after, firstCall.left) :=
  ⟨rfl, rfl, rfl, rfl, 1, "a", exec_firstCall⟩

theorem log_streams_iff_early : firstCall.Safe ∧ earlyCall.Safe := by
  have hearly : LogCall.Step (firstCall.after, firstCall.left) earlyCall
      (earlyCall.after, earlyCall.left) := ⟨rfl, rfl, rfl, rfl, 1, "b", exec_earlyCall⟩
  have hkeeps : ∀ e ∈ [firstCall, earlyCall], ¬ e.Loses := by
    intro e he hloses
    simp only [List.mem_cons, List.not_mem_nil, or_false] at he
    rcases he with rfl | rfl
    · exact hloses.1 rfl
    · exact absurd hloses.2.1 (by decide)
  have hsafe := (log_streams_iff (.cons step_firstCall (.cons hearly (.nil _)))).mpr hkeeps
  exact ⟨hsafe _ List.mem_cons_self, hsafe _ (List.mem_cons_of_mem _ List.mem_cons_self)⟩

/-- After a call that has lost the directory the record holds a closed stream, and the next call
closes it again. -/
theorem log_stream_closed_twice :
    Chain LogCall.Step (.zero, ⟨∅, 0⟩) [firstCall, lateCall] (⟨1300, some 3⟩, lateCall.left) ∧
      3 ∉ lateCall.left.isOpen ∧ ¬ lateCall.Safe ∧
      ∃ next t, Steps (streams (dirThere 2001)) (dbgOutStr 1 "c" ⟨1300, some 3⟩) lateCall.left
        (.ask (.fclose 3) next) t ∧ 3 ∉ t.isOpen := by
  have hclosed : 3 ∉ lateCall.left.isOpen := fun hmem => hmem.2 rfl
  have hlate : LogCall.Step (firstCall.after, firstCall.left) lateCall
      (⟨1300, some 3⟩, lateCall.left) := ⟨rfl, rfl, rfl, rfl, 1, "b", exec_lateCall⟩
  refine ⟨.cons step_firstCall (.cons hlate (.nil _)), hclosed, fun hsafe => ?_, ?_⟩
  · exact hclosed (hsafe.left_valid 3 rfl)
  · refine ⟨_, _, .ask (I := LogI) (o := .time) (r := (2001 : Int)) (And.intro rfl rfl)
      (.ask (I := LogI) (o := .putStdout "c") (r := ()) rfl (.refl _ _)), hclosed⟩

end McuRegWr
