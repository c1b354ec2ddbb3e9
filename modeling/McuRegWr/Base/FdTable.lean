import Mathlib.Logic.Function.Basic

/-!
# Tables of descriptors

What a process holds: for every number, whether a file is open under it and whether that file is
locked through it. An open gives a number that was free, and closing one gives up its lock with it.
-/

namespace Base

inductive Descriptor where
  | closed
  | opened
  | locked
  deriving DecidableEq, Repr

abbrev FdTable : Type := Int → Descriptor

namespace FdTable

def set (t : FdTable) (fd : Int) (d : Descriptor) : FdTable := Function.update t fd d

/-- `t.Opens fd t'`: an open is answered by `fd`, which is negative when it failed. -/
def Opens (t : FdTable) (fd : Int) (t' : FdTable) : Prop :=
  0 ≤ fd ∧ t fd = .closed ∧ t' = t.set fd .opened ∨ fd < 0 ∧ t' = t

/-- `t.Locks fd ret t'`: a request for the lock on `fd` is answered by `ret`. -/
def Locks (t : FdTable) (fd ret : Int) (t' : FdTable) : Prop :=
  0 ≤ ret ∧ t fd ≠ .closed ∧ t' = t.set fd .locked ∨ ret < 0 ∧ t' = t

def Unlocks (t : FdTable) (fd ret : Int) (t' : FdTable) : Prop :=
  0 ≤ ret ∧ t fd ≠ .closed ∧ t' = t.set fd .opened ∨ ret < 0 ∧ t' = t

variable {t t' : FdTable} {fd ret : Int} {d d' : Descriptor}

@[simp] theorem set_same (t : FdTable) (fd : Int) (d : Descriptor) : t.set fd d fd = d :=
  Function.update_self ..

theorem set_other {other : Int} (h : other ≠ fd) : t.set fd d other = t other :=
  Function.update_of_ne h ..

@[simp] theorem set_set (t : FdTable) (fd : Int) (d d' : Descriptor) :
    (t.set fd d).set fd d' = t.set fd d' :=
  Function.update_idem ..

theorem set_closed (h : t fd = .closed) : t.set fd .closed = t := by
  rw [set, ← h, Function.update_eq_self]

theorem Opens.of_neg (h : t.Opens fd t') (hneg : fd < 0) : t' = t := by
  rcases h with ⟨hpos, -⟩ | ⟨-, hsame⟩
  · exact absurd hneg (Int.not_lt.mpr hpos)
  · exact hsame

theorem Opens.of_not_neg (h : t.Opens fd t') (hpos : ¬ fd < 0) :
    t fd = .closed ∧ t' = t.set fd .opened :=
  (h.resolve_right fun hneg => hpos hneg.1).2

theorem Locks.of_neg (h : t.Locks fd ret t') (hneg : ret < 0) : t' = t := by
  rcases h with ⟨hpos, -⟩ | ⟨-, hsame⟩
  · exact absurd hneg (Int.not_lt.mpr hpos)
  · exact hsame

theorem Locks.of_not_neg (h : t.Locks fd ret t') (hpos : ¬ ret < 0) :
    t' = t.set fd .locked :=
  (h.resolve_right fun hneg => hpos hneg.1).2.2

theorem set_ne_closed {x : Int} (hx : t x ≠ .closed) (hd : d ≠ .closed) :
    t.set fd d x ≠ .closed := by
  by_cases hsame : x = fd
  · rw [hsame, set_same]
    exact hd
  · rw [set_other hsame]
    exact hx

theorem Unlocks.ne_closed (h : t.Unlocks fd ret t') {x : Int} (hx : t x ≠ .closed) :
    t' x ≠ .closed := by
  rcases h with ⟨-, -, rfl⟩ | ⟨-, rfl⟩
  · exact set_ne_closed hx (by decide)
  · exact hx

theorem Unlocks.set (h : t.Unlocks fd ret t') (d : Descriptor) : t'.set fd d = t.set fd d := by
  rcases h with ⟨-, -, rfl⟩ | ⟨-, rfl⟩
  · exact set_set ..
  · rfl

end FdTable

end Base
