import McuRegWr.Base.Threads

/-!
# Sections under two locks

A device that several processes share, each with several threads. A thread that wants the device
takes the mutex of its process and then the lock all processes share, which may be refused, and
gives both back when it is done: `guarded` is such a section. The shared lock does not tell the
threads of a process apart, and nothing but the locks keeps a thread from the device. `Held` is what
the locks say about how far the threads are.
-/

namespace Base

open Prog

/-- What a thread asks: of the locks, of the device, or of what is its own. -/
inductive GuardOp (I J : Iface) where
  | lock
  | unlock
  | acquire
  | release
  | dev (o : I.Op)
  | own (o : J.Op)

@[reducible] def GuardOp.Ans {I J : Iface} : GuardOp I J → Type
  | .lock => Unit
  | .unlock => Unit
  | .acquire => Int
  | .release => Int
  | .dev o => I.Ans o
  | .own o => J.Ans o

abbrev GuardI (I J : Iface) : Iface := ⟨GuardOp I J, GuardOp.Ans⟩

/-- The locks of the processes `π` with threads `ι`, the device and the rest. -/
structure Guard (ι π δ φ : Type) where
  /-- The thread that holds the mutex of a process. -/
  mutex : π → Option ι
  /-- The process that holds the shared lock. -/
  owner : Option π
  device : δ
  rest : φ

namespace Guard

variable {I J K : Iface} {ι π α β δ φ : Type} {proc : ι → π} {bus : π → World I δ}
  {own : π → World J φ} {i : ι}

section

variable [DecidableEq π]

/-- The state with all locks free. -/
def free (device : δ) (rest : φ) : Guard ι π δ φ := ⟨fun _ => none, none, device, rest⟩

def setMutex (s : Guard ι π δ φ) (p : π) (holder : Option ι) : Guard ι π δ φ :=
  { s with mutex := Function.update s.mutex p holder }

def setOwner (s : Guard ι π δ φ) (owner : Option π) : Guard ι π δ φ := { s with owner := owner }

def setDevice (s : Guard ι π δ φ) (device : δ) : Guard ι π δ φ := { s with device := device }

def setRest (s : Guard ι π δ φ) (rest : φ) : Guard ι π δ φ := { s with rest := rest }

theorem setMutex_self (s : Guard ι π δ φ) (p : π) (holder : Option ι) :
    (s.setMutex p holder).mutex p = holder :=
  Function.update_self ..

theorem setMutex_other (s : Guard ι π δ φ) {p q : π} (h : q ≠ p) (holder : Option ι) :
    (s.setMutex p holder).mutex q = s.mutex q :=
  Function.update_of_ne h ..

/-- What the operations of the thread `i` may be answered. A mutex that is taken is waited for, and
so is the shared lock where another process has it. -/
def world (proc : ι → π) (bus : π → World I δ) (own : π → World J φ) (i : ι) :
    World (GuardI I J) (Guard ι π δ φ)
  | s, .lock, _, s' => s.mutex (proc i) = none ∧ s' = s.setMutex (proc i) (some i)
  | s, .unlock, _, s' => s' = s.setMutex (proc i) none
  | s, .acquire, ret, s' => ret < 0 ∧ s' = s ∨
      0 ≤ ret ∧ (s.owner = none ∨ s.owner = some (proc i)) ∧ s' = s.setOwner (some (proc i))
  | s, .release, _, s' => s' = s.setOwner (if s.owner = some (proc i) then none else s.owner)
  | s, .dev o, r, s' => ∃ device, bus (proc i) s.device o r device ∧ s' = s.setDevice device
  | s, .own o, r, s' => ∃ rest, own (proc i) s.rest o r rest ∧ s' = s.setRest rest

/-- The world as a device that computes its answers. No lock is refused, only waited for. -/
def respond (proc : ι → π) (bus : δ → (o : I.Op) → I.Ans o × δ) (own : φ → (o : J.Op) → J.Ans o × φ)
    (i : ι) (s : Guard ι π δ φ) : (o : GuardOp I J) → Option (GuardOp.Ans o × Guard ι π δ φ)
  | .lock => if (s.mutex (proc i)).isNone then some ((), s.setMutex (proc i) (some i)) else none
  | .unlock => some ((), s.setMutex (proc i) none)
  | .acquire =>
      if s.owner = none ∨ s.owner = some (proc i) then some ((0 : Int), s.setOwner (some (proc i)))
      else none
  | .release => some ((0 : Int), s.setOwner (if s.owner = some (proc i) then none else s.owner))
  | .dev o => some ((bus s.device o).1, s.setDevice (bus s.device o).2)
  | .own o => some ((own s.rest o).1, s.setRest (own s.rest o).2)

theorem world_of_respond {bus' : δ → (o : I.Op) → I.Ans o × δ} {own' : φ → (o : J.Op) → J.Ans o × φ}
    (hbus : ∀ p x o, bus p x o (bus' x o).1 (bus' x o).2)
    (hown : ∀ p y o, own p y o (own' y o).1 (own' y o).2) {s s' : Guard ι π δ φ} {o : GuardOp I J}
    {r : GuardOp.Ans o} (h : respond proc bus' own' i s o = some (r, s')) :
    world proc bus own i s o r s' := by
  cases o with
  | lock =>
      simp only [respond] at h
      split at h
      · rename_i hfree
        obtain ⟨-, rfl⟩ := Prod.mk.inj (Option.some.inj h)
        exact ⟨Option.isNone_iff_eq_none.mp hfree, rfl⟩
      · cases h
  | unlock =>
      obtain ⟨-, rfl⟩ := Prod.mk.inj (Option.some.inj h)
      rfl
  | acquire =>
      simp only [respond] at h
      split at h
      · rename_i hfree
        obtain ⟨rfl, rfl⟩ := Prod.mk.inj (Option.some.inj h)
        exact .inr ⟨Int.le_refl 0, hfree, rfl⟩
      · cases h
  | release =>
      obtain ⟨-, rfl⟩ := Prod.mk.inj (Option.some.inj h)
      rfl
  | dev o =>
      obtain ⟨rfl, rfl⟩ := Prod.mk.inj (Option.some.inj h)
      exact ⟨_, hbus _ _ _, rfl⟩
  | own o =>
      obtain ⟨rfl, rfl⟩ := Prod.mk.inj (Option.some.inj h)
      exact ⟨_, hown _ _ _, rfl⟩

/-- A program of the device. -/
abbrev onDevice (J : Iface) (body : Prog I α) : Prog (GuardI I J) α :=
  body.lower fun o => @Prog.req (GuardI I J) (.dev o)

/-- From the end of the body on. -/
def leave (a : α) : Prog (GuardI I J) α :=
  .ask .release fun _ => .ask .unlock fun _ => .done a

/-- From the attempt to take the shared lock on. -/
def enter (refused : Int → α) (body : Prog I α) : Prog (GuardI I J) α :=
  .ask .acquire fun ret =>
    if ret < 0 then .ask .unlock fun _ => .done (refused ret)
    else onDevice J body >>= leave

/-- The body under both locks, or what is returned when the shared one is refused. -/
def guarded (refused : Int → α) (body : Prog I α) : Prog (GuardI I J) α :=
  .ask .lock fun _ => enter refused body

/-- A section that returns has a body that does. -/
theorem returns_of_guarded {refused : Int → α} {body : Prog I α}
    (h : (guarded refused body : Prog (GuardI I J) α).Returns) : body.Returns := by
  have hbody : (onDevice J body >>= leave).Returns := h () (0 : Int)
  clear h
  induction body with
  | done a => trivial
  | spin => exact hbody
  | ask o next ih => exact fun r => ih r (hbody r)

/-- How an operation of the level above is carried out: in a section, or without the device. -/
inductive Shape : Prog (GuardI I J) α → Prop where
  | guarded (refused : Int → α) (body : Prog I α) : Shape (guarded refused body)
  | own (o : J.Op) (f : J.Ans o → α) : Shape (.ask (.own o) fun r => .done (f r))

theorem steps_onDevice {body body' : Prog I α} {x x' : δ} (h : Steps (bus (proc i)) body x body' x')
    (s : Guard ι π δ φ) : Steps (world proc bus own i) (onDevice J body) (s.setDevice x)
      (onDevice J body') (s.setDevice x') := by
  induction h with
  | refl => exact .refl _ _
  | ask answer _ ih => exact .ask ⟨_, answer, rfl⟩ ih

/-- A section that nothing comes in between, from free locks to free locks. -/
theorem exec_guarded {refused : Int → α} {body : Prog I α} {x x' : δ} {a : α}
    (h : Exec (bus (proc i)) body x a x') (rest : φ) :
    Exec (world proc bus own i) (guarded refused body) (free x rest) a (free x' rest) := by
  let locked : Guard ι π δ φ := (free x rest).setMutex (proc i) (some i)
  have hlock : world proc bus own i (free x rest) .lock () locked := ⟨rfl, rfl⟩
  let owned : Guard ι π δ φ := locked.setOwner (some (proc i))
  have hacquire : world proc bus own i locked .acquire (0 : Int) owned :=
    .inr ⟨Int.le_refl 0, .inl rfl, rfl⟩
  have hbody : Steps (world proc bus own i) (onDevice J body) owned _ _ := steps_onDevice h owned
  have hleave : Exec (world proc bus own i) (leave a) (owned.setDevice x') a (free x' rest) := by
    refine exec_ask.mpr ⟨(0 : Int), _, rfl, exec_ask.mpr ⟨(), _, rfl, ?_⟩⟩
    simp [owned, locked, free, setMutex, setOwner, setDevice]
    exact .refl _ _
  exact .ask hlock (.ask hacquire ((hbody.bind leave).trans hleave))

theorem of_steps_onDevice {body : Prog I α} {s t : Guard ι π δ φ} {a : α}
    (h : Exec (world proc bus own i) (onDevice J body) s a t) :
    ∃ x', Exec (bus (proc i)) body s.device a x' ∧ t = s.setDevice x' := by
  induction body generalizing s with
  | done b =>
      obtain ⟨rfl, rfl⟩ := exec_done.mp h
      exact ⟨_, .refl _ _, rfl⟩
  | spin => exact absurd h not_exec_spin
  | ask o next ih =>
      obtain ⟨r, _, ⟨x', answer, rfl⟩, rest⟩ := exec_ask.mp h
      obtain ⟨x'', hrest, rfl⟩ := ih r rest
      exact ⟨x'', .ask answer hrest, rfl⟩

/-- What a section comes to that nothing comes in between: it is refused, or its body runs. -/
theorem of_exec_guarded {refused : Int → α} {body : Prog I α} {x : δ} {rest : φ} {a : α}
    {t : Guard ι π δ φ}
    (h : Exec (world proc bus own i) (guarded refused body) (free x rest) a t) :
    (∃ ret < 0, a = refused ret ∧ t = free x rest) ∨
      ∃ x', Exec (bus (proc i)) body x a x' ∧ t = free x' rest := by
  obtain ⟨_, _, ⟨-, rfl⟩, h⟩ := exec_ask.mp h
  obtain ⟨ret, _, hacquire, h⟩ := exec_ask.mp h
  rcases hacquire with ⟨hret, rfl⟩ | ⟨hret, -, rfl⟩
  · rw [if_pos hret] at h
    obtain ⟨_, _, rfl, h⟩ := exec_ask.mp h
    obtain ⟨rfl, rfl⟩ := exec_done.mp h
    refine .inl ⟨ret, hret, rfl, ?_⟩
    simp [free, setMutex]
  · rw [if_neg (Int.not_lt.mpr hret)] at h
    obtain ⟨b, u, hbody, h⟩ := exec_bind.mp h
    obtain ⟨x', hrun, rfl⟩ := of_steps_onDevice hbody
    obtain ⟨_, _, rfl, h⟩ := exec_ask.mp h
    obtain ⟨_, _, rfl, h⟩ := exec_ask.mp h
    obtain ⟨rfl, rfl⟩ := exec_done.mp h
    refine .inr ⟨x', hrun, ?_⟩
    simp [free, setMutex, setOwner, setDevice]

theorem exec_guarded_refused {refused : Int → α} {body : Prog I α} {ret : Int} (hret : ret < 0)
    (x : δ) (rest : φ) : Exec (world proc bus own i) (guarded refused body) (free x rest)
      (refused ret) (free x rest) := by
  let locked : Guard ι π δ φ := (free x rest).setMutex (proc i) (some i)
  have hlock : world proc bus own i (free x rest) .lock () locked := ⟨rfl, rfl⟩
  have hacquire : world proc bus own i locked .acquire ret locked := .inl ⟨hret, rfl⟩
  refine .ask hlock (.ask hacquire ?_)
  rw [if_pos hret]
  refine exec_ask.mpr ⟨(), _, rfl, ?_⟩
  simp [locked, free, setMutex]
  exact .refl _ _

end

/-! ### Who holds what -/

/-- How far a thread is in a section. -/
inductive Stage where
  | idle
  | waiting
  | refused
  | inside
  | leaving
  deriving DecidableEq

/-- The mutex of a process is with the thread of it that is in a section, and the shared lock with
the process of the thread that has the device. -/
structure Held (proc : ι → π) (stage : ι → Stage) (s : Guard ι π δ φ) : Prop where
  mutex : ∀ {p i}, s.mutex p = some i ↔ proc i = p ∧ stage i ≠ .idle
  owner : ∀ {p}, s.owner = some p ↔ ∃ i, proc i = p ∧ stage i = .inside

namespace Held

variable {stage : ι → Stage} {s : Guard ι π δ φ}

theorem free_idle (x : δ) (rest : φ) :
    Held proc (fun _ => .idle) (free x rest : Guard ι π δ φ) where
  mutex := by simp [free]
  owner := by simp [free]

theorem mutex_eq (h : Held proc stage s) (hi : stage i ≠ .idle) : s.mutex (proc i) = some i :=
  h.mutex.mpr ⟨rfl, hi⟩

theorem owner_eq (h : Held proc stage s) (hi : stage i = .inside) : s.owner = some (proc i) :=
  h.owner.mpr ⟨i, rfl, hi⟩

theorem eq_of_proc (h : Held proc stage s) {j : ι} (hproc : proc i = proc j)
    (hi : stage i ≠ .idle) (hj : stage j ≠ .idle) : i = j := by
  have hsame := h.mutex_eq hi
  rw [hproc, h.mutex_eq hj] at hsame
  exact (Option.some.inj hsame).symm

/-- One thread at a time has the device. -/
theorem eq_of_inside (h : Held proc stage s) {j : ι} (hi : stage i = .inside)
    (hj : stage j = .inside) : i = j := by
  have hproc : proc i = proc j := Option.some.inj ((h.owner_eq hi).symm.trans (h.owner_eq hj))
  exact h.eq_of_proc hproc (by simp [hi]) (by simp [hj])

/-- Nobody has the device when the shared lock is taken, not even the process that takes it. -/
theorem not_inside (h : Held proc stage s) (hi : stage i = .waiting)
    (hfree : s.owner = none ∨ s.owner = some (proc i)) (j : ι) : stage j ≠ .inside := by
  intro hj
  have howner := h.owner_eq hj
  rcases hfree with hnone | hsome
  · rw [hnone] at howner
    cases howner
  · have hproc : proc i = proc j := Option.some.inj (hsome.symm.trans howner)
    have hij := h.eq_of_proc hproc (by simp [hi]) (by simp [hj])
    rw [hij, hj] at hi
    cases hi

variable [DecidableEq ι] {new : Stage}

theorem update_iff {Q : Stage → Prop} (h : Q (stage i) ↔ Q new) (j : ι) :
    Q (stage j) ↔ Q (Function.update stage i new j) := by
  by_cases hij : j = i
  · rw [hij, Function.update_self]
    exact h
  · rw [Function.update_of_ne hij]

theorem mutex_update (h : Held proc stage s) (hi : stage i ≠ .idle) (hnew : new ≠ .idle) {p : π}
    {j : ι} : s.mutex p = some j ↔ proc j = p ∧ Function.update stage i new j ≠ .idle :=
  h.mutex.trans (and_congr_right fun _ => update_iff (Q := (· ≠ .idle)) (iff_of_true hi hnew) j)

theorem owner_update (h : Held proc stage s) (hi : stage i ≠ .inside) (hnew : new ≠ .inside)
    {p : π} : s.owner = some p ↔ ∃ j, proc j = p ∧ Function.update stage i new j = .inside :=
  h.owner.trans (exists_congr fun j => and_congr_right fun _ =>
    update_iff (Q := (· = .inside)) (iff_of_false hi hnew) j)

theorem refuse (h : Held proc stage s) (hi : stage i = .waiting) :
    Held proc (Function.update stage i .refused) s where
  mutex := h.mutex_update (by simp [hi]) (by decide)
  owner := h.owner_update (by simp [hi]) (by decide)

theorem lock [DecidableEq π] (h : Held proc stage s) (hi : stage i = .idle)
    (hfree : s.mutex (proc i) = none) :
    Held proc (Function.update stage i .waiting) (s.setMutex (proc i) (some i)) where
  mutex := by
    intro p j
    by_cases hij : j = i
    · subst hij
      rw [Function.update_self]
      by_cases hp : p = proc j
      · simp [hp, setMutex_self]
      · rw [setMutex_other _ hp, h.mutex]
        simp [hi, Ne.symm hp]
    · rw [Function.update_of_ne hij, ← h.mutex]
      by_cases hp : p = proc i
      · rw [hp, setMutex_self, hfree]
        simp [Ne.symm hij]
      · rw [setMutex_other _ hp]
  owner := h.owner_update (by simp [hi]) (by decide)

theorem unlock [DecidableEq π] (h : Held proc stage s) (hi : stage i ≠ .idle)
    (hi' : stage i ≠ .inside) :
    Held proc (Function.update stage i .idle) (s.setMutex (proc i) none) where
  mutex := by
    intro p j
    by_cases hij : j = i
    · subst hij
      rw [Function.update_self]
      by_cases hp : p = proc j
      · simp [hp, setMutex_self]
      · rw [setMutex_other _ hp, h.mutex]
        simp [Ne.symm hp]
    · rw [Function.update_of_ne hij, ← h.mutex]
      by_cases hp : p = proc i
      · rw [hp, setMutex_self, h.mutex_eq hi]
        simp [Ne.symm hij]
      · rw [setMutex_other _ hp]
  owner := h.owner_update hi' (by decide)

theorem acquire (h : Held proc stage s) (hi : stage i = .waiting)
    (hnone : ∀ j, stage j ≠ .inside) :
    Held proc (Function.update stage i .inside) (s.setOwner (some (proc i))) where
  mutex := h.mutex_update (by simp [hi]) (by decide)
  owner := by
    intro p
    rw [setOwner, Option.some.injEq]
    constructor
    · rintro rfl
      exact ⟨i, rfl, Function.update_self ..⟩
    · rintro ⟨j, rfl, hj⟩
      by_cases hij : j = i
      · rw [hij]
      · rw [Function.update_of_ne hij] at hj
        exact absurd hj (hnone j)

theorem none_inside (h : Held proc stage s) (hi : stage i = .inside) (j : ι) :
    Function.update stage i .leaving j ≠ .inside := by
  by_cases hij : j = i
  · rw [hij, Function.update_self]
    decide
  · rw [Function.update_of_ne hij]
    exact fun hj => hij (h.eq_of_inside hj hi)

theorem release [DecidableEq π] (h : Held proc stage s) (hi : stage i = .inside) :
    Held proc (Function.update stage i .leaving)
      (s.setOwner (if s.owner = some (proc i) then none else s.owner)) where
  mutex := h.mutex_update (by simp [hi]) (by decide)
  owner := by
    intro p
    rw [if_pos (h.owner_eq hi)]
    refine iff_of_false (by simp [setOwner]) ?_
    rintro ⟨j, -, hj⟩
    exact h.none_inside hi j hj

end Held

end Guard

end Base
