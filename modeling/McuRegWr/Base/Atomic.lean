import McuRegWr.Base.Guarded

/-!
# Sections are atomic

Programs whose operations are carried out in sections, or without the device. Such threads have the
device for themselves while they are in a section, never wait for each other in a circle, and
however their operations interleave, the run is one in which every section is a single step. The
step is taken where the section gives up the device: until then nobody can tell that it has begun.
-/

namespace Base

open Prog

namespace Guard

variable {I J K : Iface} {ι π α δ φ : Type} {proc : ι → π} {bus : π → World I δ}
  {own : π → World J φ} {i : ι}

variable {impl : π → (o : K.Op) → Prog (GuardI I J) (K.Ans o)}

/-- The threads before they have done anything, with their programs lowered. -/
def start (proc : ι → π) (impl : π → (o : K.Op) → Prog (GuardI I J) (K.Ans o))
    (prog : ι → Prog K α) (x : δ) (rest : φ) : Threads (GuardI I J) ι α (Guard ι π δ φ) :=
  ⟨free x rest, fun i => (prog i).lower (impl (proc i))⟩

/-- The world in which every section is one step, from free locks to free locks. -/
def serial [DecidableEq π] (proc : ι → π) (bus : π → World I δ) (own : π → World J φ)
    (impl : π → (o : K.Op) → Prog (GuardI I J) (K.Ans o)) (i : ι) : World K (δ × φ) :=
  fun s o r s' => (world proc bus own i).atomic (impl (proc i)) (free s.1 s.2) o r (free s'.1 s'.2)

/-- Where a thread stands, by what it has left to run on the two levels, when the device is at `x`
below and at `x₀` above. A section counts above when it gives up the device, or is refused. -/
inductive At (bus : World I δ) (impl : (o : K.Op) → Prog (GuardI I J) (K.Ans o)) (x x₀ : δ) :
    Stage → Prog (GuardI I J) α → Prog K α → Prop where
  | idle (p : Prog K α) : At bus impl x x₀ .idle (p.lower impl) p
  | waiting {o : K.Op} {next : K.Ans o → Prog K α} {refused : Int → K.Ans o}
      {body : Prog I (K.Ans o)} (code : impl o = guarded refused body) :
      At bus impl x x₀ .waiting (enter refused body >>= fun r => (next r).lower impl) (.ask o next)
  | refused {o : K.Op} {next : K.Ans o → Prog K α} {refused : Int → K.Ans o}
      {body : Prog I (K.Ans o)} {ret : Int} (code : impl o = guarded refused body)
      (failed : ret < 0) :
      At bus impl x x₀ .refused (.ask .unlock fun _ => (next (refused ret)).lower impl)
        (.ask o next)
  | inside {o : K.Op} {next : K.Ans o → Prog K α} {refused : Int → K.Ans o}
      {body rest : Prog I (K.Ans o)} (code : impl o = guarded refused body)
      (run : Steps bus body x₀ rest x) :
      At bus impl x x₀ .inside ((onDevice J rest >>= leave) >>= fun r => (next r).lower impl)
        (.ask o next)
  | leaving (p : Prog K α) : At bus impl x x₀ .leaving (.ask .unlock fun _ => p.lower impl) p

/-- Only the thread that has the device sees where it is. -/
theorem At.of_ne_inside {bus : World I δ} {impl : (o : K.Op) → Prog (GuardI I J) (K.Ans o)}
    {x x₀ : δ} {stage : Stage} {low : Prog (GuardI I J) α} {high : Prog K α}
    (h : At bus impl x x₀ stage low high) (hstage : stage ≠ .inside) (y y₀ : δ) :
    At bus impl y y₀ stage low high := by
  cases h with
  | idle => exact .idle _
  | waiting code => exact .waiting code
  | refused code failed => exact .refused code failed
  | inside code run => exact absurd rfl hstage
  | leaving => exact .leaving _

/-- The run below and the run above of the same threads. -/
structure Rel (proc : ι → π) (bus : π → World I δ)
    (impl : π → (o : K.Op) → Prog (GuardI I J) (K.Ans o))
    (stage : ι → Stage) (c : Threads (GuardI I J) ι α (Guard ι π δ φ))
    (d : Threads K ι α (δ × φ)) : Prop where
  at_ : ∀ i, At (bus (proc i)) (impl (proc i)) c.shared.device d.shared.1 (stage i)
    (c.prog i) (d.prog i)
  held : Held proc stage c.shared
  rest : d.shared.2 = c.shared.rest
  device : (∀ i, stage i ≠ .inside) → c.shared.device = d.shared.1

namespace Rel

variable [DecidableEq ι] {stage : ι → Stage} {c : Threads (GuardI I J) ι α (Guard ι π δ φ)}
  {d : Threads K ι α (δ × φ)}

/-- One thread moves on both levels, and the others stay where they are. -/
theorem move {s' : Guard ι π δ φ} {x₀ : δ} {new : Stage} {low : Prog (GuardI I J) α}
    {high : Prog K α} (hat : At (bus (proc i)) (impl (proc i)) s'.device x₀ new low high)
    (hothers : ∀ j ≠ i, At (bus (proc j)) (impl (proc j)) s'.device x₀ (stage j) (c.prog j)
      (d.prog j))
    (hheld : Held proc (Function.update stage i new) s')
    (hdevice : (∀ j, Function.update stage i new j ≠ .inside) → s'.device = x₀) :
    Rel proc bus impl (Function.update stage i new) ⟨s', Function.update c.prog i low⟩
      ⟨(x₀, s'.rest), Function.update d.prog i high⟩ where
  at_ := by
    intro j
    by_cases hij : j = i
    · subst hij
      simp only [Function.update_self]
      exact hat
    · simp only [Function.update_of_ne hij]
      exact hothers j hij
  held := hheld
  rest := rfl
  device := hdevice

theorem eta (h : Rel proc bus impl stage c d) (i : ι) :
    d = ⟨(d.shared.1, c.shared.rest), Function.update d.prog i (d.prog i)⟩ := by
  rw [Function.update_eq_self, ← h.rest]

theorem device_of_move (h : Rel proc bus impl stage c d) {new : Stage} (hi : stage i ≠ .inside)
    (hnone : ∀ j, Function.update stage i new j ≠ .inside) :
    c.shared.device = d.shared.1 := by
  apply h.device
  intro j
  by_cases hij : j = i
  · rw [hij]
    exact hi
  · have hj := hnone j
    rwa [Function.update_of_ne hij] at hj

/-- A thread that does not have the device moves, and the level above does not. -/
theorem silent [DecidableEq π] {V : ι → World K (δ × φ)} {s' : Guard ι π δ φ}
    (h : Rel proc bus impl stage c d) {new : Stage} {low : Prog (GuardI I J) α}
    (hi : stage i ≠ .inside)
    (hat : At (bus (proc i)) (impl (proc i)) c.shared.device d.shared.1 new low (d.prog i))
    (hheld : Held proc (Function.update stage i new) s') (hdevice : s'.device = c.shared.device)
    (hrest : s'.rest = c.shared.rest) :
    ∃ stage' d', Threads.Reachable V d d' ∧
      Rel proc bus impl stage' ⟨s', Function.update c.prog i low⟩ d' := by
  have hmoved : Rel proc bus impl (Function.update stage i new) ⟨s', Function.update c.prog i low⟩
      ⟨(d.shared.1, s'.rest), Function.update d.prog i (d.prog i)⟩ := by
    refine move ?_ (fun j _ => ?_) hheld fun hnone => ?_
    · rw [hdevice]
      exact hat
    · rw [hdevice]
      exact h.at_ j
    · rw [hdevice]
      exact h.device_of_move hi hnone
  rw [hrest, ← h.eta i] at hmoved
  exact ⟨_, d, .refl, hmoved⟩

/-- The level above takes the operation of a thread in one step. -/
theorem counted [DecidableEq π] (h : Rel proc bus impl stage c d) {s' : Guard ι π δ φ} {x₀ : δ}
    {new : Stage} {low : Prog (GuardI I J) α} {o : K.Op} {next : K.Ans o → Prog K α} {r : K.Ans o}
    (head : d.prog i = .ask o next)
    (answer : Exec (world proc bus own i) (impl (proc i) o) (free d.shared.1 c.shared.rest) r
      (free x₀ s'.rest))
    (hmoved : Rel proc bus impl (Function.update stage i new) ⟨s', Function.update c.prog i low⟩
      ⟨(x₀, s'.rest), Function.update d.prog i (next r)⟩) :
    ∃ stage' d', Threads.Reachable (serial proc bus own impl) d d' ∧
      Rel proc bus impl stage' ⟨s', Function.update c.prog i low⟩ d' := by
  rw [← h.rest] at answer
  have hserial : serial proc bus own impl i d.shared o r (x₀, s'.rest) := answer
  exact ⟨_, _, .single (.run head hserial), hmoved⟩

theorem of_idle [DecidableEq π] (shape : ∀ p o, Shape (impl p o)) (h : Rel proc bus impl stage c d)
    (hi : stage i = .idle) {o : GuardOp I J} {next : GuardOp.Ans o → Prog (GuardI I J) α}
    {r : GuardOp.Ans o} {s' : Guard ι π δ φ} (head : (d.prog i).lower (impl (proc i)) = .ask o next)
    (answer : world proc bus own i c.shared o r s') :
    ∃ stage' d', Threads.Reachable (serial proc bus own impl) d d' ∧
      Rel proc bus impl stage' ⟨s', Function.update c.prog i (next r)⟩ d' := by
  have hne : stage i ≠ .inside := by simp [hi]
  cases hhigh : d.prog i with
  | done a =>
      rw [hhigh] at head
      cases head
  | spin =>
      rw [hhigh] at head
      cases head
  | ask k more =>
      rw [hhigh, lower_ask] at head
      have hshape := shape (proc i) k
      generalize hcode : impl (proc i) k = code at hshape
      cases hshape with
      | guarded refused body =>
          rw [hcode] at head
          cases head
          obtain ⟨hfree, rfl⟩ := answer
          refine h.silent hne ?_ (h.held.lock hi hfree) rfl rfl
          rw [hhigh]
          exact .waiting hcode
      | own o f =>
          rw [hcode] at head
          cases head
          obtain ⟨rest, hanswer, rfl⟩ := answer
          have hidle : Function.update stage i .idle = stage := by
            rw [← hi, Function.update_eq_self]
          have hexec : Exec (world proc bus own i) (impl (proc i) k)
              (free d.shared.1 c.shared.rest) (f r) (free d.shared.1 rest) := by
            rw [hcode]
            exact exec_ask.mpr ⟨r, _, ⟨rest, hanswer, rfl⟩, .refl _ _⟩
          refine h.counted hhigh hexec (move (.idle _) (fun j _ => h.at_ j) ?_ fun hnone => ?_)
          · rw [hidle]
            exact ⟨h.held.mutex, h.held.owner⟩
          · exact h.device_of_move hne hnone

theorem of_waiting [DecidableEq π] {k : K.Op} {more : K.Ans k → Prog K α} {refused : Int → K.Ans k}
    {body : Prog I (K.Ans k)} (code : impl (proc i) k = guarded refused body)
    (h : Rel proc bus impl stage c d) (hi : stage i = .waiting) (hhigh : d.prog i = .ask k more)
    {ret : Int} {s' : Guard ι π δ φ} (answer : world proc bus own i c.shared .acquire ret s') :
    ∃ stage' d', Threads.Reachable (serial proc bus own impl) d d' ∧
      Rel proc bus impl stage' ⟨s', Function.update c.prog i ((if ret < 0 then
        .ask .unlock fun _ => .done (refused ret) else onDevice J body >>= leave) >>= fun r =>
          (more r).lower (impl (proc i)))⟩ d' := by
  have hne : stage i ≠ .inside := by simp [hi]
  rcases answer with ⟨hret, rfl⟩ | ⟨hret, hfree, rfl⟩
  · rw [if_pos hret]
    refine h.silent hne ?_ (h.held.refuse hi) rfl rfl
    rw [hhigh]
    exact .refused code hret
  · rw [if_neg (Int.not_lt.mpr hret)]
    have hnone := h.held.not_inside hi hfree
    refine h.silent hne ?_ (h.held.acquire hi hnone) rfl rfl
    rw [hhigh, h.device hnone]
    exact .inside code (.refl _ _)

theorem of_inside [DecidableEq π] {k : K.Op} {more : K.Ans k → Prog K α} {refused : Int → K.Ans k}
    {body rest : Prog I (K.Ans k)} (code : impl (proc i) k = guarded refused body)
    (run : Steps (bus (proc i)) body d.shared.1 rest c.shared.device)
    (h : Rel proc bus impl stage c d) (hi : stage i = .inside) (hhigh : d.prog i = .ask k more)
    {o : GuardOp I J} {next : GuardOp.Ans o → Prog (GuardI I J) α} {r : GuardOp.Ans o}
    {s' : Guard ι π δ φ}
    (head : ((onDevice J rest >>= leave) >>= fun r => (more r).lower (impl (proc i))) = .ask o next)
    (answer : world proc bus own i c.shared o r s') :
    ∃ stage' d', Threads.Reachable (serial proc bus own impl) d d' ∧
      Rel proc bus impl stage' ⟨s', Function.update c.prog i (next r)⟩ d' := by
  have hothers : ∀ j ≠ i, stage j ≠ .inside := fun j hij hj => hij (h.held.eq_of_inside hj hi)
  cases rest with
  | done a =>
      cases head
      obtain rfl := answer
      have hexec : Exec (world proc bus own i) (impl (proc i) k)
          (free d.shared.1 c.shared.rest) a (free c.shared.device c.shared.rest) := by
        rw [code]
        exact exec_guarded run _
      exact h.counted hhigh hexec (move (.leaving _)
        (fun j hij => (h.at_ j).of_ne_inside (hothers j hij) _ _) (h.held.release hi) fun _ => rfl)
  | spin => cases head
  | ask op on =>
      cases head
      obtain ⟨device, hanswer, rfl⟩ := answer
      have hinside : Function.update stage i .inside = stage := by
        rw [← hi, Function.update_eq_self]
      have hmoved : Rel proc bus impl (Function.update stage i .inside)
          ⟨c.shared.setDevice device, Function.update c.prog i
            ((onDevice J (on r) >>= leave) >>= fun r => (more r).lower (impl (proc i)))⟩
          ⟨(d.shared.1, c.shared.rest), Function.update d.prog i (d.prog i)⟩ := by
        refine move ?_ (fun j hij => (h.at_ j).of_ne_inside (hothers j hij) _ _) ?_ fun hnone => ?_
        · rw [hhigh]
          exact .inside code (run.trans (.ask hanswer (.refl _ _)))
        · rw [hinside]
          exact ⟨h.held.mutex, h.held.owner⟩
        · exact absurd (Function.update_self ..) (hnone i)
      rw [← h.eta i] at hmoved
      exact ⟨_, d, .refl, hmoved⟩

theorem step [DecidableEq π] (shape : ∀ p o, Shape (impl p o)) (h : Rel proc bus impl stage c d)
    {c' : Threads (GuardI I J) ι α (Guard ι π δ φ)}
    (hstep : Threads.Step (world proc bus own) c c') :
    ∃ stage' d', Threads.Reachable (serial proc bus own impl) d d' ∧
      Rel proc bus impl stage' c' d' := by
  cases hstep with
  | @run i o next r s' head answer =>
      have hat := h.at_ i
      generalize hi : stage i = at_ at hat
      generalize hhigh : d.prog i = high at hat
      rw [head] at hat
      generalize hlow : Prog.ask o next = low at hat
      cases hat with
      | idle =>
          rw [← hhigh] at hlow
          exact h.of_idle shape hi hlow.symm answer
      | waiting code =>
          cases hlow
          exact of_waiting code h hi hhigh answer
      | @refused k more refused body ret code failed =>
          cases hlow
          obtain rfl := answer
          have hexec : Exec (world proc bus own i) (impl (proc i) k)
              (free d.shared.1 c.shared.rest) (refused ret)
              (free d.shared.1 c.shared.rest) := by
            rw [code]
            exact exec_guarded_refused failed _ _
          have hne : stage i ≠ .inside := by simp [hi]
          exact h.counted hhigh hexec (move (.idle _) (fun j _ => h.at_ j)
            (h.held.unlock (by simp [hi]) hne) fun hnone => h.device_of_move hne hnone)
      | inside code run => exact of_inside code run h hi hhigh hlow.symm answer
      | leaving =>
          cases hlow
          obtain rfl := answer
          refine h.silent (by simp [hi]) ?_ (h.held.unlock (by simp [hi]) (by simp [hi])) rfl rfl
          rw [hhigh]
          exact .idle _

end Rel

variable {stage : ι → Stage} {c : Threads (GuardI I J) ι α (Guard ι π δ φ)}
  {d : Threads K ι α (δ × φ)}

theorem eq_done_of_lower {impl : (o : K.Op) → Prog (GuardI I J) (K.Ans o)}
    (shape : ∀ o, Shape (impl o)) {p : Prog K α} {a : α}
    (h : p.lower impl = .done a) : p = .done a := by
  cases p with
  | done b =>
      cases h
      rfl
  | spin => cases h
  | ask k more =>
      have hshape := shape k
      rw [lower_ask] at h
      generalize impl k = code at hshape h
      cases hshape <;> cases h

/-- Outside of the sections a thread asks for its mutex, or for what is its own. -/
theorem first_of_lower {impl : (o : K.Op) → Prog (GuardI I J) (K.Ans o)}
    (shape : ∀ o, Shape (impl o)) {p : Prog K α} {o : GuardOp I J}
    {next : GuardOp.Ans o → Prog (GuardI I J) α} (h : p.lower impl = .ask o next) :
    o = .lock ∨ ∃ op, o = .own op := by
  cases p with
  | done b => cases h
  | spin => cases h
  | ask k more =>
      have hshape := shape k
      rw [lower_ask] at h
      generalize impl k = code at hshape h
      cases hshape with
      | guarded refused body =>
          cases h
          exact .inl rfl
      | own op f =>
          cases h
          exact .inr ⟨op, rfl⟩

namespace Rel

theorem of_done (h : Rel proc bus impl stage c d) (shape : ∀ p o, Shape (impl p o)) {a : α}
    (hdone : c.prog i = .done a) : stage i = .idle ∧ d.prog i = .done a := by
  have hat := h.at_ i
  generalize stage i = at_ at hat
  generalize d.prog i = high at hat
  rw [hdone] at hat
  generalize hlow : (Prog.done a : Prog (GuardI I J) α) = low at hat
  cases hat with
  | idle => exact ⟨rfl, eq_done_of_lower (shape _) hlow.symm⟩
  | waiting code => cases hlow
  | refused code failed => cases hlow
  | @inside k more refused body rest code run => cases rest <;> cases hlow
  | leaving => cases hlow

theorem of_dev (h : Rel proc bus impl stage c d) (shape : ∀ p o, Shape (impl p o)) {o : I.Op}
    {next : I.Ans o → Prog (GuardI I J) α} (hdev : c.prog i = .ask (.dev o) next) :
    stage i = .inside := by
  have hat := h.at_ i
  generalize stage i = at_ at hat
  generalize d.prog i = high at hat
  rw [hdev] at hat
  generalize hlow : @Prog.ask (GuardI I J) α (.dev o) next = low at hat
  cases hat with
  | idle => rcases first_of_lower (shape _) hlow.symm with h | ⟨op, h⟩ <;> cases h
  | waiting code => cases hlow
  | refused code failed => cases hlow
  | inside code run => rfl
  | leaving => cases hlow

theorem of_busy (h : Rel proc bus impl stage c d) (hi : stage i ≠ .idle)
    (returns : ∀ p o, (impl p o).Returns) :
    ∃ o next, c.prog i = .ask o next ∧ match stage i with
      | .waiting => o = .acquire
      | .inside => o = .release ∨ ∃ op, o = .dev op
      | _ => o = .unlock := by
  have hat := h.at_ i
  generalize stage i = at_ at hat hi
  generalize d.prog i = high at hat
  generalize c.prog i = low at hat
  cases hat with
  | idle => exact absurd rfl hi
  | waiting code => exact ⟨_, _, rfl, rfl⟩
  | refused code failed => exact ⟨_, _, rfl, rfl⟩
  | @inside k more refused body rest code run =>
      have hcode := returns (proc i) k
      rw [code] at hcode
      have hrest := (returns_of_guarded hcode).steps run
      cases rest with
      | done a => exact ⟨_, _, rfl, .inl rfl⟩
      | spin => exact hrest.elim
      | ask op on => exact ⟨_, _, rfl, .inr ⟨op, rfl⟩⟩
  | leaving => exact ⟨_, _, rfl, rfl⟩

end Rel

theorem rel_start (prog : ι → Prog K α) (x : δ) (rest : φ) :
    Rel proc bus impl (fun _ => .idle) (start proc impl prog x rest)
      ⟨(x, rest), prog⟩ where
  at_ := fun i => .idle (prog i)
  held := .free_idle x rest
  rest := rfl
  device := fun _ => rfl

section

variable [DecidableEq ι] [DecidableEq π] {prog : ι → Prog K α} {x : δ} {rest : φ}

/-- Whatever the threads have done so far, they would have done had every section been one step. -/
theorem exists_rel (shape : ∀ p o, Shape (impl p o))
    (run : Threads.Reachable (world proc bus own) (start proc impl prog x rest) c) :
    ∃ stage d, Threads.Reachable (serial proc bus own impl) ⟨(x, rest), prog⟩ d ∧
      Rel proc bus impl stage c d := by
  have hsim : ∀ (c c' : Threads (GuardI I J) ι α (Guard ι π δ φ)) (d : Threads K ι α (δ × φ)),
      (∃ stage, Rel proc bus impl stage c d) → Threads.Step (world proc bus own) c c' →
      ∃ d', Threads.Reachable (serial proc bus own impl) d d' ∧
        ∃ stage, Rel proc bus impl stage c' d' := by
    rintro c c' d ⟨stage, hrel⟩ hstep
    obtain ⟨stage', d', hreach, hrel'⟩ := hrel.step shape hstep
    exact ⟨d', hreach, stage', hrel'⟩
  obtain ⟨d, hreach, stage, hrel⟩ := run.simulation hsim ⟨_, rel_start prog x rest⟩
  exact ⟨stage, d, hreach, hrel⟩

/-- Sections are atomic: when all threads have returned, they have returned what they return, and
left what they leave, in a run where every section is one step and the locks are free all along. -/
theorem atomic (shape : ∀ p o, Shape (impl p o))
    (run : Threads.Reachable (world proc bus own) (start proc impl prog x rest) c)
    {result : ι → α} (hdone : c.Finished result) :
    Threads.Reachable (serial proc bus own impl) ⟨(x, rest), prog⟩
      ⟨(c.shared.device, c.shared.rest), fun i => .done (result i)⟩ ∧
    c.shared = free c.shared.device c.shared.rest := by
  obtain ⟨stage, d, hreach, hrel⟩ := exists_rel shape run
  have hidle : ∀ i, stage i = .idle := fun i => (hrel.of_done shape (hdone i)).1
  have hprog : d.prog = fun i => .done (result i) :=
    funext fun i => (hrel.of_done shape (hdone i)).2
  have hdevice := hrel.device fun i => by simp [hidle i]
  have hmutex : ∀ p, c.shared.mutex p = none := by
    intro p
    by_contra hheld
    obtain ⟨i, hi⟩ := Option.ne_none_iff_exists'.mp hheld
    exact (hrel.held.mutex.mp hi).2 (hidle i)
  have howner : c.shared.owner = none := by
    by_contra hheld
    obtain ⟨p, hp⟩ := Option.ne_none_iff_exists'.mp hheld
    obtain ⟨i, -, hi⟩ := hrel.held.owner.mp hp
    rw [hidle i] at hi
    cases hi
  constructor
  · rw [hdevice, ← hrel.rest, ← hprog]
    exact hreach
  · calc c.shared = ⟨c.shared.mutex, c.shared.owner, c.shared.device, c.shared.rest⟩ := rfl
      _ = free c.shared.device c.shared.rest := by rw [funext hmutex, howner]; rfl

/-- A thread that is about to use the device holds both locks, and no other thread is about to. -/
theorem exclusive (shape : ∀ p o, Shape (impl p o))
    (run : Threads.Reachable (world proc bus own) (start proc impl prog x rest) c)
    {i : ι} {o : I.Op} {next : I.Ans o → Prog (GuardI I J) α}
    (hdev : c.prog i = .ask (.dev o) next) :
    c.shared.mutex (proc i) = some i ∧ c.shared.owner = some (proc i) ∧
      ∀ j op on, c.prog j = .ask (.dev op) on → j = i := by
  obtain ⟨stage, d, -, hrel⟩ := exists_rel shape run
  have hi := hrel.of_dev shape hdev
  refine ⟨hrel.held.mutex_eq (by simp [hi]), hrel.held.owner_eq hi, fun j op on hdev' => ?_⟩
  exact hrel.held.eq_of_inside (hrel.of_dev shape hdev') hi

/-- What is asked of the shared lock is granted. -/
def Granted : (o : GuardOp I J) → GuardOp.Ans o → Prop
  | .acquire, ret => 0 ≤ ret
  | _, _ => True

/-- There is no deadlock: while a thread has something to do, some thread can do its next operation,
and need not be refused for it. -/
theorem progress (shape : ∀ p o, Shape (impl p o))
    (returns : ∀ p o, (impl p o).Returns)
    (answers : ∀ p x o, ∃ r x', bus p x o r x') (answers' : ∀ p y o, ∃ r y', own p y o r y')
    (run : Threads.Reachable (world proc bus own) (start proc impl prog x rest) c)
    {i : ι} {o : GuardOp I J} {next : GuardOp.Ans o → Prog (GuardI I J) α}
    (hask : c.prog i = .ask o next) :
    ∃ j op on r s', c.prog j = .ask op on ∧ world proc bus own j c.shared op r s' ∧
      Granted op r := by
  obtain ⟨stage, d, -, hrel⟩ := exists_rel shape run
  -- the thread that has the device goes first, then one that waits for it
  by_cases hinside : ∃ j, stage j = .inside
  · obtain ⟨j, hj⟩ := hinside
    obtain ⟨op, on, hprog, hop⟩ := hrel.of_busy (i := j) (by simp [hj]) returns
    rw [hj] at hop
    rcases hop with rfl | ⟨op, rfl⟩
    · exact ⟨j, .release, on, (0 : Int), _, hprog, rfl, trivial⟩
    · obtain ⟨r, device, hanswer⟩ := answers (proc j) c.shared.device op
      exact ⟨j, .dev op, on, r, _, hprog, ⟨device, hanswer, rfl⟩, trivial⟩
  have hnone : c.shared.owner = none := by
    by_contra hheld
    obtain ⟨p, hp⟩ := Option.ne_none_iff_exists'.mp hheld
    obtain ⟨j, -, hj⟩ := hrel.held.owner.mp hp
    exact hinside ⟨j, hj⟩
  by_cases hbusy : ∃ j, stage j ≠ .idle
  · obtain ⟨j, hj⟩ := hbusy
    obtain ⟨op, on, hprog, hop⟩ := hrel.of_busy hj returns
    cases hstage : stage j with
    | idle => exact absurd hstage hj
    | waiting =>
        rw [hstage] at hop
        subst hop
        have hgranted : world proc bus own j c.shared .acquire (0 : Int)
            (c.shared.setOwner (some (proc j))) :=
          .inr ⟨Int.le_refl 0, .inl hnone, rfl⟩
        exact ⟨j, .acquire, on, (0 : Int), _, hprog, hgranted, Int.le_refl 0⟩
    | refused =>
        rw [hstage] at hop
        subst hop
        exact ⟨j, .unlock, on, (), _, hprog, rfl, trivial⟩
    | inside => exact absurd ⟨j, hstage⟩ hinside
    | leaving =>
        rw [hstage] at hop
        subst hop
        exact ⟨j, .unlock, on, (), _, hprog, rfl, trivial⟩
  · have hidle : ∀ j, stage j = .idle := fun j => not_not.mp fun hj => hbusy ⟨j, hj⟩
    have hat := hrel.at_ i
    rw [hidle i, hask] at hat
    generalize hlow : @Prog.ask (GuardI I J) α o next = low at hat
    cases hat
    rcases first_of_lower (shape _) hlow.symm with rfl | ⟨op, rfl⟩
    · have hfree : c.shared.mutex (proc i) = none := by
        by_contra hheld
        obtain ⟨j, hj⟩ := Option.ne_none_iff_exists'.mp hheld
        exact (hrel.held.mutex.mp hj).2 (hidle j)
      exact ⟨i, .lock, next, (), _, hask, ⟨hfree, rfl⟩, trivial⟩
    · obtain ⟨r, y, hanswer⟩ := answers' (proc i) c.shared.rest op
      exact ⟨i, .own op, next, r, _, hask, ⟨y, hanswer, rfl⟩, trivial⟩

end

end Guard

end Base
