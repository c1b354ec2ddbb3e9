import McuRegWr.Base.Prog

/-!
# Worlds, runs and weakest preconditions

A world says, state by state, which answers an operation can get and what it leaves behind. It is a
relation, so a fault, a delay or a concurrent device is one more allowed answer. `Steps` are the
runs of a program in a world, finished or not. `wlp` is computed by recursion on the program: it
asks a guard of every operation the program issues and a postcondition of every result, and every
run meets them. -/

namespace Base

/-- `W s o r s'`: in state `s` the operation `o` can be answered by `r`, leaving `s'`. -/
abbrev World (I : Iface) (σ : Type) : Type := σ → (o : I.Op) → I.Ans o → σ → Prop

/-- The world in which an operation can also be reported failed, and then was carried out or not. -/
def World.lossy {I : Iface} {σ : Type} (W : World I σ) (failed : (o : I.Op) → I.Ans o → Prop) :
    World I σ :=
  fun s o r s' => W s o r s' ∨ failed o r ∧ (s' = s ∨ ∃ r', W s o r' s')

namespace Prog

variable {I : Iface} {σ τ : Type} {α β : Type}

/-- What a program has become, and the state it has left, after some of its operations. -/
inductive Steps (W : World I σ) : Prog I α → σ → Prog I α → σ → Prop where
  | refl (p : Prog I α) (s : σ) : Steps W p s p s
  | ask {o : I.Op} {next : I.Ans o → Prog I α} {s s' t : σ} {r : I.Ans o} {q : Prog I α}
      (answer : W s o r s') (rest : Steps W (next r) s' q t) : Steps W (.ask o next) s q t

/-- A run to the end: the program returns `a` and leaves the state `t`. -/
abbrev Exec (W : World I σ) (p : Prog I α) (s : σ) (a : α) (t : σ) : Prop :=
  Steps W p s (.done a) t

variable {W : World I σ}

theorem Steps.trans {p q r : Prog I α} {s t u : σ} (h : Steps W p s q t) (h' : Steps W q t r u) :
    Steps W p s r u := by
  induction h with
  | refl => exact h'
  | ask answer _ ih => exact .ask answer (ih h')

theorem Steps.bind {p q : Prog I α} {s t : σ} (h : Steps W p s q t) (f : α → Prog I β) :
    Steps W (p >>= f) s (q >>= f) t := by
  induction h with
  | refl => exact .refl _ _
  | ask answer _ ih => exact .ask answer ih

/-- A point of a run of two programs, one after the other, is a point of the first or of the second.
-/
theorem steps_bind {p : Prog I α} {f : α → Prog I β} {s t : σ} {q : Prog I β}
    (h : Steps W (p >>= f) s q t) :
    (∃ p', Steps W p s p' t ∧ q = (p' >>= f)) ∨
      ∃ a u, Exec W p s a u ∧ Steps W (f a) u q t := by
  induction p generalizing s with
  | done a => exact .inr ⟨a, s, .refl _ _, h⟩
  | spin =>
      cases h with
      | refl => exact .inl ⟨.spin, .refl _ _, rfl⟩
  | ask o next ih =>
      cases h with
      | refl => exact .inl ⟨.ask o next, .refl _ _, rfl⟩
      | ask answer rest =>
          rcases ih _ rest with ⟨p', hp, hq⟩ | ⟨a, u, hp, hf⟩
          · exact .inl ⟨p', .ask answer hp, hq⟩
          · exact .inr ⟨a, u, .ask answer hp, hf⟩

theorem exec_done {a b : α} {s t : σ} : Exec W (.done a) s b t ↔ b = a ∧ t = s := by
  constructor
  · intro h
    cases h with
    | refl => exact ⟨rfl, rfl⟩
  · rintro ⟨rfl, rfl⟩
    exact .refl _ _

theorem not_exec_spin {a : α} {s t : σ} : ¬ Exec W (.spin : Prog I α) s a t := by
  intro h
  cases h

theorem exec_ask {o : I.Op} {next : I.Ans o → Prog I α} {s t : σ} {a : α} :
    Exec W (.ask o next) s a t ↔ ∃ r s', W s o r s' ∧ Exec W (next r) s' a t := by
  constructor
  · intro h
    cases h with
    | ask answer rest => exact ⟨_, _, answer, rest⟩
  · rintro ⟨r, s', answer, rest⟩
    exact .ask answer rest

theorem exec_bind {p : Prog I α} {f : α → Prog I β} {s u : σ} {b : β} :
    Exec W (p >>= f) s b u ↔ ∃ a t, Exec W p s a t ∧ Exec W (f a) t b u := by
  constructor
  · intro h
    induction p generalizing s with
    | done a => exact ⟨a, s, .refl _ _, h⟩
    | spin => exact absurd h not_exec_spin
    | ask o next ih =>
        obtain ⟨r, s', answer, rest⟩ := exec_ask.mp h
        obtain ⟨a, t, hp, hf⟩ := ih r rest
        exact ⟨a, t, .ask answer hp, hf⟩
  · rintro ⟨a, t, hp, hf⟩
    exact (hp.bind f).trans hf

/-! ### Weakest preconditions -/

/-- Every operation issued meets the guard `G` in the state it is issued in, and every result meets
`Q` in the state it is returned in. -/
def wlp (W : World I σ) (G : σ → I.Op → Prop) : Prog I α → (α → σ → Prop) → σ → Prop
  | .done a, Q, s => Q a s
  | .spin, _, _ => True
  | .ask o next, Q, s => G s o ∧ ∀ r s', W s o r s' → (next r).wlp W G Q s'

variable {G : σ → I.Op → Prop} {Q : α → σ → Prop} {s : σ}

@[simp] theorem wlp_done {a : α} : (Prog.done a : Prog I α).wlp W G Q s ↔ Q a s := Iff.rfl

@[simp] theorem wlp_pure {a : α} : (pure a : Prog I α).wlp W G Q s ↔ Q a s := Iff.rfl

@[simp] theorem wlp_ask {o : I.Op} {next : I.Ans o → Prog I α} :
    (Prog.ask o next).wlp W G Q s ↔
      G s o ∧ ∀ r s', W s o r s' → (next r).wlp W G Q s' := Iff.rfl

@[simp] theorem wlp_bind {p : Prog I α} {f : α → Prog I β} {Q : β → σ → Prop} :
    (p >>= f).wlp W G Q s ↔ p.wlp W G (fun a t => (f a).wlp W G Q t) s := by
  induction p generalizing s with
  | done a => rfl
  | spin => rfl
  | ask o next ih =>
      simp only [ask_bind, wlp_ask, ih]

theorem wlp_mono {G' : σ → I.Op → Prop} {Q' : α → σ → Prop} (hG : ∀ s o, G s o → G' s o)
    (hQ : ∀ a s, Q a s → Q' a s) {p : Prog I α} (h : p.wlp W G Q s) : p.wlp W G' Q' s := by
  induction p generalizing s with
  | done a => exact hQ a s h
  | spin => trivial
  | ask o next ih => exact ⟨hG s o h.1, fun r s' answer => ih r (h.2 r s' answer)⟩

theorem wlp_conseq {Q' : α → σ → Prop} {p : Prog I α} (h : p.wlp W G Q s)
    (hQ : ∀ a s, Q a s → Q' a s) : p.wlp W G Q' s :=
  wlp_mono (fun _ _ => id) hQ h

/-- The loop rule: an invariant kept by every round that goes on, and enough for `Q` at every round
that leaves. -/
theorem wlp_loop {round : β → Prog I (β ⊕ α)} (inv : β → σ → Prop)
    (hround : ∀ b s, inv b s → (round b).wlp W G (Sum.elim inv Q) s)
    (fuel : Nat) {b : β} (h : inv b s) : (loop round fuel b).wlp W G Q s := by
  induction fuel generalizing b s with
  | zero => trivial
  | succ fuel ih =>
      simp only [loop, wlp_bind]
      refine wlp_conseq (hround b s h) fun c t hc => ?_
      cases c with
      | inl b' => exact ih hc
      | inr a => exact hc

theorem wlp_steps {p q : Prog I α} {s t : σ} (h : p.wlp W G Q s) (run : Steps W p s q t) :
    q.wlp W G Q t := by
  induction run with
  | refl => exact h
  | ask answer _ ih => exact ih (h.2 _ _ answer)

theorem wlp_exec {p : Prog I α} {a : α} {s t : σ} (h : p.wlp W G Q s) (run : Exec W p s a t) :
    Q a t :=
  wlp_steps h run

theorem wlp_guard {p : Prog I α} {o : I.Op} {next : I.Ans o → Prog I α} {s t : σ}
    (h : p.wlp W G Q s) (run : Steps W p s (.ask o next) t) : G t o :=
  (wlp_steps h run).1

/-- What the operations keep when the guard is met holds at every point of a run. -/
theorem Steps.invariant {K : σ → Prop}
    (hstep : ∀ {s o r s'}, K s → G s o → W s o r s' → K s') {p q : Prog I α} {s t : σ}
    (run : Steps W p s q t) (h : p.wlp W G Q s) (hs : K s) : K t := by
  induction run with
  | refl => exact hs
  | ask answer _ ih => exact ih (h.2 _ _ answer) (hstep hs h.1 answer)

/-- The heads a loop comes to, round after round. -/
inductive Rounds (W : World I σ) (round : β → Prog I (β ⊕ α)) (b : β) (s : σ) : β → σ → Prop where
  | start : Rounds W round b s b s
  | next {b' b'' : β} {s' s'' : σ} (run : Rounds W round b s b' s')
      (hround : Exec W (round b') s' (.inl b'') s'') : Rounds W round b s b'' s''

theorem Rounds.invariant {round : β → Prog I (β ⊕ α)} (inv : β → σ → Prop)
    (hround : ∀ b s, inv b s → (round b).wlp W G (Sum.elim inv Q) s) {b b' : β} {s s' : σ}
    (run : Rounds W round b s b' s') (h : inv b s) : inv b' s' := by
  induction run with
  | start => exact h
  | next _ hnext ih =>
      have hinv : Sum.elim inv Q (.inl _) _ := wlp_exec (hround _ _ ih) hnext
      exact hinv

theorem Rounds.cons {round : β → Prog I (β ⊕ α)} {b b' b'' : β} {s s' s'' : σ}
    (hround : Exec W (round b) s (.inl b') s') (run : Rounds W round b' s' b'' s'') :
    Rounds W round b s b'' s'' := by
  induction run with
  | start => exact .next .start hround
  | next _ hnext ih => exact .next ih hnext

/-- `Reach p t q`: given the answers of the trace `t`, in order, `p` issues its operations and has
then become `q`. -/
inductive Reach : Prog I α → List I.Event → Prog I α → Prop where
  | refl (p : Prog I α) : Reach p [] p
  | ask {o : I.Op} {next : I.Ans o → Prog I α} {r : I.Ans o} {t : List I.Event} {q : Prog I α}
      (rest : Reach (next r) t q) : Reach (.ask o next) (⟨o, r⟩ :: t) q

/-- Given the answers of `t` the program returns `a`. -/
abbrev Runs (p : Prog I α) (t : List I.Event) (a : α) : Prop := Reach p t (.done a)

theorem Reach.trans {p q r : Prog I α} {t u : List I.Event} (h : Reach p t q) (h' : Reach q u r) :
    Reach p (t ++ u) r := by
  induction h with
  | refl => exact h'
  | ask _ ih => exact .ask (ih h')

theorem Reach.bind {p q : Prog I α} {t : List I.Event} (h : Reach p t q) (f : α → Prog I β) :
    Reach (p >>= f) t (q >>= f) := by
  induction h with
  | refl => exact .refl _
  | ask _ ih => exact .ask ih

theorem Reach.snoc {p : Prog I α} {t : List I.Event} {o : I.Op} {next : I.Ans o → Prog I α}
    (h : Reach p t (.ask o next)) (r : I.Ans o) : Reach p (t ++ [⟨o, r⟩]) (next r) :=
  h.trans (.ask (.refl _))

@[simp] theorem runs_done {a b : α} {t : List I.Event} :
    Runs (.done a : Prog I α) t b ↔ t = [] ∧ b = a := by
  constructor
  · intro h
    cases h with
    | refl => exact ⟨rfl, rfl⟩
  · rintro ⟨rfl, rfl⟩
    exact .refl _

@[simp] theorem runs_pure {a b : α} {t : List I.Event} :
    Runs (pure a : Prog I α) t b ↔ t = [] ∧ b = a := runs_done

@[simp] theorem not_runs_spin {a : α} {t : List I.Event} : ¬ Runs (.spin : Prog I α) t a := by
  intro h
  cases h

@[simp] theorem runs_ask {o : I.Op} {next : I.Ans o → Prog I α} {t : List I.Event} {a : α} :
    Runs (.ask o next) t a ↔ ∃ r t', t = ⟨o, r⟩ :: t' ∧ Runs (next r) t' a := by
  constructor
  · intro h
    cases h with
    | ask rest => exact ⟨_, _, rfl, rest⟩
  · rintro ⟨r, t', rfl, rest⟩
    exact .ask rest

theorem runs_bind {p : Prog I α} {f : α → Prog I β} {t : List I.Event} {b : β} :
    Runs (p >>= f) t b ↔ ∃ a t₁ t₂, t = t₁ ++ t₂ ∧ Runs p t₁ a ∧ Runs (f a) t₂ b := by
  constructor
  · intro h
    induction p generalizing t with
    | done a => exact ⟨a, [], t, rfl, .refl _, h⟩
    | spin => exact absurd h not_runs_spin
    | ask o next ih =>
        obtain ⟨r, t', rfl, rest⟩ := runs_ask.mp h
        obtain ⟨a, t₁, t₂, rfl, hp, hf⟩ := ih r rest
        exact ⟨a, _, t₂, rfl, .ask hp, hf⟩
  · rintro ⟨a, t₁, t₂, rfl, hp, hf⟩
    exact (hp.bind f).trans hf

theorem bind_congr_runs {p : Prog I α} {f g : α → Prog I β}
    (h : ∀ t a, Runs p t a → f a = g a) : (p >>= f) = (p >>= g) := by
  induction p with
  | done a => exact h [] a (.refl _)
  | spin => rfl
  | ask o next ih =>
      exact congrArg (Prog.ask o) (funext fun r => ih r fun t a run => h _ a (.ask run))

/-! ### Evaluation

A world that answers by a function can be run. Through a projection of its state such a run is a run
of any world that allows the answers. -/

/-- Run a program against a device that computes its answers. -/
def eval (dev : σ → (o : I.Op) → I.Ans o × σ) : Prog I α → σ → Option (α × σ)
  | .done a, s => some (a, s)
  | .spin, _ => none
  | .ask o next, s => (next (dev s o).1).eval dev (dev s o).2

theorem exec_of_eval {dev : τ → (o : I.Op) → I.Ans o × τ} {view : τ → σ}
    (hdev : ∀ t o, W (view t) o (dev t o).1 (view (dev t o).2)) {p : Prog I α} {t u : τ} {a : α}
    (h : p.eval dev t = some (a, u)) : Exec W p (view t) a (view u) := by
  induction p generalizing t with
  | done b =>
      simp only [eval, Option.some.injEq, Prod.mk.injEq] at h
      obtain ⟨rfl, rfl⟩ := h
      exact .refl _ _
  | spin => simp [eval] at h
  | ask o next ih => exact .ask (hdev t o) (ih _ h)

/-- The first operations of a program run against a device. -/
def evalFor (dev : σ → (o : I.Op) → I.Ans o × σ) : Nat → Prog I α → σ → Prog I α × σ
  | n + 1, .ask o next, s => evalFor dev n (next (dev s o).1) (dev s o).2
  | _, p, s => (p, s)

theorem steps_evalFor {dev : τ → (o : I.Op) → I.Ans o × τ} {view : τ → σ}
    (hdev : ∀ t o, W (view t) o (dev t o).1 (view (dev t o).2)) (n : Nat) (p : Prog I α) (t : τ) :
    Steps W p (view t) (evalFor dev n p t).1 (view (evalFor dev n p t).2) := by
  induction n generalizing p t with
  | zero => exact .refl _ _
  | succ n ih =>
      cases p with
      | done a => exact .refl _ _
      | spin => exact .refl _ _
      | ask o next => exact .ask (hdev t o) (ih _ _)

/-- The trace of a program run against a device. -/
def traceOf (dev : τ → (o : I.Op) → I.Ans o × τ) : Prog I α → τ → List I.Event
  | .done _, _ => []
  | .spin, _ => []
  | .ask o next, s => ⟨o, (dev s o).1⟩ :: (next (dev s o).1).traceOf dev (dev s o).2

theorem runs_traceOf {dev : τ → (o : I.Op) → I.Ans o × τ} {p : Prog I α} {t u : τ} {a : α}
    (h : p.eval dev t = some (a, u)) : Runs p (p.traceOf dev t) a := by
  induction p generalizing t with
  | done b =>
      simp only [eval, Option.some.injEq, Prod.mk.injEq] at h
      exact runs_done.mpr ⟨rfl, h.1.symm⟩
  | spin => simp [eval] at h
  | ask o next ih => exact .ask (ih _ h)

/-- Whatever the answers are, the program returns. -/
def Returns : Prog I α → Prop
  | .done _ => True
  | .spin => False
  | .ask _ next => ∀ r, (next r).Returns

@[simp] theorem returns_pure (a : α) : (pure a : Prog I α).Returns := trivial

@[simp] theorem returns_ask {o : I.Op} {next : I.Ans o → Prog I α} :
    (Prog.ask o next).Returns ↔ ∀ r, (next r).Returns := Iff.rfl

theorem returns_req (o : I.Op) : (req o).Returns := fun _ => trivial

theorem Returns.bind {p : Prog I α} (h : p.Returns) {f : α → Prog I β}
    (hf : ∀ a, (f a).Returns) : (p >>= f).Returns := by
  induction p with
  | done a => exact hf a
  | spin => exact h.elim
  | ask o next ih => exact fun r => ih r (h r)

theorem Returns.steps {p q : Prog I α} (h : p.Returns) {s t : σ} (run : Steps W p s q t) :
    q.Returns := by
  induction run with
  | refl => exact h
  | ask _ _ ih => exact ih (h _)

/-- Whatever the answers are, the program returns, and with a result that meets `P`. -/
def Yields (P : α → Prop) : Prog I α → Prop
  | .done a => P a
  | .spin => False
  | .ask _ next => ∀ r, (next r).Yields P

theorem Yields.returns {P : α → Prop} {p : Prog I α} (h : p.Yields P) : p.Returns := by
  induction p with
  | done a => trivial
  | spin => exact h
  | ask o next ih => exact fun r => ih r (h r)

theorem Yields.bind {P : α → Prop} {Q : β → Prop} {p : Prog I α} (h : p.Yields P)
    {f : α → Prog I β} (hf : ∀ a, P a → (f a).Yields Q) : (p >>= f).Yields Q := by
  induction p with
  | done a => exact hf a h
  | spin => exact h.elim
  | ask o next ih => exact fun r => ih r (h r)

/-- A loop whose rounds make a measure smaller returns before its fuel is used up. -/
theorem yields_loop {P : α → Prop} {round : β → Prog I (β ⊕ α)} (μ : β → Nat)
    (hround : ∀ b, (round b).Yields (Sum.elim (fun b' => μ b' < μ b) P)) {fuel : Nat} {b : β}
    (h : μ b < fuel) : (loop round fuel b).Yields P := by
  induction fuel generalizing b with
  | zero => exact absurd h (Nat.not_lt_zero _)
  | succ fuel ih =>
      apply (hround b).bind
      intro c hc
      cases c with
      | inl b' => exact ih (Nat.lt_of_lt_of_le hc (Nat.le_of_lt_succ h))
      | inr a => exact hc

/-- Whatever the answers are, every operation issued meets `P`. -/
def Asks (P : I.Op → Prop) : Prog I α → Prop
  | .done _ => True
  | .spin => True
  | .ask o next => P o ∧ ∀ r, (next r).Asks P

variable {P : I.Op → Prop}

theorem asks_req {o : I.Op} (h : P o) : (req o).Asks P := ⟨h, fun _ => trivial⟩

theorem Asks.bind {p : Prog I α} (h : p.Asks P) {f : α → Prog I β} (hf : ∀ a, (f a).Asks P) :
    (p >>= f).Asks P := by
  induction p with
  | done a => exact hf a
  | spin => trivial
  | ask o next ih => exact ⟨h.1, fun r => ih r (h.2 r)⟩

theorem Asks.mono {P' : I.Op → Prop} {p : Prog I α} (h : p.Asks P) (hP : ∀ o, P o → P' o) :
    p.Asks P' := by
  induction p with
  | done a => trivial
  | spin => trivial
  | ask o next ih => exact ⟨hP o h.1, fun r => ih r (h.2 r)⟩

theorem asks_loop {round : β → Prog I (β ⊕ α)} (hround : ∀ b, (round b).Asks P) (fuel : Nat)
    (b : β) : (loop round fuel b).Asks P := by
  induction fuel generalizing b with
  | zero => trivial
  | succ fuel ih =>
      refine (hround b).bind fun c => ?_
      cases c with
      | inl b' => exact ih b'
      | inr a => trivial

/-- Every answer is possible, and there is nothing to remember. -/
def anything : World I Unit := fun _ _ _ _ => True

theorem asks_of_wlp {p : Prog I α} {Q : α → Unit → Prop}
    (h : p.wlp anything (fun _ => P) Q ()) : p.Asks P := by
  induction p with
  | done a => trivial
  | spin => trivial
  | ask o next ih => exact ⟨h.1, fun r => ih r (h.2 r () trivial)⟩

theorem Asks.forall_mem {p q : Prog I α} (h : p.Asks P) {t : List I.Event} (run : Reach p t q) :
    ∀ e ∈ t, P e.1 := by
  induction run with
  | refl => exact List.forall_mem_nil _
  | ask _ ih => exact List.forall_mem_cons.mpr ⟨h.1, ih (h.2 _)⟩

theorem Asks.wlp {p : Prog I α} (h : p.Asks P) (hG : ∀ s o, P o → G s o) (hQ : ∀ a s, Q a s) :
    p.wlp W G Q s := by
  induction p generalizing s with
  | done a => exact hQ a s
  | spin => trivial
  | ask o next ih => exact ⟨hG s o h.1, fun r s' _ => ih r (h.2 r)⟩

end Prog

end Base
