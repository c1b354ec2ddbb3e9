import McuRegWr.Base.World

/-!
# Operations that are programs

One interface on top of another: every operation of the upper one is carried out by a program of
the lower one. A program of the upper interface is lowered by doing so for each of its operations,
and in a world of the lower interface it then runs as it does where each of them is one step.
-/

namespace Base

namespace Prog

variable {I J : Iface} {α β σ τ : Type}

/-- The program with each of its operations carried out by `impl`. -/
def lower (impl : (o : J.Op) → Prog I (J.Ans o)) : Prog J α → Prog I α
  | .done a => .done a
  | .spin => .spin
  | .ask o next => impl o >>= fun r => (next r).lower impl

variable {impl : (o : J.Op) → Prog I (J.Ans o)}

@[simp] theorem lower_done (a : α) : (Prog.done a).lower impl = .done a := rfl

theorem lower_ask (o : J.Op) (next : J.Ans o → Prog J α) :
    (Prog.ask o next).lower impl = impl o >>= fun r => (next r).lower impl := rfl

theorem lower_bind (p : Prog J α) (f : α → Prog J β) :
    (p >>= f).lower impl = p.lower impl >>= fun a => (f a).lower impl := by
  induction p with
  | done a => rfl
  | spin => rfl
  | ask o next ih =>
      rw [ask_bind, lower_ask, lower_ask, bind_assoc]
      exact congrArg (impl o >>= ·) (funext ih)

theorem Returns.lower {p : Prog J α} (h : p.Returns) (himpl : ∀ o, (impl o).Returns) :
    (p.lower impl).Returns := by
  induction p with
  | done a => trivial
  | spin => exact h
  | ask o next ih => exact (himpl o).bind fun r => ih r (h r)

theorem asks_lower {P : I.Op → Prop} (himpl : ∀ o, (impl o).Asks P) (p : Prog J α) :
    (p.lower impl).Asks P := by
  induction p with
  | done a => trivial
  | spin => trivial
  | ask o next ih => exact (himpl o).bind fun r => ih r

theorem lower_congr {impl' : (o : J.Op) → Prog I (J.Ans o)} {P : J.Op → Prop} {p : Prog J α}
    (h : p.Asks P) (heq : ∀ o, P o → impl o = impl' o) : p.lower impl = p.lower impl' := by
  induction p with
  | done a => rfl
  | spin => rfl
  | ask o next ih =>
      rw [lower_ask, lower_ask, heq o h.1]
      exact congrArg (impl' o >>= ·) (funext fun r => ih r (h.2 r))

/-- Where every operation is carried out as in a world above, so is every program. -/
theorem exec_lower {W : World I σ} {V : World J τ} (view : σ → τ) {P : J.Op → Prop}
    (himpl : ∀ s o, P o → ∀ r t, (∃ s', Exec W (impl o) s r s' ∧ view s' = t) ↔ V (view s) o r t)
    {p : Prog J α} (hp : p.Asks P) (s : σ) (a : α) (t : τ) :
    (∃ s', Exec W (p.lower impl) s a s' ∧ view s' = t) ↔ Exec V p (view s) a t := by
  induction p generalizing s with
  | done b =>
      rw [lower_done, exec_done]
      constructor
      · rintro ⟨s', run, rfl⟩
        obtain ⟨rfl, rfl⟩ := exec_done.mp run
        exact ⟨rfl, rfl⟩
      · rintro ⟨rfl, rfl⟩
        exact ⟨s, .refl _ _, rfl⟩
  | spin =>
      constructor
      · rintro ⟨s', run, -⟩
        exact absurd run not_exec_spin
      · exact fun run => absurd run not_exec_spin
  | ask o next ih =>
      rw [lower_ask, exec_ask]
      constructor
      · rintro ⟨s', run, ht⟩
        obtain ⟨r, s₁, hop, hrest⟩ := exec_bind.mp run
        exact ⟨r, view s₁, (himpl s o hp.1 r _).mp ⟨s₁, hop, rfl⟩,
          (ih r (hp.2 r) s₁).mp ⟨s', hrest, ht⟩⟩
      · rintro ⟨r, t₁, answer, hrest⟩
        obtain ⟨s₁, hop, rfl⟩ := (himpl s o hp.1 r t₁).mpr answer
        obtain ⟨s', hrest', ht⟩ := (ih r (hp.2 r) s₁).mpr hrest
        exact ⟨s', exec_bind.mpr ⟨r, s₁, hop, hrest'⟩, ht⟩

end Prog

open Prog

variable {I J : Iface} {α σ : Type}

/-- The world of the upper interface: an operation is a whole run of the program behind it, with
nothing in between. -/
def World.atomic (W : World I σ) (impl : (o : J.Op) → Prog I (J.Ans o)) : World J σ :=
  fun s o r s' => Exec W (impl o) s r s'

end Base
