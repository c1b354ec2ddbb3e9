import Mathlib.Tactic.Common

/-!
# Chains

Steps one after the other, each from where the one before has led, with a log of them.
-/

namespace Base

variable {σ ε : Type} {step : σ → ε → σ → Prop}

/-- `Chain step s log t`: the steps of `log` lead from `s` to `t`. -/
inductive Chain (step : σ → ε → σ → Prop) : σ → List ε → σ → Prop where
  | nil (s : σ) : Chain step s [] s
  | cons {s s' s'' : σ} {e : ε} {log : List ε} (head : step s e s') (rest : Chain step s' log s'') :
      Chain step s (e :: log) s''

theorem Chain.forall_mem {P : ε → Prop} (hstep : ∀ {s e t}, step s e t → P e) {s t : σ}
    {log : List ε} (run : Chain step s log t) : ∀ e ∈ log, P e := by
  induction run with
  | nil => exact List.forall_mem_nil _
  | cons head _ ih => exact List.forall_mem_cons.mpr ⟨hstep head, ih⟩

/-- Where `P` of a step is told by `Q` as long as an invariant holds, and `P` keeps the invariant,
`P` holds along a chain just when `Q` does. -/
theorem Chain.forall_iff {K : σ → Prop} {P Q : ε → Prop}
    (hstep : ∀ {s e t}, K s → step s e t → (P e ↔ Q e) ∧ (P e → K t)) {s t : σ} {log : List ε}
    (run : Chain step s log t) (hs : K s) : (∀ e ∈ log, P e) ↔ ∀ e ∈ log, Q e := by
  induction run with
  | nil => exact ⟨fun _ => List.forall_mem_nil _, fun _ => List.forall_mem_nil _⟩
  | cons head _ ih =>
      obtain ⟨hiff, hkeeps⟩ := hstep hs head
      rw [List.forall_mem_cons, List.forall_mem_cons]
      constructor
      · intro h
        exact ⟨hiff.mp h.1, (ih (hkeeps h.1)).mp h.2⟩
      · intro h
        have hP := hiff.mpr h.1
        exact ⟨hP, (ih (hkeeps hP)).mpr h.2⟩

end Base
