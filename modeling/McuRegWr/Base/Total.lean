import McuRegWr.Base.World

/-!
# Programs that come to an end

A world leaves open which of its answers an operation gets, and may have none for it. A program
comes to an end if it is always answered, and does so whatever the answers are. A loop does, if
every round makes a measure smaller, and the fuel is more than the measure.
-/

namespace Base

variable {I : Iface} {α β σ : Type}

/-- Every operation is answered. -/
def World.Answers (W : World I σ) : Prop := ∀ s o, ∃ r s', W s o r s'

namespace Prog

/-- The program comes to an end, in a state and with a result such that `Q`. -/
def Ends (W : World I σ) : Prog I α → σ → (α → σ → Prop) → Prop
  | .done a, s, Q => Q a s
  | .spin, _, _ => False
  | .ask o next, s, Q => (∃ r s', W s o r s') ∧ ∀ r s', W s o r s' → (next r).Ends W s' Q

variable {W : World I σ} {p : Prog I α} {s : σ} {Q Q' : α → σ → Prop}

theorem ends_pure {a : α} (h : Q a s) : (pure a : Prog I α).Ends W s Q := h

theorem Ends.mono (h : p.Ends W s Q) (hQ : ∀ a s', Q a s' → Q' a s') : p.Ends W s Q' := by
  induction p generalizing s with
  | done a => exact hQ a s h
  | spin => exact h
  | ask o next ih => exact ⟨h.1, fun r s' answer => ih r (h.2 r s' answer)⟩

theorem Ends.bind {f : α → Prog I β} {R : β → σ → Prop} (h : p.Ends W s Q)
    (hf : ∀ a s', Q a s' → (f a).Ends W s' R) : (p >>= f).Ends W s R := by
  induction p generalizing s with
  | done a => exact hf a s h
  | spin => exact h.elim
  | ask o next ih => exact ⟨h.1, fun r s' answer => ih r (h.2 r s' answer)⟩

theorem ends_of_bind {f : α → Prog I β} {R : β → σ → Prop} (h : (p >>= f).Ends W s R) :
    p.Ends W s fun a s' => (f a).Ends W s' R := by
  induction p generalizing s with
  | done a => exact h
  | spin => exact h.elim
  | ask o next ih => exact ⟨h.1, fun r s' answer => ih r (h.2 r s' answer)⟩

/-- Every run to the end is one of those. -/
theorem Ends.of_exec (h : p.Ends W s Q) {a : α} {s' : σ} (run : Exec W p s a s') : Q a s' := by
  induction p generalizing s with
  | done b =>
      obtain ⟨rfl, rfl⟩ := exec_done.mp run
      exact h
  | spin => exact h.elim
  | ask o next ih =>
      obtain ⟨r, s₁, answer, rest⟩ := exec_ask.mp run
      exact ih r (h.2 r s₁ answer) rest

theorem Ends.exists_exec (h : p.Ends W s Q) : ∃ a s', Exec W p s a s' ∧ Q a s' := by
  induction p generalizing s with
  | done a => exact ⟨a, s, .refl _ _, h⟩
  | spin => exact h.elim
  | ask o next ih =>
      obtain ⟨⟨r, s₁, answer⟩, hnext⟩ := h
      obtain ⟨a, s', run, hQ⟩ := ih r (hnext r s₁ answer)
      exact ⟨a, s', .ask answer run, hQ⟩

/-- An invariant that every round keeps while it makes the measure smaller. -/
theorem ends_loop {round : β → Prog I (β ⊕ α)} (inv : β → σ → Prop) (measure : β → σ → Nat)
    (hround : ∀ b s, inv b s → (round b).Ends W s fun r s' =>
      match r with
      | .inl b' => inv b' s' ∧ measure b' s' < measure b s
      | .inr a => Q a s')
    {fuel : Nat} {b : β} (hfuel : measure b s < fuel) (h : inv b s) :
    (loop round fuel b).Ends W s Q := by
  induction fuel generalizing b s with
  | zero => exact absurd hfuel (Nat.not_lt_zero _)
  | succ fuel ih =>
      refine (hround b s h).bind fun r s' hr => ?_
      cases r with
      | inl b' => exact ih (by omega) hr.1
      | inr a => exact hr

end Prog

end Base
