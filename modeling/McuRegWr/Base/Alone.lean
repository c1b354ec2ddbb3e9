import McuRegWr.Base.Guarded
import McuRegWr.Base.Total

/-!
# A process on its own

Where no other process uses the device and the locks are not refused, a section is its body.
-/

namespace Base.Guard

open Prog

variable {I J : Iface} {α δ φ : Type}

/-- What a thread is answered that has the locks and the device for itself. -/
def alone (bus : World I δ) (own : World J φ) : World (GuardI I J) (δ × φ)
  | s, .lock, _, s' => s' = s
  | s, .unlock, _, s' => s' = s
  | s, .acquire, ret, s' => ret = 0 ∧ s' = s
  | s, .release, _, s' => s' = s
  | s, .dev o, r, s' => bus s.1 o r s'.1 ∧ s'.2 = s.2
  | s, .own o, r, s' => s'.1 = s.1 ∧ own s.2 o r s'.2

variable {bus : World I δ} {own : World J φ} {body : Prog I α} {refused : Int → α}

theorem exec_onDevice {s s' : δ × φ} {a : α} :
    Exec (alone bus own) (onDevice J body) s a s' ↔ Exec bus body s.1 a s'.1 ∧ s'.2 = s.2 := by
  induction body generalizing s with
  | done b =>
      constructor
      · intro run
        obtain ⟨rfl, rfl⟩ := exec_done.mp run
        exact ⟨.refl _ _, rfl⟩
      · rintro ⟨run, hrest⟩
        obtain ⟨rfl, hdevice⟩ := exec_done.mp run
        exact exec_done.mpr ⟨rfl, Prod.ext hdevice hrest⟩
  | spin => exact ⟨fun run => absurd run not_exec_spin, fun run => absurd run.1 not_exec_spin⟩
  | ask o next ih =>
      constructor
      · intro run
        obtain ⟨r, s₁, ⟨answer, hrest⟩, run⟩ := exec_ask.mp run
        obtain ⟨run, hrest'⟩ := (ih r).mp run
        exact ⟨exec_ask.mpr ⟨r, s₁.1, answer, run⟩, hrest'.trans hrest⟩
      · rintro ⟨run, hrest⟩
        obtain ⟨r, x, answer, run⟩ := exec_ask.mp run
        exact exec_ask.mpr ⟨r, (x, s.2), ⟨answer, rfl⟩, (ih r).mpr ⟨run, hrest⟩⟩

theorem exec_leave {s s' : δ × φ} {a b : α} :
    Exec (alone bus own) (leave a) s b s' ↔ b = a ∧ s' = s := by
  constructor
  · intro run
    obtain ⟨-, _, rfl, runUnlock⟩ := exec_ask.mp run
    obtain ⟨-, _, rfl, runDone⟩ := exec_ask.mp runUnlock
    exact exec_done.mp runDone
  · rintro ⟨rfl, rfl⟩
    exact exec_ask.mpr ⟨(0 : Int), s', rfl, exec_ask.mpr ⟨(), s', rfl, .refl _ _⟩⟩

theorem exec_alone {s s' : δ × φ} {a : α} :
    Exec (alone bus own) (guarded refused body) s a s' ↔
      Exec bus body s.1 a s'.1 ∧ s'.2 = s.2 := by
  rw [← exec_onDevice]
  constructor
  · intro run
    obtain ⟨-, _, rfl, runAcquire⟩ := exec_ask.mp run
    obtain ⟨_, _, ⟨rfl, rfl⟩, runBody⟩ := exec_ask.mp runAcquire
    obtain ⟨b, s₁, hbody, hleave⟩ := exec_bind.mp runBody
    obtain ⟨rfl, rfl⟩ := exec_leave.mp hleave
    exact hbody
  · intro run
    refine exec_ask.mpr ⟨(), s, rfl, exec_ask.mpr ⟨(0 : Int), s, ⟨rfl, rfl⟩, ?_⟩⟩
    exact exec_bind.mpr ⟨a, s', run, exec_leave.mpr ⟨rfl, rfl⟩⟩

theorem ends_alone {s : δ × φ} {Q : α → δ → Prop} (h : body.Ends bus s.1 Q) :
    (guarded refused body).Ends (alone bus own) s fun a s' => Q a s'.1 ∧ s'.2 = s.2 := by
  have hbody : (onDevice J body).Ends (alone bus own) s fun a s' => Q a s'.1 ∧ s'.2 = s.2 := by
    induction body generalizing s with
    | done a => exact ⟨h, rfl⟩
    | spin => exact h
    | ask o next ih =>
        obtain ⟨⟨r, x, answer⟩, hnext⟩ := h
        refine ⟨⟨r, (x, s.2), answer, rfl⟩, fun r s₁ ⟨answer, hrest⟩ => ?_⟩
        rw [← hrest]
        exact ih r (hnext r s₁.1 answer)
  refine ⟨⟨(), s, rfl⟩, fun _ s₁ (hlock : s₁ = s) => ?_⟩
  subst hlock
  refine ⟨⟨(0 : Int), s₁, rfl, rfl⟩, fun ret s₂ ⟨hret, hacquire⟩ => ?_⟩
  subst hret hacquire
  refine Ends.bind hbody fun a s' hs' => ?_
  refine ⟨⟨(0 : Int), s', rfl⟩, fun _ s₁ (hrelease : s₁ = s') => ?_⟩
  subst hrelease
  refine ⟨⟨(), s₁, rfl⟩, fun _ s₂ (hunlock : s₂ = s₁) => ?_⟩
  subst hunlock
  exact hs'

end Base.Guard
