import Mathlib.Logic.Function.Basic
import Mathlib.Logic.Relation
import McuRegWr.Base.Lower

/-!
# Threads

Any number of threads, each of which runs a program of its own on a state they share. Every
operation of one of them is a step, and the next step is anyone's. The world may tell them apart.
-/

namespace Base

open Prog

structure Threads (I : Iface) (ι α σ : Type) where
  shared : σ
  prog : ι → Prog I α

namespace Threads

variable {I J : Iface} {ι α σ τ : Type}

/-- Every thread has returned, each with its result. -/
def Finished (c : Threads I ι α σ) (result : ι → α) : Prop := ∀ i, c.prog i = .done (result i)

/-- What a program that has returned has returned. -/
def outcome : Prog I α → Option α
  | .done a => some a
  | _ => none

theorem finished_of_outcome {c : Threads I ι α σ} {result : ι → α}
    (h : ∀ i, outcome (c.prog i) = some (result i)) : c.Finished result := by
  intro i
  have hi := h i
  generalize c.prog i = p at hi
  cases p with
  | done a => exact congrArg done (Option.some.inj hi)
  | spin => cases hi
  | ask o next => cases hi

variable [DecidableEq ι] {W : ι → World I σ} {V : ι → World J τ}

inductive Step (W : ι → World I σ) : Threads I ι α σ → Threads I ι α σ → Prop where
  | run {c : Threads I ι α σ} {i : ι} {o : I.Op} {next : I.Ans o → Prog I α} {r : I.Ans o} {s' : σ}
      (head : c.prog i = .ask o next) (answer : W i c.shared o r s') :
      Step W c ⟨s', Function.update c.prog i (next r)⟩

/-- The threads that these can become. -/
abbrev Reachable (W : ι → World I σ) : Threads I ι α σ → Threads I ι α σ → Prop :=
  Relation.ReflTransGen (Step W)

/-- Forward simulation: what related threads of one level do in a step, those of the other can do in
some. -/
theorem Reachable.simulation {Rel : Threads I ι α σ → Threads J ι α τ → Prop}
    (hstep : ∀ c c' d, Rel c d → Step W c c' → ∃ d', Reachable V d d' ∧ Rel c' d')
    {c c' : Threads I ι α σ} {d : Threads J ι α τ} (h : Reachable W c c') (hrel : Rel c d) :
    ∃ d', Reachable V d d' ∧ Rel c' d' := by
  induction h with
  | refl => exact ⟨d, .refl, hrel⟩
  | tail _ step ih =>
      obtain ⟨d', hreach, hrel'⟩ := ih
      obtain ⟨d'', hmore, hrel''⟩ := hstep _ _ _ hrel' step
      exact ⟨d'', hreach.trans hmore, hrel''⟩

theorem Step.asks {P : I.Op → Prop} {c d : Threads I ι α σ} (h : Step W c d)
    (hc : ∀ i, (c.prog i).Asks P) (i : ι) : (d.prog i).Asks P := by
  cases h with
  | @run j o next r s' head answer =>
      by_cases hij : i = j
      · have hask := hc j
        rw [head] at hask
        simp only [hij, Function.update_self]
        exact hask.2 r
      · simp only [Function.update_of_ne hij]
        exact hc i

theorem Reachable.map {V : ι → World I τ} (f : σ → τ) {P : I.Op → Prop}
    (hf : ∀ i s o r s', P o → W i s o r s' → V i (f s) o r (f s')) {c d : Threads I ι α σ}
    (h : Reachable W c d) (hc : ∀ i, (c.prog i).Asks P) :
    Reachable V ⟨f c.shared, c.prog⟩ ⟨f d.shared, d.prog⟩ := by
  suffices hboth : Reachable V ⟨f c.shared, c.prog⟩ ⟨f d.shared, d.prog⟩ ∧
      ∀ i, (d.prog i).Asks P from hboth.1
  induction h with
  | refl => exact ⟨.refl, hc⟩
  | tail _ step ih =>
      obtain ⟨hreach, hasks⟩ := ih
      refine ⟨hreach.tail ?_, step.asks hasks⟩
      cases step with
      | @run i o next r s' head answer =>
          have hask := hasks i
          rw [head] at hask
          exact .run head (hf i _ o r s' hask.1 answer)

/-! ### Schedules

A device that computes its answers turns a list of threads, each to make one operation, into a run.
-/

/-- Let a thread make one operation, if it is answered. -/
def advance (dev : ι → σ → (o : I.Op) → Option (I.Ans o × σ)) (c : Threads I ι α σ) (i : ι) :
    Threads I ι α σ :=
  match c.prog i with
  | .ask o next =>
      match dev i c.shared o with
      | some (r, s') => ⟨s', Function.update c.prog i (next r)⟩
      | none => c
  | _ => c

variable {dev : ι → σ → (o : I.Op) → Option (I.Ans o × σ)}

theorem reachable_advance (hdev : ∀ i s o r s', dev i s o = some (r, s') → W i s o r s')
    (c : Threads I ι α σ) (i : ι) : Reachable W c (c.advance dev i) := by
  rw [advance]
  split
  · rename_i o next hprog
    split
    · rename_i r s' hanswer
      exact .single (.run hprog (hdev _ _ _ _ _ hanswer))
    · exact .refl
  · exact .refl

theorem reachable_schedule (hdev : ∀ i s o r s', dev i s o = some (r, s') → W i s o r s')
    (sched : List ι) (c : Threads I ι α σ) : Reachable W c (sched.foldl (advance dev) c) := by
  induction sched generalizing c with
  | nil => exact .refl
  | cons i sched ih => exact (reachable_advance hdev c i).trans (ih _)

end Threads

end Base
