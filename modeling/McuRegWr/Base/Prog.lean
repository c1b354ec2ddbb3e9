import Mathlib.Tactic.Common

/-!
# Programs that talk to an environment

A program over an interface either has finished, or asks one operation of the interface and goes on
with the answer. Nothing is said here about which answers are possible: that is the world's part.
A loop runs on fuel, and one that has used it up is `spin`: it never finishes, so no statement about
finished runs can be met by running out of fuel.
-/

namespace Base

/-- The operations a program can ask for, and the answers each of them can get. -/
structure Iface where
  Op : Type
  Ans : Op → Type

/-- One operation together with the answer it got. -/
abbrev Iface.Event (I : Iface) : Type := (o : I.Op) × I.Ans o

inductive Prog (I : Iface) (α : Type) : Type where
  | done (a : α)
  | spin
  | ask (o : I.Op) (next : I.Ans o → Prog I α)

namespace Prog

variable {I : Iface} {α β γ : Type}

def bind : Prog I α → (α → Prog I β) → Prog I β
  | .done a, f => f a
  | .spin, _ => .spin
  | .ask o next, f => .ask o fun r => (next r).bind f

instance : Monad (Prog I) where
  pure := done
  bind := bind

/-- Ask one operation and return its answer. -/
def req (o : I.Op) : Prog I (I.Ans o) := .ask o .done

@[simp] theorem req_eq (o : I.Op) : req o = .ask o .done := rfl

theorem pure_eq (a : α) : (pure a : Prog I α) = .done a := rfl

@[simp] theorem done_bind (a : α) (f : α → Prog I β) : (Prog.done a >>= f) = f a := rfl

@[simp] theorem ask_bind (o : I.Op) (next : I.Ans o → Prog I α) (f : α → Prog I β) :
    (Prog.ask o next >>= f) = .ask o fun r => next r >>= f := rfl

theorem bind_done (p : Prog I α) : (p >>= Prog.done) = p := by
  induction p with
  | done a => rfl
  | spin => rfl
  | ask o next ih => exact congrArg (Prog.ask o) (funext ih)

theorem bind_assoc' (p : Prog I α) (f : α → Prog I β) (g : β → Prog I γ) :
    ((p >>= f) >>= g) = (p >>= fun a => f a >>= g) := by
  induction p with
  | done a => rfl
  | spin => rfl
  | ask o next ih => exact congrArg (Prog.ask o) (funext ih)

instance : LawfulMonad (Prog I) :=
  LawfulMonad.mk' (Prog I) bind_done (fun _ _ => rfl) bind_assoc'

/-- At most `fuel` rounds of a loop. A round goes on from a new state or leaves with a result. -/
def loop (round : β → Prog I (β ⊕ α)) : Nat → β → Prog I α
  | 0, _ => .spin
  | fuel + 1, b => do
      match ← round b with
      | .inl b' => loop round fuel b'
      | .inr a => return a

end Prog

end Base
