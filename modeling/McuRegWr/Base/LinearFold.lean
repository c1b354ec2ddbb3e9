import Mathlib.Tactic.Common

/-!
# Folds that respect exclusive or

A checksum register fed symbol by symbol is a fold. When its step takes an exclusive or of states
and symbols to the exclusive or of the results, two runs differ by the run of their difference, so
what the checksum misses is what the run of the error alone sends to zero. -/

namespace Base

/-- A step on states fed by symbols that takes exclusive ors to exclusive ors. -/
structure LinearStep (S X : Type) [XorOp S] [XorOp X] where
  step : S → X → S
  zeroState : S
  zeroSymbol : X
  step_xor : ∀ s d x e, step (s ^^^ d) (x ^^^ e) = step s x ^^^ step d e
  step_zero : step zeroState zeroSymbol = zeroState
  /-- Feeding the zero symbol loses nothing of the state. -/
  eq_zero_of_step : ∀ s, step s zeroSymbol = zeroState → s = zeroState

namespace LinearStep

variable {S X : Type} [XorOp S] [XorOp X] (M : LinearStep S X)

def run (s : S) (xs : List X) : S := xs.foldl M.step s

@[simp] theorem run_cons (s : S) (x : X) (xs : List X) :
    M.run s (x :: xs) = M.run (M.step s x) xs := rfl

theorem run_append (s : S) (xs ys : List X) : M.run s (xs ++ ys) = M.run (M.run s xs) ys :=
  List.foldl_append

theorem run_xor (s d : S) (xs es : List X) (hlen : xs.length = es.length) :
    M.run (s ^^^ d) (List.zipWith (· ^^^ ·) xs es) = M.run s xs ^^^ M.run d es := by
  induction xs generalizing s d es with
  | nil =>
      obtain rfl := List.eq_nil_of_length_eq_zero hlen.symm
      rfl
  | cons x xs ih =>
      cases es with
      | nil => simp at hlen
      | cons e es =>
          simp only [List.zipWith_cons_cons, run_cons, M.step_xor]
          exact ih _ _ _ (Nat.succ.inj hlen)

theorem run_zeros (n : Nat) : M.run M.zeroState (List.replicate n M.zeroSymbol) = M.zeroState := by
  induction n with
  | zero => rfl
  | succ n ih => rw [List.replicate_succ, run_cons, M.step_zero, ih]

theorem run_replicate_eq_zero_iff (s : S) (n : Nat) :
    M.run s (List.replicate n M.zeroSymbol) = M.zeroState ↔ s = M.zeroState := by
  induction n generalizing s with
  | zero => rfl
  | succ n ih =>
      rw [List.replicate_succ, run_cons, ih]
      constructor
      · exact M.eq_zero_of_step s
      · rintro rfl
        exact M.step_zero

end LinearStep

end Base
