import Mathlib.Data.List.Induction
import Mathlib.Logic.Function.Basic
import Mathlib.Tactic.Common

/-!
# Updating a shared cell

Clients that share a cell, each of which takes a copy of it, edits the copy and puts it back. What
the cell holds is told by a list of clients: those whose edits the last copy put back had taken part
of, and the one that put it back. A client is in it for good unless another one, which took its copy
before, puts it back after.
-/

namespace Base

namespace SharedCell

inductive Access where
  | take
  | put
  deriving DecidableEq

/-- Whose edits the cell holds, and whose edits each client's copy holds. -/
structure Ledger (ι : Type) where
  applied : List ι
  taken : ι → Option (List ι)

variable {ι : Type}

def Ledger.step [DecidableEq ι] (l : Ledger ι) : ι × Access → Ledger ι
  | (i, .take) => { l with taken := Function.update l.taken i (some l.applied) }
  | (i, .put) => { l with applied := i :: (l.taken i).getD [] }

def ledger [DecidableEq ι] (h : List (ι × Access)) : Ledger ι :=
  h.foldl Ledger.step ⟨[], fun _ => none⟩

@[simp] theorem ledger_snoc [DecidableEq ι] (h : List (ι × Access)) (a : ι × Access) :
    ledger (h ++ [a]) = (ledger h).step a := by
  rw [ledger, List.foldl_append]
  rfl

/-- Nobody puts back what he has not taken. -/
def Orderly (h : List (ι × Access)) : Prop :=
  ∀ j a b, h = a ++ (j, .put) :: b → (j, .take) ∈ a

theorem orderly_nil : Orderly ([] : List (ι × Access)) := by
  intro j a b h
  simp at h

theorem Orderly.snoc {h : List (ι × Access)} (horder : Orderly h) {x : ι × Access}
    (hx : x.2 = .put → (x.1, .take) ∈ h) : Orderly (h ++ [x]) := by
  intro j a b heq
  rcases List.eq_nil_or_concat b with rfl | ⟨b', y, rfl⟩
  · obtain ⟨rfl, hlast⟩ := List.append_inj' heq rfl
    obtain rfl := (List.cons.inj hlast).1
    exact hx rfl
  · rw [List.concat_eq_append, ← List.cons_append, ← List.append_assoc] at heq
    exact horder j a b' (List.append_inj' heq rfl).1

/-- `j` took its copy before `i` put its own back, and puts it back after. -/
def Overtakes (h : List (ι × Access)) (j i : ι) : Prop :=
  ∃ a b, h = a ++ (i, .put) :: b ∧ (j, .take) ∈ a ∧ (j, .put) ∈ b

theorem overtakes_iff {h : List (ι × Access)} {j i : ι} :
    Overtakes h j i ↔ ∃ n < h.length, h[n]? = some (i, .put) ∧ (j, .take) ∈ h.take n ∧
      (j, .put) ∈ h.drop (n + 1) := by
  constructor
  · rintro ⟨a, b, rfl, htake, hput⟩
    exact ⟨a.length, by simp, by simp, by simpa using htake, by simpa using hput⟩
  · rintro ⟨n, hn, hi, htake, hput⟩
    refine ⟨h.take n, h.drop (n + 1), ?_, htake, hput⟩
    rw [List.getElem?_eq_getElem hn] at hi
    rw [← Option.some.inj hi, ← List.drop_eq_getElem_cons hn, List.take_append_drop]

instance [DecidableEq ι] (h : List (ι × Access)) (j i : ι) : Decidable (Overtakes h j i) :=
  decidable_of_iff' _ overtakes_iff

theorem Overtakes.of_snoc {h : List (ι × Access)} {x : ι × Access} {j i : ι}
    (hover : Overtakes (h ++ [x]) j i) : Overtakes h j i ∨ (x = (j, .put) ∧ (i, .put) ∈ h) := by
  obtain ⟨a, b, heq, htake, hput⟩ := hover
  rcases List.eq_nil_or_concat b with rfl | ⟨b', y, rfl⟩
  · simp at hput
  · rw [List.concat_eq_append, ← List.cons_append, ← List.append_assoc] at heq
    rw [List.concat_eq_append, List.mem_append, List.mem_singleton] at hput
    obtain ⟨rfl, hlast⟩ := List.append_inj' heq rfl
    obtain rfl := (List.cons.inj hlast).1
    rcases hput with hput | hput
    · exact .inl ⟨a, b', rfl, htake, hput⟩
    · exact .inr ⟨hput.symm, List.mem_append_right _ List.mem_cons_self⟩

/-- A client that nobody overtakes stays: every copy taken after it has put its own back holds its
edit, and only such copies are put back. -/
theorem mem_applied_of_fresh [DecidableEq ι] {a b : List (ι × Access)} {i : ι}
    (horder : Orderly (a ++ (i, .put) :: b)) (hfresh : ∀ j, (j, .put) ∈ b → (j, .take) ∉ a) :
    i ∈ (ledger (a ++ (i, .put) :: b)).applied ∧
      ∀ j, (j, .take) ∈ b →
        ∃ l, (ledger (a ++ (i, .put) :: b)).taken j = some l ∧ i ∈ l := by
  induction b using List.reverseRecOn with
  | nil =>
      rw [ledger_snoc]
      exact ⟨List.mem_cons_self, fun j hj => by simp at hj⟩
  | append_singleton b x ih =>
      have hsplit : a ++ (i, .put) :: (b ++ [x]) = (a ++ (i, .put) :: b) ++ [x] := by simp
      rw [hsplit] at horder ⊢
      have horder' : Orderly (a ++ (i, .put) :: b) := by
        intro j a' b' heq
        exact horder j a' (b' ++ [x]) (by rw [heq]; simp)
      obtain ⟨happlied, htaken⟩ :=
        ih horder' fun j hj => hfresh j (List.mem_append_left _ hj)
      obtain ⟨k, access⟩ := x
      rw [ledger_snoc]
      cases access with
      | take =>
          refine ⟨happlied, fun j hj => ?_⟩
          by_cases hjk : j = k
          · subst hjk
            exact ⟨_, Function.update_self .., happlied⟩
          · have hj' : (j, Access.take) ∈ b := by
              rcases List.mem_append.mp hj with hj | hj
              · exact hj
              · simp [hjk] at hj
            obtain ⟨l, hl, hmem⟩ := htaken j hj'
            exact ⟨l, (Function.update_of_ne hjk ..).trans hl, hmem⟩
      | put =>
          have hk : (k, Access.take) ∈ b := by
            have hbefore := horder k _ [] rfl
            have hnot := hfresh k (List.mem_append_right _ (List.mem_singleton.mpr rfl))
            rcases List.mem_append.mp hbefore with hbefore | hbefore
            · exact absurd hbefore hnot
            · simpa using hbefore
          obtain ⟨l, hl, hmem⟩ := htaken k hk
          refine ⟨?_, fun j hj => ?_⟩
          · show i ∈ k :: ((ledger (a ++ (i, .put) :: b)).taken k).getD []
            rw [hl]
            exact List.mem_cons_of_mem _ hmem
          · exact htaken j (by simpa using hj)

theorem mem_applied [DecidableEq ι] {h : List (ι × Access)} {i : ι} (horder : Orderly h)
    (hput : (i, .put) ∈ h) (hfresh : ∀ j, ¬ Overtakes h j i) : i ∈ (ledger h).applied := by
  obtain ⟨a, b, rfl⟩ := List.append_of_mem hput
  exact (mem_applied_of_fresh horder fun j hj hj' => hfresh j ⟨a, b, rfl, hj', hj⟩).1

end SharedCell

end Base
