import Mathlib.Data.Finset.Lattice.Fold
import Mathlib.Order.Bounds.Basic

/-!
# Rotation

A collection of ordered elements is kept small by taking out its least element when a new one comes.
The new element is compared with the others, and only those below it are counted: `Scan` does this in
one pass, in whatever order the elements come.
-/

namespace Base

variable {α : Type} [LinearOrder α]

/-- How many elements below the new one were seen, and the least of them. -/
structure Scan (α : Type) where
  count : Nat
  least : α

namespace Scan

def entry (x : α) (s : Scan α) (y : α) : Scan α :=
  if y < x then ⟨s.count + 1, if y < s.least then y else s.least⟩ else s

/-- The scan for `x` after the elements `seen`: the least element below `x` is `x` when there is
none. -/
structure Of (x : α) (seen : Finset α) (s : Scan α) : Prop where
  count_eq : s.count = (seen.filter (· < x)).card
  isLeast : IsLeast (insert x (seen.filter (· < x) : Set α)) s.least

variable {x : α} {seen : Finset α} {s : Scan α}

theorem Of.start (x : α) : Of x ∅ ⟨0, x⟩ := by
  refine ⟨rfl, ?_⟩
  simp [isLeast_singleton]

theorem Of.congr (h : Of x seen s) {seen' : Finset α}
    (hbelow : seen.filter (· < x) = seen'.filter (· < x)) : Of x seen' s := by
  obtain ⟨hcount, hleast⟩ := h
  rw [hbelow] at hcount hleast
  exact ⟨hcount, hleast⟩

theorem below_insert_of_lt {y : α} (hlt : y < x) :
    (insert y seen).filter (· < x) = insert y (seen.filter (· < x)) := by
  rw [Finset.filter_insert, if_pos hlt]

theorem below_insert_of_not_lt {y : α} (hge : ¬ y < x) :
    (insert y seen).filter (· < x) = seen.filter (· < x) := by
  rw [Finset.filter_insert, if_neg hge]

theorem Of.step (h : Of x seen s) {y : α} (hy : y ∉ seen) : Of x (insert y seen) (s.entry x y) := by
  rw [entry]
  split
  · rename_i hlt
    have hnew : y ∉ seen.filter (· < x) := fun hmem => hy (Finset.mem_filter.mp hmem).1
    refine ⟨?_, ?_⟩
    · rw [below_insert_of_lt hlt, Finset.card_insert_of_notMem hnew, h.count_eq]
    · have hmin : (if y < s.least then y else s.least) = min y s.least := by
        split
        · rename_i hless
          exact (min_eq_left hless.le).symm
        · rename_i hmore
          exact (min_eq_right (not_lt.mp hmore)).symm
      rw [below_insert_of_lt hlt, Finset.coe_insert, Set.insert_comm, hmin]
      exact h.isLeast.insert y
  · rename_i hge
    refine ⟨?_, ?_⟩
    · rw [below_insert_of_not_lt hge, h.count_eq]
    · rw [below_insert_of_not_lt hge]
      exact h.isLeast

/-- Where some element is below, the least one found is the least of all. -/
theorem Of.isLeast_of_pos (h : Of x seen s) (hpos : 0 < s.count) :
    IsLeast (seen : Set α) s.least ∧ s.least < x := by
  obtain ⟨y, hy⟩ := Finset.card_pos.mp (h.count_eq ▸ hpos)
  obtain ⟨hyseen, hyx⟩ := Finset.mem_filter.mp hy
  have hlt : s.least < x := lt_of_le_of_lt (h.isLeast.2 (Set.mem_insert_of_mem _ hy)) hyx
  have hmem : s.least ∈ seen.filter (· < x) := h.isLeast.1.resolve_left hlt.ne
  refine ⟨⟨(Finset.mem_filter.mp hmem).1, fun z hz => ?_⟩, hlt⟩
  by_cases hzx : z < x
  · exact h.isLeast.2 (Set.mem_insert_of_mem _ (Finset.mem_filter.mpr ⟨hz, hzx⟩))
  · exact hlt.le.trans (not_lt.mp hzx)

end Scan

/-! ### The rotation -/

/-- `s` with the new element `x`, and without its least element when there are `max` below `x`. -/
def Rotates (max : Nat) (s : Finset α) (x : α) (t : Finset α) : Prop :=
  if max ≤ (s.filter (· < x)).card then ∃ y, IsLeast (s : Set α) y ∧ t = (insert x s).erase y
  else t = insert x s

variable {max : Nat} {s t : Finset α} {x y : α}

theorem isLeast_insert (h : IsLeast (s : Set α) y) (hlt : y < x) :
    IsLeast ((insert x s : Finset α) : Set α) y := by
  have hmin := h.insert x
  rwa [min_eq_right hlt.le, ← Finset.coe_insert] at hmin

theorem Rotates.of_full (hfull : max ≤ (s.filter (· < x)).card) (h : IsLeast (s : Set α) y) :
    Rotates max s x ((insert x s).erase y) := by
  rw [Rotates, if_pos hfull]
  exact ⟨y, h, rfl⟩

theorem Rotates.of_room (hroom : ¬ max ≤ (s.filter (· < x)).card) :
    Rotates max s x (insert x s) := by
  rw [Rotates, if_neg hroom]

/-- Elements that were few stay few just when the new one is one of them, when there is room for
it, or when it is above them all. -/
theorem Rotates.card_le_iff (h : Rotates max s x t) (hs : s.card ≤ max) :
    t.card ≤ max ↔ x ∈ s ∨ s.card < max ∨ ∀ y ∈ s, y < x := by
  have hsub : (s.filter (· < x)).card ≤ s.card := Finset.card_filter_le s _
  rw [Rotates] at h
  split at h
  · rename_i hfull
    obtain ⟨y, hleast, rfl⟩ := h
    have hall : s.filter (· < x) = s :=
      Finset.eq_of_subset_of_card_le (Finset.filter_subset _ s) (hs.trans hfull)
    have hcard : ((insert x s).erase y).card ≤ s.card := by
      rw [Finset.card_erase_of_mem (Finset.mem_insert_of_mem hleast.1)]
      exact Nat.sub_le_of_le_add (Finset.card_insert_le x s)
    exact ⟨fun _ => .inr (.inr (Finset.filter_eq_self.mp hall)), fun _ => hcard.trans hs⟩
  · rename_i hroom
    obtain rfl := h
    by_cases hx : x ∈ s
    · rw [Finset.insert_eq_of_mem hx]
      exact ⟨fun _ => .inl hx, fun _ => hs⟩
    · rw [Finset.card_insert_of_notMem hx]
      constructor
      · exact fun hlt => .inr (.inl hlt)
      · intro h
        rcases h with hmem | hlt | hall
        · exact absurd hmem hx
        · exact hlt
        · have hself : s.filter (· < x) = s := Finset.filter_eq_self.mpr hall
          rw [hself] at hroom
          exact Nat.lt_of_not_le hroom

end Base
