import Mathlib.Data.BitVec
import Mathlib.Dynamics.PeriodicPts.Defs

/-!
# Shift registers with feedback

A register moves down by one bit, and takes an exclusive or with `poly` when the bit that leaves it
is set. Symbols of `k` bits enter as an exclusive or into the low end, followed by `k` moves. All of
it is linear, so the content of a register is the exclusive or of one `mark` for each bit that was
ever fed to it: the top bit, moved as often as the bit has been. Marks repeat with the period of the
register, and a `poly` of odd weight keeps the parity of the content.
-/

namespace Base

namespace ShiftRegister

variable {w k : Nat}

/-! ### Set bits -/

/-- The places of the set bits, counted from the top. -/
def bitsOf (c : BitVec w) : List Nat := (List.range w).filter fun e => c.getLsbD (w - 1 - e)

/-- The number of set bits. -/
def weight (c : BitVec w) : Nat := (bitsOf c).length

theorem mem_bitsOf {c : BitVec w} {e : Nat} : e ∈ bitsOf c ↔ e < w ∧ c.getLsbD (w - 1 - e) := by
  rw [bitsOf, List.mem_filter, List.mem_range]

theorem nodup_bitsOf (c : BitVec w) : (bitsOf c).Nodup := List.nodup_range.filter _

theorem bitsOf_zero : bitsOf 0#w = [] :=
  List.filter_eq_nil_iff.mpr fun _ _ => by simp

theorem bitsOf_append (x : BitVec k) (y : BitVec w) :
    bitsOf (x ++ y) = bitsOf x ++ (bitsOf y).map (k + ·) := by
  have hhigh : (List.range k).filter (fun e => (x ++ y).getLsbD (k + w - 1 - e)) = bitsOf x := by
    apply List.filter_congr
    intro e he
    have hlt := List.mem_range.mp he
    have hplace : k + w - 1 - e - w = k - 1 - e := by omega
    rw [BitVec.getLsbD_append, if_neg (by omega), hplace]
  have hlow : (List.range w).filter
      ((fun e => (x ++ y).getLsbD (k + w - 1 - e)) ∘ (k + ·)) = bitsOf y := by
    apply List.filter_congr
    intro e he
    have hlt := List.mem_range.mp he
    have hplace : k + w - 1 - (k + e) = w - 1 - e := by omega
    rw [Function.comp_apply, BitVec.getLsbD_append, if_pos (by omega), hplace]
  rw [bitsOf, List.range_add, List.filter_append, hhigh, List.filter_map, hlow]

theorem weight_append (x : BitVec k) (y : BitVec w) : weight (x ++ y) = weight x + weight y := by
  rw [weight, bitsOf_append, List.length_append, List.length_map, weight, weight]

theorem bitsOf_setWidth (b : BitVec k) (d : Nat) :
    bitsOf (b.setWidth (d + k)) = (bitsOf b).map (d + ·) := by
  have hpad : b.setWidth (d + k) = 0#d ++ b := by
    apply BitVec.eq_of_getLsbD_eq
    intro i hi
    rw [BitVec.getLsbD_setWidth, BitVec.getLsbD_append, decide_eq_true hi, Bool.true_and]
    split
    · rfl
    · rw [BitVec.getLsbD_of_ge b i (by omega), BitVec.getLsbD_zero]
  rw [hpad, bitsOf_append, bitsOf_zero, List.nil_append]

theorem countP_xor {α : Type} (p q : α → Bool) (l : List α) :
    l.countP (fun x => p x ^^ q x) % 2 = (l.countP p + l.countP q) % 2 := by
  induction l with
  | nil => rfl
  | cons x l ih =>
      simp only [List.countP_cons]
      cases p x <;> cases q x <;> simp <;> omega

theorem weight_eq (c : BitVec w) :
    weight c = (List.range w).countP fun e => c.getLsbD (w - 1 - e) :=
  List.countP_eq_length_filter.symm

theorem weight_xor (c d : BitVec w) : weight (c ^^^ d) % 2 = (weight c + weight d) % 2 := by
  simp only [weight_eq, BitVec.getLsbD_xor]
  exact countP_xor _ _ _

/-! ### Moves -/

variable (poly : BitVec w)

def shift (c : BitVec w) : BitVec w := if c.getLsbD 0 then (c >>> 1) ^^^ poly else c >>> 1

theorem shift_zero : shift poly 0#w = 0#w := by
  simp [shift]

theorem shift_xor (c d : BitVec w) : shift poly (c ^^^ d) = shift poly c ^^^ shift poly d := by
  simp only [shift, BitVec.getLsbD_xor, BitVec.ushiftRight_xor_distrib]
  cases c.getLsbD 0 <;> cases d.getLsbD 0
  · rfl
  · exact BitVec.xor_assoc _ _ _
  · simp only [Bool.true_xor, Bool.not_false, if_true, Bool.false_eq_true, if_false]
    ac_rfl
  · simp only [Bool.true_xor, Bool.not_true, if_true, Bool.false_eq_true, if_false]
    rw [BitVec.xor_assoc, ← BitVec.xor_assoc poly, BitVec.xor_comm poly, BitVec.xor_assoc _ poly,
      BitVec.xor_self, BitVec.xor_zero]

theorem moves_zero (n : Nat) : (shift poly)^[n] 0#w = 0#w := by
  induction n with
  | zero => rfl
  | succ n ih => rw [Function.iterate_succ_apply', ih, shift_zero]

theorem moves_xor (n : Nat) (c d : BitVec w) :
    (shift poly)^[n] (c ^^^ d) = (shift poly)^[n] c ^^^ (shift poly)^[n] d := by
  induction n with
  | zero => rfl
  | succ n ih => simp only [Function.iterate_succ_apply', ih, shift_xor]

theorem moves_of_low_clear {c : BitVec w} {n : Nat} (h : ∀ i < n, c.getLsbD i = false) :
    (shift poly)^[n] c = c >>> n := by
  induction n with
  | zero => simp
  | succ n ih =>
      have hlow : (c >>> n).getLsbD 0 = false := by
        rw [BitVec.getLsbD_ushiftRight]
        exact h n (Nat.lt_succ_self n)
      rw [Function.iterate_succ_apply', ih fun i hi => h i (Nat.lt_succ_of_lt hi), shift, hlow,
        if_neg Bool.false_ne_true, BitVec.shiftRight_add]

theorem weight_shift (hpoly : weight poly % 2 = 1) (c : BitVec w) :
    weight (shift poly c) % 2 = weight c % 2 := by
  have hdown : weight (c >>> 1) + (c.getLsbD 0).toNat = weight c := by
    cases w with
    | zero =>
        rw [BitVec.of_length_zero (x := c)]
        rfl
    | succ w =>
        have htop : (c >>> 1).getLsbD (w + 1 - 1 - 0) = false := by
          rw [BitVec.getLsbD_ushiftRight]
          exact BitVec.getLsbD_of_ge _ _ (by omega)
        have hrest : (List.range w).countP
            ((fun e => (c >>> 1).getLsbD (w + 1 - 1 - e)) ∘ Nat.succ) =
              (List.range w).countP fun e => c.getLsbD (w + 1 - 1 - e) := by
          apply List.countP_congr
          intro e he
          have hlt := List.mem_range.mp he
          have hplace : 1 + (w + 1 - 1 - e.succ) = w + 1 - 1 - e := by omega
          rw [Function.comp_apply, BitVec.getLsbD_ushiftRight, hplace]
        have hlast : w + 1 - 1 - w = 0 := by omega
        calc weight (c >>> 1) + (c.getLsbD 0).toNat
            = (List.range w).countP (fun e => c.getLsbD (w + 1 - 1 - e)) +
                (c.getLsbD 0).toNat := by
              rw [weight_eq, List.range_succ_eq_map, List.countP_cons, List.countP_map, hrest, htop]
              rfl
          _ = weight c := by
              rw [weight_eq, List.range_succ, List.countP_append, List.countP_singleton, hlast]
              cases c.getLsbD 0 <;> rfl
  rw [shift]
  split
  · rename_i hset
    rw [hset, Bool.toNat_true] at hdown
    rw [weight_xor]
    omega
  · rename_i hclear
    rw [Bool.not_eq_true] at hclear
    rw [hclear, Bool.toNat_false] at hdown
    rw [← hdown, Nat.add_zero]

theorem weight_moves (hpoly : weight poly % 2 = 1) (n : Nat) (c : BitVec w) :
    weight ((shift poly)^[n] c) % 2 = weight c % 2 := by
  induction n with
  | zero => rfl
  | succ n ih => rw [Function.iterate_succ_apply', weight_shift poly hpoly, ih]

/-! ### Marks -/

/-- A bit that entered at the top and has been moved `e` times. -/
def mark (e : Nat) : BitVec w := (shift poly)^[e] (BitVec.twoPow w (w - 1))

def marked (l : List Nat) : BitVec w := l.foldr (fun e c => mark poly e ^^^ c) 0#w

@[simp] theorem marked_cons (e : Nat) (l : List Nat) :
    marked poly (e :: l) = mark poly e ^^^ marked poly l := rfl

theorem marked_append (l l' : List Nat) :
    marked poly (l ++ l') = marked poly l ^^^ marked poly l' := by
  induction l with
  | nil => exact (BitVec.zero_xor).symm
  | cons e l ih =>
      rw [List.cons_append, marked_cons, marked_cons, ih, BitVec.xor_assoc]

theorem moves_marked (n : Nat) (l : List Nat) :
    (shift poly)^[n] (marked poly l) = marked poly (l.map (n + ·)) := by
  induction l with
  | nil => exact moves_zero poly n
  | cons e l ih =>
      rw [List.map_cons, marked_cons, marked_cons, moves_xor, ih, mark, mark,
        Function.iterate_add_apply]

/-- Before it leaves at the low end a mark is a single bit. -/
theorem mark_of_lt {e : Nat} (h : e < w) : mark poly e = BitVec.twoPow w (w - 1 - e) := by
  rw [mark, moves_of_low_clear]
  · apply BitVec.eq_of_getLsbD_eq
    intro i hi
    rw [BitVec.getLsbD_ushiftRight, BitVec.getLsbD_twoPow, BitVec.getLsbD_twoPow]
    have hiff : w - 1 = e + i ↔ w - 1 - e = i := by omega
    simp only [hiff, decide_eq_true (show w - 1 < w by omega),
      decide_eq_true (show w - 1 - e < w by omega)]
  · intro i hi
    rw [BitVec.getLsbD_twoPow, decide_eq_false (show w - 1 ≠ i by omega), Bool.and_false]

theorem getLsbD_marked {l : List Nat} (hnodup : l.Nodup) (hlt : ∀ e ∈ l, e < w) {i : Nat}
    (hi : i < w) : (marked poly l).getLsbD i = decide (w - 1 - i ∈ l) := by
  induction l with
  | nil => simp [marked]
  | cons e l ih =>
      have he := hlt e List.mem_cons_self
      obtain ⟨hmem, hnodup⟩ := List.nodup_cons.mp hnodup
      rw [marked_cons, BitVec.getLsbD_xor, ih hnodup fun e' h => hlt e' (List.mem_cons_of_mem _ h),
        mark_of_lt poly he, BitVec.getLsbD_twoPow, decide_eq_true (show w - 1 - e < w by omega),
        Bool.true_and]
      by_cases hplace : w - 1 - i = e
      · rw [hplace, decide_eq_true (show w - 1 - e = i by omega), decide_eq_false hmem,
          decide_eq_true List.mem_cons_self]
        rfl
      · have hiff : w - 1 - i ∈ e :: l ↔ w - 1 - i ∈ l := by
          rw [List.mem_cons, or_iff_right hplace]
        rw [decide_eq_false (show w - 1 - e ≠ i by omega), Bool.false_xor]
        simp only [hiff]

theorem marked_bitsOf (c : BitVec w) : marked poly (bitsOf c) = c := by
  apply BitVec.eq_of_getLsbD_eq
  intro i hi
  have hplace : w - 1 - (w - 1 - i) = i := by omega
  rw [getLsbD_marked poly (nodup_bitsOf c) (fun e he => (mem_bitsOf.mp he).1) hi]
  simp only [mem_bitsOf, hplace]
  simp
  omega

/-- Every mark has an odd number of set bits, so only an even number of marks can cancel. -/
theorem weight_marked (hw : 0 < w) (hpoly : weight poly % 2 = 1) (l : List Nat) :
    weight (marked poly l) % 2 = l.length % 2 := by
  have htop : weight (BitVec.twoPow w (w - 1)) = 1 := by
    have hzero : (List.range w).count 0 = 1 :=
      List.count_eq_one_of_mem List.nodup_range (List.mem_range.mpr hw)
    refine (weight_eq _).trans (Eq.trans (List.countP_congr ?_) hzero)
    intro e he
    have hlt := List.mem_range.mp he
    rw [BitVec.getLsbD_twoPow]
    simp
    omega
  induction l with
  | nil => rw [marked, List.foldr_nil, weight, bitsOf_zero]
  | cons e l ih =>
      rw [marked_cons, weight_xor, Nat.add_mod, ih, mark, weight_moves poly hpoly, htop,
        List.length_cons]
      omega

theorem mark_xor_mark_ne_zero {e e' : Nat} (hne : e ≠ e')
    (he : e < (shift poly).minimalPeriod (BitVec.twoPow w (w - 1)))
    (he' : e' < (shift poly).minimalPeriod (BitVec.twoPow w (w - 1))) :
    mark poly e ^^^ mark poly e' ≠ 0#w := by
  intro h
  exact hne (Function.iterate_injOn_Iio_minimalPeriod he he' (BitVec.xor_eq_zero_iff.mp h))

/-! ### Symbols -/

/-- A symbol enters at the low end, low bit first. -/
def feed (c : BitVec w) (b : BitVec k) : BitVec w := (shift poly)^[k] (c ^^^ b.setWidth w)

/-- The marks in a register after it was fed a symbol. -/
def trail (w : Nat) (l : List Nat) (b : BitVec k) : List Nat :=
  (l ++ bitsOf (b.setWidth w)).map (k + ·)

theorem feed_marked (l : List Nat) (b : BitVec k) :
    feed poly (marked poly l) b = marked poly (trail w l b) := by
  rw [trail, ← moves_marked, marked_append, marked_bitsOf, feed]

theorem run_marked (l : List Nat) (bs : List (BitVec k)) :
    bs.foldl (feed poly) (marked poly l) = marked poly (bs.foldl (trail w) l) := by
  induction bs generalizing l with
  | nil => rfl
  | cons b bs ih => rw [List.foldl_cons, List.foldl_cons, feed_marked, ih]

/-- The marks of `n` symbols fed to a clear register, one for each bit: all different, and past the
low end by no more than the bits that were fed. -/
theorem trail_bounds (d : Nat) (bs : List (BitVec k)) :
    (bs.foldl (trail (d + k)) []).Nodup ∧
      (∀ e ∈ bs.foldl (trail (d + k)) [], d + k ≤ e ∧ e < d + k + k * bs.length) ∧
      (bs.foldl (trail (d + k)) []).length = (bs.map weight).sum := by
  induction bs using List.reverseRecOn with
  | nil => simp
  | append_singleton bs b ih =>
      obtain ⟨hnodup, hbounds, hlength⟩ := ih
      rw [List.foldl_concat, trail, bitsOf_setWidth]
      have hlt : ∀ e ∈ bitsOf b, e < k := fun e he => (mem_bitsOf.mp he).1
      refine ⟨?_, ?_, ?_⟩
      · apply List.Nodup.map (add_right_injective k)
        refine hnodup.append ((nodup_bitsOf b).map (add_right_injective d)) ?_
        intro e hold hnew
        obtain ⟨j, hj, rfl⟩ := List.mem_map.mp hnew
        have := hlt j hj
        have := (hbounds _ hold).1
        omega
      · intro e he
        obtain ⟨e', he', rfl⟩ := List.mem_map.mp he
        rw [List.length_append, List.length_singleton, Nat.mul_add, Nat.mul_one]
        rcases List.mem_append.mp he' with hold | hnew
        · have := hbounds e' hold
          omega
        · obtain ⟨j, hj, rfl⟩ := List.mem_map.mp hnew
          have := hlt j hj
          omega
      · rw [List.length_map, List.length_append, hlength, List.length_map, List.map_append,
          List.sum_append, List.map_singleton, List.sum_singleton, weight]

end ShiftRegister

end Base
