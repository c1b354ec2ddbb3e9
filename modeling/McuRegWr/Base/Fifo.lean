import Mathlib.Tactic.Common

/-!
# Bounded queues

A queue of at most `cap` items. What was put in and what was taken out account for the content, in
order: `Accounts inp out q` is what the users of a queue know of it, whoever they are.
-/

namespace Base

structure Fifo (α : Type) (cap : Nat) where
  items : List α
  fits : items.length ≤ cap

namespace Fifo

variable {α : Type} {cap : Nat}

def empty : Fifo α cap := ⟨[], Nat.zero_le _⟩

def level (q : Fifo α cap) : Nat := q.items.length

def free (q : Fifo α cap) : Nat := cap - q.level

def push (q : Fifo α cap) (xs : List α) (h : xs.length ≤ q.free) : Fifo α cap where
  items := q.items ++ xs
  fits := by
    have hfits := q.fits
    rw [List.length_append]
    simp only [free, level] at h
    omega

def front (q : Fifo α cap) (n : Nat) : List α := q.items.take n

def pop (q : Fifo α cap) (n : Nat) : Fifo α cap where
  items := q.items.drop n
  fits := by
    have hfits := q.fits
    rw [List.length_drop]
    omega

theorem level_le (q : Fifo α cap) : q.level ≤ cap := q.fits

theorem level_push (q : Fifo α cap) (xs : List α) (h : xs.length ≤ q.free) :
    (q.push xs h).level = q.level + xs.length :=
  List.length_append

theorem level_pop (q : Fifo α cap) (n : Nat) : (q.pop n).level = q.level - n :=
  List.length_drop

theorem length_front {q : Fifo α cap} {n : Nat} (h : n ≤ q.level) : (q.front n).length = n := by
  rw [front, List.length_take]
  exact Nat.min_eq_left h

theorem front_append_pop (q : Fifo α cap) (n : Nat) : q.front n ++ (q.pop n).items = q.items :=
  List.take_append_drop n q.items

/-! ### A queue that has grown -/

theorem level_grown {q q' : Fifo α cap} {xs : List α} (h : q'.items = q.items ++ xs) :
    q'.level = q.level + xs.length := by
  rw [level, h, List.length_append]
  rfl

theorem front_grown {q q' : Fifo α cap} {xs : List α} (h : q'.items = q.items ++ xs) {n : Nat}
    (hn : n ≤ q.level) : q'.front n = q.front n := by
  rw [front, h, List.take_append_of_le_length hn]
  rfl

theorem pop_grown {q q' : Fifo α cap} {xs : List α} (h : q'.items = q.items ++ xs) {n : Nat}
    (hn : n ≤ q.level) : (q'.pop n).items = (q.pop n).items ++ xs := by
  change q'.items.drop n = q.items.drop n ++ xs
  rw [h, List.drop_append_of_le_length hn]

/-! ### Accounting -/

/-- The content is what went in and has not come out, in order. -/
def Accounts (inp out : List α) (q : Fifo α cap) : Prop := inp = out ++ q.items

theorem Accounts.push {inp out xs : List α} {q : Fifo α cap} (hacc : Accounts inp out q)
    (h : xs.length ≤ q.free) : Accounts (inp ++ xs) out (q.push xs h) := by
  rw [Accounts, hacc, Fifo.push, List.append_assoc]

theorem Accounts.pop {inp out : List α} {q : Fifo α cap} (hacc : Accounts inp out q) (n : Nat) :
    Accounts inp (out ++ q.front n) (q.pop n) := by
  rw [Accounts, hacc, List.append_assoc, front_append_pop]

/-! ### Whole messages -/

theorem dvd_level_push {k : Nat} {q : Fifo α cap} (hq : k ∣ q.level) {xs : List α}
    (hxs : k ∣ xs.length) (h : xs.length ≤ q.free) : k ∣ (q.push xs h).level := by
  rw [level_push]
  exact Nat.dvd_add hq hxs

theorem dvd_level_pop {k : Nat} {q : Fifo α cap} (hq : k ∣ q.level) {n : Nat} (hn : k ∣ n) :
    k ∣ (q.pop n).level := by
  rw [level_pop]
  exact Nat.dvd_sub hq hn

end Fifo

end Base
