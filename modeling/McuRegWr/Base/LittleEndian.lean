import Mathlib.Tactic.Common
import Mathlib.Tactic.Ring

/-!
# Little-endian bytes

The bytes of a number, least significant first, and the number of some bytes.
-/

namespace Base

/-- The `n` low bytes of a number. -/
def leBytes : Nat → Nat → List UInt8
  | 0, _ => []
  | n + 1, v => UInt8.ofNat v :: leBytes n (v / 256)

def ofLeBytes : List UInt8 → Nat
  | [] => 0
  | b :: bs => b.toNat + 256 * ofLeBytes bs

@[simp] theorem length_leBytes (n v : Nat) : (leBytes n v).length = n := by
  induction n generalizing v with
  | zero => rfl
  | succ n ih => simp [leBytes, ih]

theorem ofLeBytes_lt (bs : List UInt8) : ofLeBytes bs < 256 ^ bs.length := by
  induction bs with
  | nil => simp [ofLeBytes]
  | cons b bs ih =>
      have hb := b.toNat_lt
      simp only [ofLeBytes, List.length_cons, pow_succ]
      omega

theorem ofLeBytes_leBytes (n v : Nat) : ofLeBytes (leBytes n v) = v % 256 ^ n := by
  induction n generalizing v with
  | zero => simp [leBytes, ofLeBytes, Nat.mod_one]
  | succ n ih =>
      have hsplit : v % 256 ^ (n + 1) = v % 256 + 256 * (v / 256 % 256 ^ n) := by
        rw [pow_succ', Nat.mod_mul]
      simp only [leBytes, ofLeBytes, ih, UInt8.toNat_ofNat']
      exact hsplit.symm

theorem ofLeBytes_leBytes_of_lt {n v : Nat} (h : v < 256 ^ n) : ofLeBytes (leBytes n v) = v := by
  rw [ofLeBytes_leBytes, Nat.mod_eq_of_lt h]

theorem leBytes_ofLeBytes (bs : List UInt8) : leBytes bs.length (ofLeBytes bs) = bs := by
  induction bs with
  | nil => rfl
  | cons b bs ih =>
      have hlow : UInt8.ofNat (b.toNat + 256 * ofLeBytes bs) = b := by
        apply UInt8.toNat_inj.mp
        rw [UInt8.toNat_ofNat']
        have hb := b.toNat_lt
        omega
      have hhigh : (b.toNat + 256 * ofLeBytes bs) / 256 = ofLeBytes bs := by
        have hb := b.toNat_lt
        omega
      rw [List.length_cons, leBytes, ofLeBytes, hlow, hhigh, ih]

end Base
