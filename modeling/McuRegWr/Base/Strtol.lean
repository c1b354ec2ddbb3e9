import Mathlib.Tactic.Common

/-!
# Numbers in C strings

`strtol` and `strtoul` where `long` has 64 bits: white space, a sign and a prefix may stand before
the digits, what follows them is ignored, and a number out of range becomes the nearest in range.
-/

namespace Base

/-- A C string, without the byte that ends it. -/
abbrev CStr : Type := {s : List UInt8 // 0 ∉ s}

namespace CStr

/-- The string a literal writes. -/
def ofAscii (s : String) : CStr :=
  ⟨(s.toList.map fun c => UInt8.ofNat c.toNat).filter (· ≠ 0), by simp⟩

/-- `s + n` -/
def drop (s : CStr) (n : Nat) : CStr :=
  ⟨s.val.drop n, fun h => s.property (List.mem_of_mem_drop h)⟩

@[simp] theorem val_drop (s : CStr) (n : Nat) : (drop s n).val = s.val.drop n := rfl

def isspace (c : UInt8) : Bool := c = 0x20 || (0x09 ≤ c && c ≤ 0x0d)

/-- The digit a byte stands for, of whichever base. -/
def digit (c : UInt8) : Nat :=
  if 0x30 ≤ c ∧ c ≤ 0x39 then c.toNat - 0x30
  else if 0x61 ≤ c ∧ c ≤ 0x7a then c.toNat - 0x61 + 10
  else if 0x41 ≤ c ∧ c ≤ 0x5a then c.toNat - 0x41 + 10
  else 36

/-- The digits at the front of a string. -/
def digits (base : Nat) (s : List UInt8) : List Nat := (s.map digit).takeWhile (· < base)

def ofDigits (base : Nat) (ds : List Nat) : Nat := ds.foldl (fun n d => base * n + d) 0

/-- The sign and what comes after it. -/
def signed : List UInt8 → Bool × List UInt8
  | 0x2d :: s => (true, s)
  | 0x2b :: s => (false, s)
  | s => (false, s)

/-- What comes after `0x`, if that is a digit. -/
def hexBody : List UInt8 → Option (List UInt8)
  | 0x30 :: x :: s => if (x = 0x78 ∨ x = 0x58) ∧ digits 16 s ≠ [] then some s else none
  | _ => none

/-- The digits of a number without sign, with their base. With base 0 the number tells its own. -/
def based (base : Nat) (s : List UInt8) : Nat × List Nat :=
  match hexBody s with
  | some body => if base = 0 ∨ base = 16 then (16, digits 16 body) else (base, digits base s)
  | none =>
      let base := if base ≠ 0 then base else if s.head? = some 0x30 then 8 else 10
      (base, digits base s)

/-- The sign and the size of the number at the front of a string, if there is one: if not, C's
`endptr` is the string itself. -/
def number (s : List UInt8) (base : Nat) : Option (Bool × Nat) :=
  let (negative, s) := signed (s.dropWhile isspace)
  let (base, ds) := based base s
  if ds = [] then none else some (negative, ofDigits base ds)

def LONG_MAX : Int := 0x7FFFFFFFFFFFFFFF
def LONG_MIN : Int := -0x8000000000000000
def ULONG_MAX : UInt64 := 0xFFFFFFFFFFFFFFFF

/-- `strtol(s, &endptr, base)`: the value, and whether `endptr` is another than `s`. -/
def strtol (s : List UInt8) (base : Nat) : Int × Bool :=
  match number s base with
  | none => (0, false)
  | some (negative, n) => (max LONG_MIN (min LONG_MAX (if negative then -n else n)), true)

/-- `strtoul(s, &endptr, base)`: as `strtol`, but a sign negates the unsigned number. -/
def strtoul (s : List UInt8) (base : Nat) : UInt64 × Bool :=
  match number s base with
  | none => (0, false)
  | some (negative, n) =>
      if ULONG_MAX.toNat < n then (ULONG_MAX, true)
      else (if negative then -UInt64.ofNat n else UInt64.ofNat n, true)

/-! ### Where a number ends -/

/-- What follows the digits of a number without sign. -/
def basedRest (base : Nat) (s : List UInt8) : List UInt8 :=
  match hexBody s with
  | some body =>
      if base = 0 ∨ base = 16 then body.drop (based base s).2.length
      else s.drop (based base s).2.length
  | none => s.drop (based base s).2.length

/-- What `endptr` points to after `strtol(s, &endptr, base)`. -/
def strtolRest (s : List UInt8) (base : Nat) : List UInt8 :=
  match number s base with
  | none => s
  | some _ => basedRest base (signed (s.dropWhile isspace)).2

/-- Whether `strtol(s, &endptr, base)` sets `errno` to `ERANGE`. -/
def strtolErange (s : List UInt8) (base : Nat) : Bool :=
  match number s base with
  | none => false
  | some (negative, n) => if negative then -n < LONG_MIN else LONG_MAX < n

end CStr

end Base
