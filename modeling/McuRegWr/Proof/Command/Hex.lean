import Mathlib.Data.BitVec
import McuRegWr.Proof.Command.Access

/-!
# Bytes in hexadecimal

The parser gives every two characters to `strtol` and asks only whether something was read. So a
pair passes that begins with a digit, or has white space or a sign before one.
-/

namespace McuRegWr

open Base CStr

def HexDigit (c : UInt8) : Prop :=
  0x30 ≤ c ∧ c ≤ 0x39 ∨ 0x41 ≤ c ∧ c ≤ 0x46 ∨ 0x61 ≤ c ∧ c ≤ 0x66

instance (c : UInt8) : Decidable (HexDigit c) := inferInstanceAs (Decidable (_ ∨ _ ∨ _))

/-- `strtol` reads something of the two characters. -/
def Starts (a b : UInt8) : Prop :=
  HexDigit a ∨ (isspace a ∨ a = 0x2d ∨ a = 0x2b) ∧ HexDigit b

instance (a b : UInt8) : Decidable (Starts a b) := inferInstanceAs (Decidable (_ ∨ _ ∧ _))

/-- Every two characters of a string meet `P`. -/
def EveryPair (P : UInt8 → UInt8 → Prop) : List UInt8 → Prop
  | a :: b :: s => P a b ∧ EveryPair P s
  | _ => True

/-- Two characters a byte, and room for the bytes. -/
def FitsArray (hexString : CStr) (size : Nat) : Prop :=
  hexString.val.length % 2 = 0 ∧ hexString.val.length / 2 ≤ size

/-! ### Two characters -/

theorem hexDigit_iff (c : UInt8) : HexDigit c ↔ digit c < 16 := by
  have hall : ∀ c : BitVec 8, HexDigit (.ofBitVec c) ↔ digit (.ofBitVec c) < 16 := by
    decide +kernel
  exact hall c.toBitVec

theorem HexDigit.plain {c : UInt8} (h : HexDigit c) : isspace c = false ∧ c ≠ 0x2d ∧ c ≠ 0x2b := by
  have hall : ∀ c : BitVec 8, HexDigit (.ofBitVec c) →
      isspace (.ofBitVec c) = false ∧ UInt8.ofBitVec c ≠ 0x2d ∧ UInt8.ofBitVec c ≠ 0x2b := by
    decide +kernel
  exact hall c.toBitVec h

theorem signed_cons (c : UInt8) (s : List UInt8) :
    signed (c :: s) = if c = 0x2d then (true, s) else if c = 0x2b then (false, s)
      else (false, c :: s) := by
  rw [signed.eq_def]
  split <;> simp_all

theorem length_signed_le (s : List UInt8) : (signed s).2.length ≤ s.length := by
  cases s with
  | nil => exact le_refl _
  | cons c s =>
      rw [signed_cons]
      split
      · exact Nat.le_succ _
      split
      · exact Nat.le_succ _
      · exact le_refl _

theorem hexBody_short {s : List UInt8} (h : s.length ≤ 2) : hexBody s = none := by
  rw [hexBody.eq_def]
  split
  · rename_i x body
    have hbody : body = [] := List.length_eq_zero_iff.mp (by simpa using h)
    rw [hbody]
    exact if_neg fun hdigit => hdigit.2 rfl
  · rfl

theorem number_short {s : List UInt8} (h : s.length ≤ 2) :
    number s 16 =
      if digits 16 (signed (s.dropWhile isspace)).2 = [] then none
      else some ((signed (s.dropWhile isspace)).1,
        ofDigits 16 (digits 16 (signed (s.dropWhile isspace)).2)) := by
  have hrest : (signed (s.dropWhile isspace)).2.length ≤ 2 :=
    (length_signed_le _).trans ((List.dropWhile_sublist _).length_le.trans h)
  simp only [number, based, hexBody_short hrest]
  rfl

theorem digits_cons (base : Nat) (c : UInt8) (s : List UInt8) :
    digits base (c :: s) = if digit c < base then digit c :: digits base s else [] := by
  rw [digits, List.map_cons, List.takeWhile_cons]
  by_cases h : digit c < base
  · rw [if_pos (decide_eq_true h), if_pos h]
    rfl
  · rw [if_neg (by simpa using h), if_neg h]

theorem digits_ne_nil (base : Nat) (c : UInt8) (s : List UInt8) :
    digits base (c :: s) ≠ [] ↔ digit c < base := by
  rw [digits_cons]
  split <;> simp_all

theorem strtol_hex {a b : UInt8} (ha : HexDigit a) (hb : HexDigit b) :
    strtol [a, b] 16 = (((16 * digit a + digit b : Nat) : Int), true) := by
  obtain ⟨hspace, hminus, hplus⟩ := ha.plain
  have ha' := (hexDigit_iff a).mp ha
  have hb' := (hexDigit_iff b).mp hb
  have hdigits : digits 16 [a, b] = [digit a, digit b] := by
    rw [digits_cons, if_pos ha', digits_cons, if_pos hb']
    rfl
  have hnumber : number [a, b] 16 = some (false, 16 * digit a + digit b) := by
    rw [number_short (le_refl _), List.dropWhile_cons_of_neg (by simp [hspace]), signed_cons,
      if_neg hminus, if_neg hplus, hdigits, if_neg (List.cons_ne_nil _ _)]
    simp [ofDigits]
  have hlt : ((16 * digit a + digit b : Nat) : Int) ≤ LONG_MAX := by
    rw [LONG_MAX]
    omega
  have hgt : LONG_MIN ≤ ((16 * digit a + digit b : Nat) : Int) := by
    rw [LONG_MIN]
    omega
  simp only [strtol, hnumber, Bool.false_eq_true, if_false, min_eq_right hlt, max_eq_right hgt]

/-- A digit in front, or one behind white space or a sign, is all that `strtol` asks for. -/
theorem strtol_moves (a b : UInt8) : (strtol [a, b] 16).2 = true ↔ Starts a b := by
  have hmoved : (strtol [a, b] 16).2 = true ↔
      digits 16 (signed ([a, b].dropWhile isspace)).2 ≠ [] := by
    rw [strtol, number_short (le_refl _)]
    split <;> simp_all
  have hone : digits 16 [b] ≠ [] ↔ HexDigit b := by
    rw [digits_ne_nil, hexDigit_iff]
  have htwo : digits 16 [a, b] ≠ [] ↔ HexDigit a := by
    rw [digits_ne_nil, hexDigit_iff]
  rw [hmoved, Starts]
  by_cases hspace : isspace a = true
  · -- a second white space or a sign leaves no digit
    have ha : ¬ HexDigit a := fun h => by simp [h.plain.1] at hspace
    rw [List.dropWhile_cons_of_pos hspace, or_iff_right ha, and_iff_right (.inl hspace)]
    by_cases hb : HexDigit b
    · obtain ⟨hbspace, hminus, hplus⟩ := hb.plain
      rw [List.dropWhile_cons_of_neg (by simp [hbspace]), signed_cons, if_neg hminus, if_neg hplus,
        hone]
    · refine iff_of_false (not_not.mpr ?_) hb
      by_cases hbspace : isspace b = true
      · rw [List.dropWhile_cons_of_pos hbspace]
        rfl
      · rw [List.dropWhile_cons_of_neg hbspace, signed_cons]
        split
        · rfl
        split
        · rfl
        · exact not_not.mp (mt hone.mp hb)
  rw [List.dropWhile_cons_of_neg hspace, signed_cons]
  by_cases hsign : a = 0x2d ∨ a = 0x2b
  · have ha : ¬ HexDigit a := fun h => hsign.elim h.plain.2.1 h.plain.2.2
    rw [or_iff_right ha, and_iff_right (.inr hsign), ← hone]
    split
    · rfl
    · rw [if_pos (hsign.resolve_left ‹_›)]
  · obtain ⟨hminus, hplus⟩ := not_or.mp hsign
    rw [if_neg hminus, if_neg hplus, htwo, or_iff_left]
    rintro ⟨hfront, -⟩
    exact hfront.elim hspace hsign

/-! ### The whole string -/

theorem hexLoop_cons (byteArray : List UInt8) (i : Nat) (a b : UInt8) (s : List UInt8) :
    hexLoop byteArray i (a :: b :: s) =
      if (strtol [a, b] 16).2 then
        hexLoop (byteArray.set i (UInt8.ofInt (strtol [a, b] 16).1)) (i + 1) s
      else (false, byteArray.set i (UInt8.ofInt (strtol [a, b] 16).1)) := rfl

theorem hexLoop_accepts (byteArray : List UInt8) (i : Nat) (s : List UInt8) :
    (hexLoop byteArray i s).1 = true ↔ EveryPair Starts s := by
  fun_induction EveryPair Starts s generalizing byteArray i with
  | case1 a b s ih =>
      rw [hexLoop_cons]
      by_cases hmoved : (strtol [a, b] 16).2 = true
      · rw [if_pos hmoved, ih, and_iff_right ((strtol_moves a b).mp hmoved)]
      · rw [if_neg hmoved]
        exact iff_of_false Bool.false_ne_true fun h => hmoved ((strtol_moves a b).mpr h.1)
  | case2 s hshort =>
      rw [hexLoop.eq_def]
      split
      · exact absurd rfl (hshort _ _ _)
      · exact iff_of_true rfl trivial

/-- Both characters of a pair are digits. -/
abbrev HexPair (a b : UInt8) : Prop := HexDigit a ∧ HexDigit b

/-- The byte that the digits `2 * i` and `2 * i + 1` of a string write. -/
def byteOf (s : List UInt8) (i : Nat) : UInt8 :=
  UInt8.ofNat (16 * digit (s.getD (2 * i) 0) + digit (s.getD (2 * i + 1) 0))

theorem ofInt_natCast (n : Nat) : UInt8.ofInt n = UInt8.ofNat n := by
  have hmod : ((n : Int) % 2 ^ 8).toNat = n % 2 ^ 8 := by omega
  rw [UInt8.ofInt, hmod]
  exact UInt8.toNat_inj.mp (by simp)

/-- Every byte of the array is that of its digits, or as it was. -/
theorem hexLoop_getD {byteArray : List UInt8} {i : Nat} {s : List UInt8}
    (hdigits : EveryPair HexPair s) (hroom : i + s.length / 2 ≤ byteArray.length) (j : Nat) :
    (hexLoop byteArray i s).2.getD j 0 =
      if i ≤ j ∧ j < i + s.length / 2 then byteOf s (j - i) else byteArray.getD j 0 := by
  fun_induction EveryPair HexPair s generalizing byteArray i with
  | case1 a b s ih =>
      obtain ⟨⟨ha, hb⟩, hs⟩ := hdigits
      have hlen : (a :: b :: s).length / 2 = s.length / 2 + 1 := by
        simp only [List.length_cons]
        omega
      rw [hlen] at hroom ⊢
      rw [hexLoop_cons, strtol_hex ha hb, if_pos rfl, ih hs (by rw [List.length_set]; omega)]
      by_cases hj : j = i
      · have hvalue : UInt8.ofInt ((16 * digit a + digit b : Nat) : Int) = byteOf (a :: b :: s) 0 :=
          ofInt_natCast _
        subst hj
        rw [if_neg (by omega), if_pos (by omega), List.getD_eq_getElem?_getD,
          List.getElem?_set_self (by omega), Option.getD_some, hvalue, Nat.sub_self]
      · have hset : (byteArray.set i
            (UInt8.ofInt ((16 * digit a + digit b : Nat) : Int))).getD j 0 =
              byteArray.getD j 0 := by
          rw [List.getD_eq_getElem?_getD, List.getElem?_set_ne (Ne.symm hj),
            List.getD_eq_getElem?_getD]
        rw [hset]
        by_cases hin : i + 1 ≤ j ∧ j < i + 1 + s.length / 2
        · obtain ⟨k, rfl⟩ : ∃ k, j = i + 1 + k := ⟨j - (i + 1), by omega⟩
          rw [if_pos hin, if_pos (by omega), Nat.add_sub_cancel_left,
            show i + 1 + k - i = k + 1 by omega]
          rfl
        · rw [if_neg hin, if_neg (by omega)]
  | case2 s hshort =>
      have hlen : s.length / 2 = 0 := by
        match s, hshort with
        | [], _ => rfl
        | [c], _ => simp
        | a :: b :: s, hshort => exact absurd rfl (hshort a b s)
      rw [if_neg (by omega), hexLoop.eq_def]
      split
      · exact absurd rfl (hshort _ _ _)
      · rfl

theorem everyPair_iff {s : List UInt8} (heven : s.length % 2 = 0) :
    EveryPair HexPair s ↔ ∀ c ∈ s, HexDigit c := by
  fun_induction EveryPair HexPair s with
  | case1 a b s ih =>
      have heven' : s.length % 2 = 0 := by
        simp only [List.length_cons] at heven
        omega
      rw [ih heven', List.forall_mem_cons, List.forall_mem_cons, and_assoc]
  | case2 s hshort =>
      match s, hshort, heven with
      | [], _, _ => simp
      | a :: b :: s, hshort, _ => exact absurd rfl (hshort a b s)

theorem EveryPair.mono {P Q : UInt8 → UInt8 → Prop} (hPQ : ∀ a b, P a b → Q a b) {s : List UInt8}
    (h : EveryPair P s) : EveryPair Q s := by
  fun_induction EveryPair P s with
  | case1 a b s ih => exact ⟨hPQ a b h.1, ih h.2⟩
  | case2 s hshort =>
      rw [EveryPair.eq_def]
      split
      · exact absurd rfl (hshort _ _ _)
      · trivial

/-! ### The result -/

/-- An `int` holds a size up to `2^31`, and shows the largest 32-bit one as `-1`. -/
theorem intOfSize_cases (n : Nat) :
    (intOfSize n = n ↔ n < 2 ^ 31) ∧ (intOfSize n = -1 ↔ n % 2 ^ 32 = 2 ^ 32 - 1) := by
  rw [intOfSize, BitVec.toInt_eq_toNat_cond, BitVec.toNat_ofNat]
  split <;> constructor <;> omega

variable {hexString : CStr} {byteArray : List UInt8} {size : Nat}

theorem hexStringToByteArray_refused
    (h : ¬ (FitsArray hexString size ∧ EveryPair Starts hexString.val)) :
    (hexStringToByteArray hexString byteArray size).1 = -1 := by
  rw [hexStringToByteArray]
  split
  · rfl
  rename_i hlen
  obtain ⟨heven, hroom⟩ := not_or.mp hlen
  split
  · rename_i heq
    have haccepts := (hexLoop_accepts byteArray 0 hexString.val).mp (by rw [heq])
    exact absurd ⟨⟨not_not.mp heven, Nat.not_lt.mp hroom⟩, haccepts⟩ h
  · rfl

theorem hexStringToByteArray_read (hfits : FitsArray hexString size)
    (hstarts : EveryPair Starts hexString.val) :
    hexStringToByteArray hexString byteArray size =
      (intOfSize (hexString.val.length / 2), (hexLoop byteArray 0 hexString.val).2) := by
  have haccepts := (hexLoop_accepts byteArray 0 hexString.val).mpr hstarts
  obtain ⟨heven, hroom⟩ := hfits
  rw [hexStringToByteArray, if_neg (by omega)]
  split <;> rename_i heq <;> simp_all

/-- A result that is no error counts the bytes that the string writes, each with two digits; these
are then in the array, and there is no other error than `-1`. -/
def HexExact (hexString : CStr) (byteArray : List UInt8) (size : Nat) : Prop :=
  (∀ n : Nat, (hexStringToByteArray hexString byteArray size).1 = n ↔
    hexString.val.length = 2 * n ∧ n ≤ size ∧ ∀ c ∈ hexString.val, HexDigit c) ∧
  (∀ n : Nat, (hexStringToByteArray hexString byteArray size).1 = n → ∀ i < n,
    (hexStringToByteArray hexString byteArray size).2.getD i 0 = byteOf hexString.val i) ∧
  ((hexStringToByteArray hexString byteArray size).1 < 0 →
    (hexStringToByteArray hexString byteArray size).1 = -1)

/-- A refused string is right to be refused unless it has digits only and fits. -/
theorem HexExact.of_refused (hret : (hexStringToByteArray hexString byteArray size).1 = -1)
    (hbad : FitsArray hexString size → ¬ ∀ c ∈ hexString.val, HexDigit c) :
    HexExact hexString byteArray size := by
  refine ⟨fun n => ?_, fun n hn => ?_, fun _ => hret⟩
  · rw [hret]
    refine iff_of_false (by omega) ?_
    rintro ⟨hlen, hroom, hdigits⟩
    exact hbad ⟨by omega, by omega⟩ hdigits
  · rw [hret] at hn
    omega

/-- The parser accepts the strings of digits that fit, up to the largest `int`, and what else it
accepts are strings in every pair of which `strtol` reads something. -/
theorem hexString_exact_iff {hexString : CStr} {byteArray : List UInt8} {size : Nat}
    (harray : size ≤ byteArray.length) :
    HexExact hexString byteArray size ↔
      (FitsArray hexString size → EveryPair Starts hexString.val →
        (∀ c ∈ hexString.val, HexDigit c) ∧ hexString.val.length / 2 < 2 ^ 31 ∨
        (¬ ∀ c ∈ hexString.val, HexDigit c) ∧
          hexString.val.length / 2 % 2 ^ 32 = 2 ^ 32 - 1) := by
  obtain ⟨hint, hlast⟩ := intOfSize_cases (hexString.val.length / 2)
  constructor
  · rintro ⟨hcount, -, herror⟩ hfits hstarts
    rw [hexStringToByteArray_read hfits hstarts] at hcount herror
    obtain ⟨heven, hroom⟩ := hfits
    by_cases hdigits : ∀ c ∈ hexString.val, HexDigit c
    · exact .inl ⟨hdigits, hint.mp ((hcount _).mpr ⟨by omega, hroom, hdigits⟩)⟩
    · refine .inr ⟨hdigits, hlast.mp (herror ?_)⟩
      by_contra hpos
      obtain ⟨n, hn⟩ := Int.eq_ofNat_of_zero_le (Int.not_lt.mp hpos)
      exact hdigits ((hcount n).mp hn).2.2
  · intro h
    by_cases hread : FitsArray hexString size ∧ EveryPair Starts hexString.val
    · obtain ⟨hfits, hstarts⟩ := hread
      have hresult := @hexStringToByteArray_read _ byteArray _ hfits hstarts
      have hcases := h hfits hstarts
      obtain ⟨heven, hroom⟩ := hfits
      rcases hcases with ⟨hdigits, hsmall⟩ | ⟨hbad, hlarge⟩
      · rw [hint.mpr hsmall] at hresult
        have hvalue := @hexLoop_getD byteArray 0 hexString.val
          ((everyPair_iff heven).mpr hdigits) (by omega)
        refine ⟨fun n => ?_, fun n hn i hi => ?_, fun hneg => ?_⟩
        · rw [hresult]
          constructor
          · intro hn
            have hn := Int.ofNat_inj.mp hn
            exact ⟨by omega, by omega, hdigits⟩
          · rintro ⟨hlen, -, -⟩
            exact congrArg Int.ofNat (by omega)
        · rw [hresult] at hn ⊢
          have hn := Int.ofNat_inj.mp hn
          dsimp only
          rw [hvalue, if_pos (by omega), Nat.sub_zero]
        · rw [hresult] at hneg
          omega
      · exact .of_refused ((congrArg Prod.fst hresult).trans (hlast.mpr hlarge)) fun _ => hbad
    · refine .of_refused (hexStringToByteArray_refused hread) fun hfits hdigits => hread ⟨hfits, ?_⟩
      refine ((everyPair_iff hfits.1).mpr hdigits).mono ?_
      exact fun a b hab => .inl hab.1

/-- `5g` is read as the byte 5. -/
theorem hexString_accepts_other :
    ¬ ∀ (hexString : CStr) (byteArray : List UInt8) (size : Nat), size ≤ byteArray.length →
      HexExact hexString byteArray size := by
  intro h
  have hret : (hexStringToByteArray ⟨[0x35, 0x67], by decide⟩ [0] 1).1 = 1 := by decide
  obtain ⟨-, -, hdigits⟩ := ((h ⟨[0x35, 0x67], by decide⟩ [0] 1 (by decide)).1 1).mp hret
  exact absurd (hdigits 0x67 (by decide)) (by decide)

/-- `c0fE` has digits only. -/
theorem hexString_exact_iff_word :
    HexExact ⟨[0x63, 0x30, 0x66, 0x45], by decide⟩ [0, 0] 2 := by
  apply (hexString_exact_iff (by decide)).mpr
  intro _ _
  left
  constructor
  · simp [HexDigit]
  · show 2 < 2 ^ 31
    omega

end McuRegWr
