import Mathlib.Data.Nat.Digits.Lemmas
import McuRegWr.Base.Strtol

/-!
# Numerals

The texts that `%d` and `%x` print. What is printed is read back by `strtol` and `strtoul`, which
tell the base from the text.
-/

namespace Base

namespace CStr

/-- The byte of a digit, of a base up to 16. -/
def digitByte (d : Nat) : UInt8 :=
  if d < 10 then UInt8.ofNat (0x30 + d) else UInt8.ofNat (0x57 + d)

/-- `%u` and `%x`. -/
def numeral (base n : Nat) : List UInt8 :=
  if n = 0 then [0x30] else (Nat.digits base n).reverse.map digitByte

/-- `%02x` and `%08x`. -/
def padded (base width n : Nat) : List UInt8 :=
  (Nat.digitsAppend base width n).reverse.map digitByte

variable {base n d : Nat} {ds : List Nat} {rest : List UInt8}

/-! ### Digits -/

theorem digit_digitByte (h : d < 16) : digit (digitByte d) = d := by
  have hall : ∀ d : Fin 16, digit (digitByte d) = d := by decide
  exact hall ⟨d, h⟩

theorem digitByte_plain (h : d < 16) : isspace (digitByte d) = false ∧ digitByte d ≠ 0x2d ∧
    digitByte d ≠ 0x2b ∧ digitByte d ≠ 0 ∧ (digitByte d = 0x30 → d = 0) := by
  have hall : ∀ d : Fin 16, isspace (digitByte d) = false ∧ digitByte d ≠ 0x2d ∧
      digitByte d ≠ 0x2b ∧ digitByte d ≠ 0 ∧ (digitByte d = 0x30 → d.val = 0) := by decide
  exact hall ⟨d, h⟩

theorem map_digit_digitByte (h : ∀ d ∈ ds, d < 16) : (ds.map digitByte).map digit = ds := by
  rw [List.map_map]
  exact (List.map_congr_left fun d hd => digit_digitByte (h d hd)).trans (List.map_id' ds)

theorem digits_map_digitByte (hbase : base ≤ 16) (h : ∀ d ∈ ds, d < base)
    (hrest : ∀ c, rest.head? = some c → base ≤ digit c) :
    digits base (ds.map digitByte ++ rest) = ds := by
  have hsmall : ∀ d ∈ ds, d < 16 := fun d hd => (h d hd).trans_le hbase
  have hend : (rest.map digit).takeWhile (· < base) = [] := by
    cases rest with
    | nil => rfl
    | cons c rest =>
        have hc := hrest c rfl
        exact List.takeWhile_cons_of_neg (by simpa using hc)
  rw [digits, List.map_append, map_digit_digitByte hsmall,
    List.takeWhile_append_of_pos fun d hd => decide_eq_true (h d hd), hend, List.append_nil]

theorem ofDigits_reverse (base : Nat) (ds : List Nat) :
    ofDigits base ds.reverse = Nat.ofDigits base ds := by
  rw [ofDigits, List.foldl_reverse, Nat.ofDigits_eq_foldr]
  congr 1
  funext d n
  exact Nat.add_comm _ _

/-! ### Numerals of a fixed width -/

theorem exists_of_mem_padded (hbase : 1 < base) {width : Nat} {c : UInt8}
    (h : c ∈ padded base width n) : ∃ d < base, c = digitByte d := by
  obtain ⟨d, hd, rfl⟩ := List.mem_map.mp h
  exact ⟨d, Nat.lt_of_mem_digitsAppend hbase width d (List.mem_reverse.mp hd), rfl⟩

theorem length_padded (hbase : 1 < base) {width : Nat} (h : n < base ^ width) :
    (padded base width n).length = width := by
  rw [padded, List.length_map, List.length_reverse, Nat.length_digitsAppend hbase _ h]

theorem ofDigits_padded (hbase : 1 < base) (hmax : base ≤ 16) {width : Nat} :
    ofDigits base ((padded base width n).map digit) = n := by
  have hsmall : ∀ d ∈ (Nat.digitsAppend base width n).reverse, d < 16 := fun d hd =>
    (Nat.lt_of_mem_digitsAppend hbase width d (List.mem_reverse.mp hd)).trans_le hmax
  rw [padded, map_digit_digitByte hsmall, ofDigits_reverse, Nat.digitsAppend,
    Nat.ofDigits_append_replicate_zero, Nat.ofDigits_digits]

theorem length_padded_two (b : UInt8) : (padded 16 2 b.toNat).length = 2 :=
  length_padded (by decide) b.toNat_lt

theorem exists_padded_two (b : UInt8) : ∃ c d, padded 16 2 b.toNat = [c, d] ∧ digit c < 16 ∧
    digit d < 16 ∧ 16 * digit c + digit d = b.toNat := by
  have hvalue : ofDigits 16 ((padded 16 2 b.toNat).map digit) = b.toNat :=
    ofDigits_padded (by decide) (by decide)
  have hdigit : ∀ c ∈ padded 16 2 b.toNat, digit c < 16 := by
    intro c hc
    obtain ⟨d, hd, rfl⟩ := exists_of_mem_padded (by decide) hc
    exact (digit_digitByte hd).symm ▸ hd
  obtain ⟨c, d, hcd⟩ := List.length_eq_two.mp (length_padded_two b)
  rw [hcd] at hvalue hdigit
  exact ⟨c, d, hcd, hdigit c List.mem_cons_self,
    hdigit d (List.mem_cons_of_mem _ List.mem_cons_self), by simpa [ofDigits] using hvalue⟩

/-- Bytes in hexadecimal. -/
def hexBytes (bytes : List UInt8) : CStr :=
  ⟨bytes.flatMap fun b => padded 16 2 b.toNat, by
    intro hmem
    obtain ⟨b, -, hb⟩ := List.mem_flatMap.mp hmem
    obtain ⟨d, hd, hzero⟩ := exists_of_mem_padded (by decide) hb
    exact (digitByte_plain hd).2.2.2.1 hzero.symm⟩

theorem length_hexBytes (bytes : List UInt8) : (hexBytes bytes).val.length = 2 * bytes.length := by
  rw [hexBytes, List.length_flatMap, List.map_congr_left fun b _ => length_padded_two b,
    List.map_const', List.sum_replicate_nat, Nat.mul_comm]

/-! ### Numerals of their own width -/

theorem exists_numeral (hbase : 1 < base) (hn : n ≠ 0) :
    ∃ d ds, numeral base n = (d :: ds).map digitByte ∧ d ≠ 0 ∧ (∀ d' ∈ d :: ds, d' < base) ∧
      ofDigits base (d :: ds) = n := by
  have hne : (Nat.digits base n).reverse ≠ [] := by
    rw [Ne, List.reverse_eq_nil_iff]
    exact Nat.digits_ne_nil_iff_ne_zero.mpr hn
  obtain ⟨d, ds, hds⟩ := List.exists_cons_of_ne_nil hne
  refine ⟨d, ds, by rw [numeral, if_neg hn, hds], ?_, ?_, ?_⟩
  · have hlast := Nat.getLast_digit_ne_zero base hn
    rw [← List.head_reverse (List.reverse_ne_nil_iff.mpr (Nat.digits_ne_nil_iff_ne_zero.mpr hn))]
      at hlast
    simpa only [hds, List.head_cons] using hlast
  · intro d' hd'
    rw [← hds, List.mem_reverse] at hd'
    exact Nat.digits_lt_base hbase hd'
  · rw [← hds, ofDigits_reverse, Nat.ofDigits_digits]

theorem exists_of_mem_numeral (hbase : 1 < base) {c : UInt8} (h : c ∈ numeral base n) :
    ∃ d < base, c = digitByte d := by
  rw [numeral] at h
  split at h
  · exact ⟨0, Nat.zero_lt_of_lt hbase, List.mem_singleton.mp h⟩
  · obtain ⟨d, hd, rfl⟩ := List.mem_map.mp h
    exact ⟨d, Nat.digits_lt_base hbase (List.mem_reverse.mp hd), rfl⟩

theorem zero_notMem_numeral (hbase : 1 < base) (hmax : base ≤ 16) (n : Nat) :
    0 ∉ numeral base n := by
  intro hmem
  obtain ⟨d, hd, hzero⟩ := exists_of_mem_numeral hbase hmem
  exact (digitByte_plain (hd.trans_le hmax)).2.2.2.1 hzero.symm

/-! ### Reading -/

/-- Digits and nothing behind them, as `strtol` and `strtoul` read them with base 0. -/
theorem based_map_digitByte {d : Nat} (hd : d ≠ 0) (h : ∀ d' ∈ d :: ds, d' < 10) :
    hexBody ((d :: ds).map digitByte) = none ∧
      based 0 ((d :: ds).map digitByte) = (10, d :: ds) := by
  have hsmall : d < 16 := (h d List.mem_cons_self).trans (by decide)
  have hzero : digitByte d ≠ 0x30 := fun heq => hd ((digitByte_plain hsmall).2.2.2.2 heq)
  have hbody : hexBody ((d :: ds).map digitByte) = none := by
    rw [List.map_cons, hexBody.eq_def]
    split
    · rename_i heq
      exact absurd (List.cons.inj heq).1 hzero
    · rfl
  have hdigits : digits 10 ((d :: ds).map digitByte) = d :: ds := by
    rw [← List.append_nil ((d :: ds).map digitByte)]
    exact digits_map_digitByte (by decide) h (by nofun)
  refine ⟨hbody, ?_⟩
  simp only [based, hbody, ne_eq, not_true_eq_false, if_false]
  rw [List.map_cons, List.head?_cons, if_neg fun heq => hzero (Option.some.inj heq),
    ← List.map_cons, hdigits]

/-- What stands before the digits of a number. -/
theorem signed_dropWhile {s : List UInt8} {c : UInt8} (hspace : isspace c = false)
    (hminus : c ≠ 0x2d) (hplus : c ≠ 0x2b) :
    signed ((c :: s).dropWhile isspace) = (false, c :: s) := by
  rw [List.dropWhile_cons_of_neg (by simp [hspace]), signed.eq_def]
  split
  · rename_i heq
    exact absurd (List.cons.inj heq).1 hminus
  · rename_i heq
    exact absurd (List.cons.inj heq).1 hplus
  · rfl

theorem signed_minus (s : List UInt8) :
    signed ((0x2d :: s).dropWhile isspace) = (true, s) := rfl

theorem number_numeral (n : Nat) :
    number (numeral 10 n) 0 = some (false, n) ∧ number (0x2d :: numeral 10 n) 0 = some (true, n) ∧
      basedRest 0 (numeral 10 n) = [] ∧ signed ((numeral 10 n).dropWhile isspace) =
        (false, numeral 10 n) := by
  by_cases hn : n = 0
  · subst hn
    decide
  · obtain ⟨d, ds, heq, hd, hlt, hvalue⟩ := exists_numeral (by decide : 1 < 10) hn
    have hsmall : d < 16 := (hlt d List.mem_cons_self).trans (by decide)
    obtain ⟨hspace, hminus, hplus, -⟩ := digitByte_plain hsmall
    obtain ⟨hbody, hbased⟩ := based_map_digitByte hd hlt
    have hsigned : signed (((d :: ds).map digitByte).dropWhile isspace) =
        (false, (d :: ds).map digitByte) := signed_dropWhile hspace hminus hplus
    rw [heq]
    refine ⟨?_, ?_, ?_, hsigned⟩
    · rw [number, hsigned]
      simp only [hbased, hvalue]
      rfl
    · rw [number, signed_minus]
      simp only [hbased, hvalue]
      rfl
    · rw [basedRest, hbody, hbased]
      exact List.drop_eq_nil_of_le (by rw [List.length_map])

/-- `%d` of an `int`, or of any integer. -/
def decimal (v : Int) : CStr :=
  if v < 0 then ⟨0x2d :: numeral 10 v.natAbs, by
    simpa using zero_notMem_numeral (by decide) (by decide) v.natAbs⟩
  else ⟨numeral 10 v.natAbs, zero_notMem_numeral (by decide) (by decide) v.natAbs⟩

/-- What is printed is read back, whole and without an error. -/
theorem strtol_decimal {v : Int} (hmin : LONG_MIN ≤ v) (hmax : v ≤ LONG_MAX) :
    strtol (decimal v).val 0 = (v, true) ∧ strtolRest (decimal v).val 0 = [] ∧
      strtolErange (decimal v).val 0 = false := by
  obtain ⟨hplain, hminus, hrest, hsigned⟩ := number_numeral v.natAbs
  rw [decimal]
  split
  · rename_i hneg
    have habs : -(v.natAbs : Int) = v := by omega
    refine ⟨?_, ?_, ?_⟩
    · simp only [strtol, hminus, if_true, habs, min_eq_right hmax, max_eq_right hmin]
    · simp only [strtolRest, hminus, signed_minus, hrest]
    · simpa only [strtolErange, hminus, if_true, habs, decide_eq_false_iff_not, not_lt] using hmin
  · rename_i hpos
    have habs : (v.natAbs : Int) = v := by omega
    refine ⟨?_, ?_, ?_⟩
    · simp only [strtol, hplain, Bool.false_eq_true, if_false, habs, min_eq_right hmax,
        max_eq_right hmin]
    · simp only [strtolRest, hplain, hsigned, hrest]
    · simpa only [strtolErange, hplain, Bool.false_eq_true, if_false, habs,
        decide_eq_false_iff_not, not_lt] using hmax

/-- `0x%x` -/
def hexadecimal (n : Nat) : CStr :=
  ⟨0x30 :: 0x78 :: numeral 16 n, by
    simpa using zero_notMem_numeral (by decide) (by decide) n⟩

theorem digits_numeral {base : Nat} (hbase : 1 < base) (hmax : base ≤ 16) (n : Nat) :
    digits base (numeral base n) ≠ [] ∧ ofDigits base (digits base (numeral base n)) = n := by
  by_cases hn : n = 0
  · subst hn
    have hzero : digits base (numeral base 0) = [0] := by
      rw [numeral, if_pos rfl, digits, List.map_singleton, List.takeWhile_cons_of_pos]
      · rfl
      · exact decide_eq_true (Nat.zero_lt_of_lt hbase)
    rw [hzero]
    exact ⟨List.cons_ne_nil _ _, by simp [ofDigits]⟩
  · obtain ⟨d, ds, heq, -, hlt, hvalue⟩ := exists_numeral hbase hn
    have hdigits : digits base ((d :: ds).map digitByte) = d :: ds := by
      rw [← List.append_nil ((d :: ds).map digitByte)]
      exact digits_map_digitByte hmax hlt (by nofun)
    rw [heq, hdigits]
    exact ⟨List.cons_ne_nil _ _, hvalue⟩

theorem strtoul_hexadecimal {n : Nat} (h : n ≤ ULONG_MAX.toNat) :
    strtoul (hexadecimal n).val 0 = (UInt64.ofNat n, true) := by
  obtain ⟨hne, hvalue⟩ := digits_numeral (by decide : 1 < 16) (by decide) n
  have hbased : based 0 (hexadecimal n).val = (16, digits 16 (numeral 16 n)) := by
    have hbody : hexBody (hexadecimal n).val = some (numeral 16 n) :=
      if_pos ⟨.inl rfl, hne⟩
    simp only [based, hbody, true_or, if_true]
  have hsigned : signed ((hexadecimal n).val.dropWhile isspace) = (false, (hexadecimal n).val) :=
    signed_dropWhile (by decide) (by decide) (by decide)
  have hnumber : number (hexadecimal n).val 0 = some (false, n) := by
    simp only [number, hsigned, hbased, if_neg hne, hvalue]
  simp only [strtoul, hnumber, if_neg (Nat.not_lt.mpr h), Bool.false_eq_true, if_false]

end CStr

end Base
