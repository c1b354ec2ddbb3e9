import McuRegWr.General.HexDump

/-!
# Reading a dump

A dump is read line by line: the bytes of a line stand at the address that the line begins with.
-/

namespace McuRegWr

open Base CStr

namespace HexDump

/-- The bytes in the cells of a line, up to the first that is none. -/
def readCells : List UInt8 → List UInt8
  | a :: b :: _ :: cells =>
      if digit a < 16 ∧ digit b < 16 then
        UInt8.ofNat (ofDigits 16 [digit a, digit b]) :: readCells cells
      else []
  | _ => []

/-- The bytes of a line with their addresses. The lines of the frame have none. -/
def readLine (line : List UInt8) : List (UInt8 × Nat) :=
  if line.head? = some 0x7c then
    (readCells (line.drop 13)).zipIdx (ofDigits 16 (((line.drop 3).take 8).map digit))
  else []

def read (text : List UInt8) : List (UInt8 × Nat) := (text.splitOn 0x0a).flatMap readLine

variable {start : List UInt8} {len y n width : Nat}

/-! ### Cells -/

theorem length_address (hy : y * 16 < 2 ^ 32) : (padded 16 8 (y * 16)).length = 8 :=
  length_padded (by decide) hy

theorem length_phexByte (b : UInt8) : (phexByte b).length = 3 := by
  rw [phexByte, List.length_append, length_padded_two]
  rfl

theorem length_phexLabel (hy : y * 16 < 2 ^ 32) : (phexLabel y).length = 13 := by
  rw [phexLabel, List.length_append, List.length_append, length_address hy]
  rfl

theorem readCells_phexByte (b : UInt8) (cells : List UInt8) :
    readCells (phexByte b ++ cells) = b :: readCells cells := by
  obtain ⟨c, d, hcd, hc, hd, hvalue⟩ := exists_padded_two b
  rw [phexByte, hcd]
  show (if digit c < 16 ∧ digit d < 16 then _ else _) = _
  rw [if_pos ⟨hc, hd⟩, show ofDigits 16 [digit c, digit d] = b.toNat by simpa [ofDigits],
    UInt8.ofNat_toNat]
  rfl

theorem readCells_flatMap (bytes stop : List UInt8) :
    readCells (bytes.flatMap phexByte ++ stop) = bytes ++ readCells stop := by
  induction bytes with
  | nil => rfl
  | cons b bytes ih =>
      rw [List.flatMap_cons, List.append_assoc, readCells_phexByte, ih, List.cons_append]

/-! ### Lines -/

/-- The cells of a line. -/
def cells (start : List UInt8) (y x_n : Nat) : List UInt8 :=
  (List.range 16).flatMap fun x =>
    if x < x_n then phexByte (start.getD (y * 16 + x) 0) else (ofAscii "   ").val

/-- A line without its end. -/
def line (start : List UInt8) (y x_n : Nat) : List UInt8 :=
  phexLabel y ++ (cells start y x_n ++ [0x7c, 0x0d])

theorem flatten_phexRow (start : List UInt8) (y x_n : Nat) :
    (phexRow start y x_n).flatten = line start y x_n ++ [0x0a] := by
  rw [phexRow, List.flatten_append, List.flatten_cons, ← List.flatMap_def, List.flatten_singleton,
    line, cells]
  simp only [List.append_assoc]
  rfl

/-- No piece of a line is too long for the print buffer, and none is empty. -/
theorem length_of_mem_phexRow {piece : List UInt8} {x_n : Nat} (hy : y * 16 < 2 ^ 32)
    (h : piece ∈ phexRow start y x_n) : 0 < piece.length ∧ piece.length < DEBUG_BUF_SIZE := by
  rcases List.mem_append.mp h with h | h
  · rcases List.mem_cons.mp h with rfl | h
    · rw [length_phexLabel hy]
      decide
    · obtain ⟨x, -, rfl⟩ := List.mem_map.mp h
      split
      · rw [length_phexByte]
        decide
      · decide
  · rw [List.mem_singleton.mp h]
    decide

theorem cells_eq {x_n : Nat} (h : x_n ≤ 16) :
    cells start y x_n =
      ((List.range x_n).map fun x => start.getD (y * 16 + x) 0).flatMap phexByte ++
        (List.replicate (16 - x_n) (ofAscii "   ").val).flatten := by
  have hsplit : List.range 16 = List.range x_n ++ (List.range (16 - x_n)).map (x_n + ·) := by
    rw [← List.range_add, Nat.add_sub_cancel' h]
  rw [cells, hsplit, List.flatMap_append, List.flatMap_map, List.flatMap_map]
  congr 1
  · refine List.flatMap_congr fun x hx => ?_
    rw [if_pos (List.mem_range.mp hx)]
  · rw [List.flatMap_def]
    congr 1
    refine List.eq_replicate_iff.mpr ⟨by simp, fun l hl => ?_⟩
    obtain ⟨x, -, rfl⟩ := List.mem_map.mp hl
    exact if_neg (by omega)

theorem length_line (hy : y * 16 < 2 ^ 32) {x_n : Nat} (start : List UInt8) :
    (line start y x_n).length = 63 := by
  have hcells : (cells start y x_n).length = 48 := by
    rw [cells, List.length_flatMap]
    have hall : ∀ x ∈ List.range 16, (if x < x_n then phexByte (start.getD (y * 16 + x) 0)
        else (ofAscii "   ").val).length = 3 := by
      intro x _
      split
      · exact length_phexByte _
      · rfl
    rw [List.map_congr_left hall]
    rfl
  rw [line, List.length_append, List.length_append, length_phexLabel hy, hcells]
  rfl

theorem newline_notMem_line (start : List UInt8) (y x_n : Nat) : 0x0a ∉ line start y x_n := by
  have hnumeral : ∀ width n, 0x0a ∉ padded 16 width n := by
    intro width n hmem
    obtain ⟨d, hd, heq⟩ := exists_of_mem_padded (by decide) hmem
    have hspace := (digitByte_plain hd).1
    rw [← heq] at hspace
    exact absurd hspace (by decide)
  have hcells : 0x0a ∉ cells start y x_n := by
    intro hmem
    obtain ⟨x, -, hx⟩ := List.mem_flatMap.mp hmem
    split at hx
    · rcases List.mem_append.mp hx with hbyte | hspace
      · exact hnumeral _ _ hbyte
      · exact absurd hspace (by decide)
    · exact absurd hx (by decide)
  simp only [line, phexLabel, List.mem_append, not_or]
  exact ⟨⟨⟨by decide, hnumeral _ _⟩, by decide⟩, hcells, by decide⟩

/-- A line gives back its bytes. -/
theorem readLine_line (hy : y * 16 < 2 ^ 32) {x_n : Nat} (hx : x_n ≤ 16) :
    readLine (line start y x_n) =
      ((List.range x_n).map fun x => start.getD (y * 16 + x) 0).zipIdx (y * 16) := by
  have hlen := length_address hy
  have hhead : (line start y x_n).head? = some 0x7c := rfl
  have haddr : ((line start y x_n).drop 3).take 8 = padded 16 8 (y * 16) := by
    rw [line, phexLabel, List.append_assoc, List.append_assoc,
      show (ofAscii "|0x").val = [0x7c, 0x30, 0x78] from rfl]
    show (padded 16 8 (y * 16) ++ _).take 8 = _
    exact List.take_left' hlen
  have hcells : (line start y x_n).drop 13 = cells start y x_n ++ [0x7c, 0x0d] := by
    refine List.drop_left' ?_
    rw [phexLabel, List.length_append, List.length_append, hlen]
    rfl
  have hstop : readCells ((List.replicate (16 - x_n) (ofAscii "   ").val).flatten ++
      [0x7c, 0x0d]) = [] := by
    cases 16 - x_n with
    | zero => rfl
    | succ m =>
        rw [List.replicate_succ, List.flatten_cons, List.append_assoc]
        exact if_neg (by decide)
  have hvalue : ofDigits 16 ((padded 16 8 (y * 16)).map digit) = y * 16 :=
    ofDigits_padded (by decide) (by decide)
  rw [readLine, if_pos hhead, haddr, hvalue, hcells, cells_eq hx, List.append_assoc,
    readCells_flatMap, hstop, List.append_nil]

/-! ### The dump -/

/-- The lines of a dump without their ends. -/
def lines (start : List UInt8) (len : Nat) : List (List UInt8) :=
  let rule := phexRule.dropLast
  [(ofAscii "______________________________________________________________\r").val,
    (ofAscii "            | 0| 1| 2| 3| 4| 5| 6| 7| 8| 9| A| B| C| D| E| F||\r").val, rule] ++
    (List.range (len / 16)).map (fun y => line start y 16) ++
    (if len % 16 ≠ 0 then [line start (len / 16) (len % 16)] else []) ++ [rule]

theorem flatten_debugPhex (start : List UInt8) (len : Nat) :
    (debugPhex start len).flatten = (lines start len).flatMap (· ++ [0x0a]) := by
  have hfull : ((List.range (len / 16)).flatMap fun y => phexRow start y 16).flatten =
      ((List.range (len / 16)).map fun y => line start y 16).flatMap (· ++ [0x0a]) := by
    rw [List.flatMap_def, List.flatten_flatten, List.map_map, List.flatMap_map, List.flatMap_def]
    exact congrArg List.flatten (List.map_congr_left fun y _ => flatten_phexRow start y 16)
  have hlast : (if len % 16 ≠ 0 then phexRow start (len / 16) (len % 16) else []).flatten =
      (if len % 16 ≠ 0 then [line start (len / 16) (len % 16)] else []).flatMap
        (· ++ [0x0a]) := by
    split
    · rw [flatten_phexRow, List.flatMap_singleton]
    · rfl
  rw [debugPhex, lines, List.flatten_append, List.flatten_append, List.flatten_append,
    List.flatMap_append, List.flatMap_append, List.flatMap_append, hfull, hlast]
  congr 1

theorem mem_lines {l : List UInt8} (hlen : len < 2 ^ 32) (h : l ∈ lines start len) :
    l.length = 63 ∧ 0x0a ∉ l := by
  have hline : ∀ y x_n, y ≤ len / 16 → (line start y x_n).length = 63 ∧
      0x0a ∉ line start y x_n := fun y x_n hy =>
    ⟨length_line (by omega) start, newline_notMem_line start y x_n⟩
  simp only [lines, List.mem_append, List.mem_cons, List.mem_map, List.mem_range, List.not_mem_nil,
    or_false] at h
  rcases h with ((((rfl | rfl | rfl) | ⟨y, hy, rfl⟩) | h) | rfl)
  · decide
  · decide
  · decide
  · exact hline y 16 hy.le
  · split at h
    · rw [List.mem_singleton.mp h]
      exact hline _ _ (le_refl _)
    · cases h
  · decide

theorem splitOn_lines {ls : List (List UInt8)} (h : ∀ l ∈ ls, (0x0a : UInt8) ∉ l) :
    (ls.flatMap (· ++ [0x0a])).splitOn 0x0a = ls ++ [[]] := by
  induction ls with
  | nil => rfl
  | cons l ls ih =>
      rw [List.flatMap_cons, List.append_assoc, List.singleton_append,
        List.splitOn_append_cons_self_of_not_mem (h l List.mem_cons_self),
        ih fun l' hl' => h l' (List.mem_cons_of_mem _ hl'), List.cons_append]

theorem map_getD_range (hfit : y * 16 + n ≤ start.length) :
    ((List.range n).map fun x => start.getD (y * 16 + x) 0) = (start.drop (y * 16)).take n := by
  apply List.ext_getElem
  · rw [List.length_map, List.length_range, List.length_take, List.length_drop]
    omega
  · intro i hi hi'
    rw [List.length_map, List.length_range] at hi
    rw [List.getElem_map, List.getElem_range, List.getElem_take, List.getElem_drop,
      List.getD_eq_getElem?_getD, List.getElem?_eq_getElem (by omega), Option.getD_some]

theorem readLine_full (hlen : n * 16 < 2 ^ 32) (hfit : n * 16 ≤ start.length) :
    (List.range n).flatMap (fun y => readLine (line start y 16)) =
      (start.take (n * 16)).zipIdx := by
  induction n with
  | zero => simp
  | succ n ih =>
      have hlast :
          readLine (line start n 16) = ((start.drop (n * 16)).take 16).zipIdx (n * 16) := by
        rw [readLine_line (by omega) (le_refl _), map_getD_range (by omega)]
      rw [List.range_succ, List.flatMap_append, ih (by omega) (by omega), List.flatMap_singleton,
        hlast, Nat.succ_mul, List.take_add, List.zipIdx_append, List.length_take,
        Nat.min_eq_left (by omega), Nat.zero_add]

theorem read_lines (hlen : len < 2 ^ 32) (hfit : len ≤ start.length) :
    (lines start len).flatMap readLine = (start.take len).zipIdx := by
  have hdiv : len / 16 * 16 + len % 16 = len := by omega
  have hlast : (if len % 16 ≠ 0 then [line start (len / 16) (len % 16)] else []).flatMap readLine =
      ((start.drop (len / 16 * 16)).take (len % 16)).zipIdx (len / 16 * 16) := by
    split
    · rw [List.flatMap_singleton, readLine_line (by omega) (by omega), map_getD_range (by omega)]
    · rename_i hzero
      rw [not_not.mp hzero]
      rfl
  have hrule : readLine phexRule.dropLast = [] := by decide
  have hheading : [(ofAscii "______________________________________________________________\r").val,
      (ofAscii "            | 0| 1| 2| 3| 4| 5| 6| 7| 8| 9| A| B| C| D| E| F||\r").val,
      phexRule.dropLast].flatMap readLine = [] := by decide
  rw [lines, List.flatMap_append, List.flatMap_append, List.flatMap_append, hheading, hlast,
    List.flatMap_map, readLine_full (by omega) (by omega), List.flatMap_singleton, hrule,
    List.nil_append, List.append_nil]
  conv_rhs => rw [← hdiv, List.take_add, List.zipIdx_append]
  rw [List.length_take, Nat.min_eq_left (by omega), Nat.zero_add]

theorem read_debugPhex (hlen : len < 2 ^ 32) (hfit : len ≤ start.length) :
    read (debugPhex start len).flatten = (start.take len).zipIdx := by
  rw [flatten_debugPhex, read, splitOn_lines fun l hl => (mem_lines hlen hl).2,
    List.flatMap_append, read_lines hlen hfit]
  exact List.append_nil _

end HexDump

/-- What `debug_phex` prints of the first `len` bytes of a buffer is a table whose lines have all
the same width, printed in pieces that its print buffer does not cut, and the table gives back every
byte at its address, and no other. -/
theorem phex_readable {start : List UInt8} {len : Nat} (hlen : len < 2 ^ 31)
    (hfit : len ≤ start.length) :
    HexDump.read (debugPhex start len).flatten = (start.take len).zipIdx ∧
      (∃ ls : List (List UInt8), (debugPhex start len).flatten = ls.flatMap (· ++ [0x0a]) ∧
        ∀ l ∈ ls, l.length = 63 ∧ 0x0a ∉ l) ∧
      ∀ piece ∈ debugPhex start len, 0 < piece.length ∧ piece.length < DEBUG_BUF_SIZE := by
  have hwide : len < 2 ^ 32 := hlen.trans (by decide)
  refine ⟨HexDump.read_debugPhex hwide hfit, ⟨HexDump.lines start len,
    HexDump.flatten_debugPhex start len, fun _ => HexDump.mem_lines hwide⟩, ?_⟩
  · intro piece hpiece
    simp only [debugPhex, List.mem_append, List.mem_cons, List.mem_flatMap, List.mem_range,
      List.not_mem_nil, or_false] at hpiece
    rcases hpiece with ((((rfl | rfl | rfl) | ⟨y, hy, hrow⟩) | hrow) | rfl)
    · decide
    · decide
    · decide
    · exact HexDump.length_of_mem_phexRow (by omega) hrow
    · split at hrow
      · exact HexDump.length_of_mem_phexRow (by omega) hrow
      · cases hrow
    · decide

/-- The bytes of a buffer from its 16th on are in the second line. -/
theorem phex_readable_two : HexDump.read (debugPhex ((List.range 18).map UInt8.ofNat) 18).flatten =
    ((List.range 18).map UInt8.ofNat).zipIdx :=
  (phex_readable (by decide) (by decide)).1

end McuRegWr
