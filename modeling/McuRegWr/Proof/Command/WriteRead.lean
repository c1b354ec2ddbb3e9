import McuRegWr.CommandLine
import McuRegWr.Proof.Business.RegFile
import McuRegWr.Proof.Command.Hex
import McuRegWr.Proof.Command.Options
import McuRegWr.Proof.Log.HexDump

/-!
# What is written is what is shown

Two command lines on the same registers: `-w` with bytes in hexadecimal, and `-r` with their number.
From the options to the dump, the second shows what the first was given.
-/

namespace McuRegWr

open Base Prog CStr

/-! ### Command lines of the tool -/

theorem wellFormed_toolOptions : WellFormed toolOptions :=
  ⟨by decide, by decide, by decide, by decide⟩

theorem mainConfig_items {items : List (ArgparseItem RunField)}
    (hitems : ∀ item ∈ items, item.Valid toolOptions) (prog : CStr) {parsed : MainConfig}
    (hparsed : otherArgparseParse
      (ToolConfig.ofValues (items.foldl ArgparseItem.apply startValues)).toMainConfig
      (items.flatMap (·.words)) = .ok parsed) :
    mainConfig (prog :: items.flatMap (·.render)) = .ok { parsed with
      is_can_print_asc :=
        (ToolConfig.ofValues (items.foldl ArgparseItem.apply startValues)).is_can_print_asc } := by
  have hstop : ArgparseFlags.ARGPARSE_STOP_AT_NON_OPTION ⟨false, false⟩ = false := rfl
  have hview := Argparse.view_start startValues prog (items.flatMap (·.render))
  rw [← List.append_nil (items.flatMap (·.render))] at hview
  obtain ⟨q, hdrive, hlast, hvalues⟩ :=
    Argparse.drive_items wellFormed_toolOptions hstop hitems hview rfl
  rw [List.append_nil] at hdrive
  obtain ⟨hparse, hvec⟩ := Argparse.parse_of_drive (hdrive.trans (Argparse.drive_nil hlast)) hlast
  rw [List.nil_append, List.append_nil] at hparse hvec
  have hwords : ((q.finish.take (items.flatMap (·.words)).length).filterMap id) =
      items.flatMap (·.words) := by
    have htake := congrArg (List.take (items.flatMap (·.words)).length) hvec
    rw [List.take_take, Nat.min_eq_left (Nat.le_succ _), List.take_left' (List.length_map _)]
      at htake
    rw [htake, List.filterMap_map]
    exact List.filterMap_some
  have hvalues : q.values = items.foldl ArgparseItem.apply startValues := hvalues
  rw [mainConfig, hparse]
  dsimp only
  rw [hwords, hvalues, hparsed]

/-! ### Texts -/

theorem hexLoop_hexBytes (bytes byteArray : List UInt8) (i : Nat)
    (hroom : i + bytes.length ≤ byteArray.length) :
    hexLoop byteArray i (hexBytes bytes).val = (true, storeAt byteArray i bytes) := by
  induction bytes generalizing byteArray i with
  | nil =>
      show (true, byteArray) = _
      rw [storeAt, List.append_nil, List.length_nil, Nat.add_zero, List.take_append_drop]
  | cons b bytes ih =>
      obtain ⟨c, d, hcd, hc, hd, hvalue⟩ := exists_padded_two b
      have htext : (hexBytes (b :: bytes)).val = c :: d :: (hexBytes bytes).val := by
        show padded 16 2 b.toNat ++ _ = _
        rw [hcd]
        rfl
      have hbyte : UInt8.ofInt ((16 * digit c + digit d : Nat) : Int) = b := by
        rw [ofInt_natCast, hvalue, UInt8.ofNat_toNat]
      rw [List.length_cons] at hroom
      rw [htext, hexLoop_cons, strtol_hex ((hexDigit_iff c).mpr hc) ((hexDigit_iff d).mpr hd),
        if_pos rfl, hbyte, ih _ _ (by rw [List.length_set]; omega)]
      refine congrArg (Prod.mk true) ?_
      rw [storeAt, storeAt, List.take_add_one, List.take_set_of_le (le_refl i),
        List.getElem?_set_self (by omega), List.drop_set_of_lt (by omega), List.length_cons,
        Nat.add_right_comm, Nat.add_assoc, List.append_assoc, List.append_assoc, List.append_assoc]
      rfl

theorem hexStringToByteArray_hexBytes {bytes byteArray : List UInt8} {size : Nat}
    (hsize : bytes.length ≤ size) (hroom : size ≤ byteArray.length) (hint : size < 2 ^ 31) :
    hexStringToByteArray (hexBytes bytes) byteArray size =
      ((bytes.length : Int), storeAt byteArray 0 bytes) := by
  have hlen : (hexBytes bytes).val.length = 2 * bytes.length := length_hexBytes bytes
  rw [hexStringToByteArray, hlen, if_neg (by omega),
    hexLoop_hexBytes bytes byteArray 0 (by omega), Nat.mul_div_cancel_left _ Nat.two_pos]
  exact congrArg (·, _) (intOfSize_eq (by omega))

theorem strtoul_address (reg_addr : UInt16) :
    strtoul (hexadecimal reg_addr.toNat).val 0 = (UInt64.ofNat reg_addr.toNat, true) :=
  strtoul_hexadecimal (reg_addr.toNat_lt.le.trans (by decide))

theorem toUInt16_address (reg_addr : UInt16) :
    (UInt64.ofNat reg_addr.toNat).toUInt32.toUInt16 = reg_addr := by
  have hlt := reg_addr.toNat_lt
  apply UInt16.toNat_inj.mp
  simp only [UInt32.toNat_toUInt16, UInt64.toNat_toUInt32, UInt64.toNat_ofNat']
  omega

theorem head_address (n : Nat) : (hexadecimal n).val.head? ≠ some 0x2d := fun h =>
  absurd (Option.some.inj (show some (0x30 : UInt8) = some 0x2d from h)) (by decide)

theorem head_hexBytes (bytes : List UInt8) : (hexBytes bytes).val.head? ≠ some 0x2d := by
  intro h
  obtain ⟨b, -, hb⟩ := List.mem_flatMap.mp (List.mem_of_mem_head? h)
  obtain ⟨d, hd, heq⟩ := exists_of_mem_padded (by decide) hb
  exact (digitByte_plain hd).2.1 heq.symm

theorem head_decimal (n : Nat) : (decimal n).val.head? ≠ some 0x2d := by
  intro h
  rw [decimal, if_neg (by omega)] at h
  obtain ⟨d, hd, heq⟩ := exists_of_mem_numeral (by decide) (List.mem_of_mem_head? h)
  exact (digitByte_plain (hd.trans (by decide))).2.1 heq.symm

/-! ### The two lines -/

/-- `-w ADDR DATA` -/
def writeLine (prog : CStr) (reg_addr : UInt16) (bytes : List UInt8) : List CStr :=
  [prog, ofAscii "-w", hexadecimal reg_addr.toNat, hexBytes bytes]

/-- `-r ADDR COUNT` -/
def readLine (prog : CStr) (reg_addr : UInt16) (n : Nat) : List CStr :=
  [prog, ofAscii "-r", hexadecimal reg_addr.toNat, decimal n]

theorem mainConfig_option {short_name : Char} {long_name : String} {f : RunField}
    (hopt : OPT_BOOLEAN short_name long_name f ∈ toolOptions)
    (hzero : UInt8.ofNat short_name.toNat ≠ 0) {addr data : CStr}
    (haddr : addr.val.head? ≠ some 0x2d) (hdata : data.val.head? ≠ some 0x2d) (prog : CStr)
    {parsed : MainConfig} (hparsed : otherArgparseParse
      (ToolConfig.ofValues (startValues.setInt f (max 0 (startValues.int f + 1)))).toMainConfig
      [addr, data] = .ok parsed) :
    mainConfig [prog, ofBytes [0x2d, UInt8.ofNat short_name.toNat], addr, data] =
      .ok { parsed with is_can_print_asc := (ToolConfig.ofValues
        (startValues.setInt f (max 0 (startValues.int f + 1)))).is_can_print_asc } := by
  have hitems : ∀ item ∈ [ArgparseItem.group [OPT_BOOLEAN short_name long_name f] none, .word addr,
      .word data], item.Valid toolOptions := by
    simp only [List.forall_mem_cons, List.not_mem_nil, false_implies, implies_true, and_true]
    refine ⟨⟨?_, List.cons_ne_nil _ _⟩, .inl haddr, .inl hdata⟩
    intro opt hmem
    rw [List.mem_singleton.mp hmem]
    exact ⟨hopt, hzero, rfl, .inl rfl⟩
  exact mainConfig_items hitems prog hparsed

variable {prog : CStr} {reg_addr : UInt16} {bytes : List UInt8}

theorem parseBytes_hexBytes (config : MainConfig) (hlen : bytes.length ≤ WR_BUF_MAX) :
    config.parseBytes (hexBytes bytes) =
      .ok ((config.storeHex (hexBytes bytes) WR_BUF_MAX).setRegCnt
        (UInt16.ofInt bytes.length)) := by
  have hret : (hexStringToByteArray (hexBytes bytes) config.wr_buf.val WR_BUF_MAX).1 =
      bytes.length :=
    congrArg Prod.fst (hexStringToByteArray_hexBytes hlen config.wr_buf.property.ge (by decide))
  simp only [MainConfig.parseBytes, hret]
  exact if_neg (by omega)

theorem parseAccess_write {config : MainConfig} (hwrite : config.is_write = true)
    (hcnt : config.test_cnt = 0) (hread : config.is_read = false)
    (hlen : bytes.length ≤ WR_BUF_MAX) :
    config.parseAccess [hexadecimal reg_addr.toNat, hexBytes bytes] =
      .ok (((config.setRegAddr (UInt64.ofNat reg_addr.toNat).toUInt32).storeHex (hexBytes bytes)
        WR_BUF_MAX).setRegCnt (UInt16.ofInt bytes.length)) := by
  rw [MainConfig.parseAccess, if_pos (.inl hwrite)]
  dsimp only
  rw [strtoul_address, if_neg (by simp), if_neg (by simp [hcnt, hread])]
  exact parseBytes_hexBytes _ hlen

theorem mainConfig_writeLine (hlen : bytes.length ≤ WR_BUF_MAX) :
    ∃ config, mainConfig (writeLine prog reg_addr bytes) = .ok config ∧ config.mode = .FUN_RW ∧
      config.test_cnt = 0 ∧ config.is_write = true ∧ config.reg_addr.toUInt16 = reg_addr ∧
      config.wr_buf.val.take config.reg_cnt.toNat = bytes := by
  let values := startValues.setInt .is_write (max 0 (startValues.int .is_write + 1))
  let config := (ToolConfig.ofValues values).toMainConfig
  have haccess : config.parseAccess [hexadecimal reg_addr.toNat, hexBytes bytes] = _ :=
    parseAccess_write rfl rfl rfl hlen
  have hparsed : otherArgparseParse config [hexadecimal reg_addr.toNat, hexBytes bytes] =
      .ok ((((config.setRegAddr (UInt64.ofNat reg_addr.toNat).toUInt32).storeHex (hexBytes bytes)
        WR_BUF_MAX).setRegCnt (UInt16.ofInt bytes.length)).setMode .FUN_RW) := by
    rw [otherArgparseParse, if_neg fun h => Bool.false_ne_true h.2, haccess]
    rfl
  have hopt : OPT_BOOLEAN 'w' "write" .is_write ∈ toolOptions := by decide
  refine ⟨_, mainConfig_option hopt (by decide) (head_address _) (head_hexBytes _) prog hparsed,
    rfl, rfl, rfl, toUInt16_address reg_addr, ?_⟩
  have hcnt : (UInt16.ofInt bytes.length).toNat = bytes.length :=
    toNat_ofInt (hlen.trans_lt (by decide))
  have hstored := hexStringToByteArray_hexBytes hlen config.wr_buf.property.ge (by decide)
  show (hexStringToByteArray (hexBytes bytes) config.wr_buf.val WR_BUF_MAX).2.take
    (UInt16.ofInt bytes.length).toNat = bytes
  rw [hstored, hcnt, storeAt, List.take_zero, List.nil_append, List.take_left]

theorem parseCount_decimal (config : MainConfig) {n : Nat} (hpos : 0 < n)
    (hlen : n ≤ WR_BUF_MAX - 2) :
    config.parseCount (decimal n) = .ok (config.setRegCnt (UInt16.ofInt n)) := by
  have hsmall : (n : Int) < 2 ^ 16 := by
    have hmax : WR_BUF_MAX - 2 < 2 ^ 16 := by decide
    omega
  have htext := (strtol_decimal (v := n) (by rw [LONG_MIN]; omega) (by rw [LONG_MAX]; omega)).1
  have hcnt : (UInt16.ofInt n).toNat = n := toNat_ofInt (by omega)
  have hne : UInt16.ofInt n ≠ 0 := by
    intro hzero
    rw [hzero] at hcnt
    exact absurd hcnt.symm (Nat.ne_of_gt hpos)
  rw [MainConfig.parseCount, htext]
  dsimp only
  rw [if_neg]
  rw [hcnt]
  rintro (hmoved | hmany | hzero)
  · cases hmoved
  · exact Nat.not_lt.mpr hlen hmany
  · exact hne hzero

theorem mainConfig_readLine {n : Nat} (hpos : 0 < n) (hlen : n ≤ WR_BUF_MAX - 2) :
    ∃ config, mainConfig (readLine prog reg_addr n) = .ok config ∧ config.mode = .FUN_RW ∧
      config.test_cnt = 0 ∧ config.is_write = false ∧ config.reg_addr.toUInt16 = reg_addr ∧
      config.reg_cnt.toNat = n := by
  let values := startValues.setInt .is_read (max 0 (startValues.int .is_read + 1))
  let config := (ToolConfig.ofValues values).toMainConfig
  have haccess : config.parseAccess [hexadecimal reg_addr.toNat, decimal n] =
      .ok ((config.setRegAddr (UInt64.ofNat reg_addr.toNat).toUInt32).setRegCnt
        (UInt16.ofInt n)) := by
    rw [MainConfig.parseAccess, if_pos (.inr (.inl rfl))]
    dsimp only
    rw [strtoul_address, if_neg (by simp), if_pos (.inr rfl)]
    exact parseCount_decimal _ hpos hlen
  have hparsed : otherArgparseParse config [hexadecimal reg_addr.toNat, decimal n] =
      .ok (((config.setRegAddr (UInt64.ofNat reg_addr.toNat).toUInt32).setRegCnt
        (UInt16.ofInt n)).setMode .FUN_RW) := by
    rw [otherArgparseParse, if_neg fun h => Bool.false_ne_true h.1, haccess]
    rfl
  have hopt : OPT_BOOLEAN 'r' "read" .is_read ∈ toolOptions := by decide
  exact ⟨_, mainConfig_option hopt (by decide) (head_address _) (head_decimal _) prog hparsed,
    rfl, rfl, rfl, toUInt16_address reg_addr,
    toNat_ofInt (hlen.trans_lt (by decide))⟩

/-! ### On the registers -/

open RegFile

theorem exec_write {config : ToolConfig} (env : RunEnv) (hmode : config.mode = .FUN_RW)
    (hcnt : config.test_cnt = 0) (hwrite : config.is_write = true) {m m' : RegFile} {ret : Int} :
    Exec world (run env config) m ret m' ↔ ret = 0 ∧
      m' = m.store config.reg_addr.toUInt16 (config.wr_buf.val.take config.reg_cnt.toNat) := by
  rw [run, hmode]
  dsimp only
  rw [funWr, if_neg (not_not.mpr hcnt), if_pos hwrite, exec_bind]
  constructor
  · rintro ⟨a, t, haccess, hrest⟩
    obtain ⟨rfl, rfl⟩ := exec_writeReg.mp haccess
    exact exec_done.mp hrest
  · rintro ⟨rfl, rfl⟩
    exact ⟨0, _, exec_writeReg.mpr ⟨rfl, rfl⟩, .refl _ _⟩

theorem exec_funRead {config : MainConfig} {m m' : RegFile} {ret : Int}
    {dump : List (List UInt8)} :
    Exec world (funRead config) m (ret, dump) m' ↔ ret = 0 ∧ m' = m ∧
      dump = debugPhex (storeAt config.wr_buf.val 0
        (m.load config.reg_addr.toUInt16 config.reg_cnt.toNat)) config.reg_cnt.toNat := by
  rw [funRead, exec_bind]
  constructor
  · rintro ⟨⟨a, wr_buf⟩, t, haccess, hrest⟩
    obtain ⟨rfl, rfl, rfl⟩ := exec_readReg.mp haccess
    obtain ⟨heq, rfl⟩ := exec_done.mp hrest
    cases heq
    exact ⟨rfl, rfl, rfl⟩
  · rintro ⟨rfl, rfl, rfl⟩
    exact ⟨_, _, exec_readReg.mpr ⟨rfl, rfl, rfl⟩, .refl _ _⟩

/-- The dump of a read gives back the registers. -/
theorem read_dump (config : MainConfig) (m : RegFile) :
    HexDump.read (debugPhex (storeAt config.wr_buf.val 0
      (m.load config.reg_addr.toUInt16 config.reg_cnt.toNat)) config.reg_cnt.toNat).flatten =
        (m.load config.reg_addr.toUInt16 config.reg_cnt.toNat).zipIdx := by
  have hlen := length_load m config.reg_addr.toUInt16 config.reg_cnt.toNat
  have hlt := config.reg_cnt.toNat_lt
  rw [HexDump.read_debugPhex (by omega), storeAt, List.take_zero, List.nil_append,
    List.take_left' hlen]
  rw [storeAt, List.length_append, List.length_append, hlen]
  omega

/-- On any registers, `-w` with an address and up to 1022 bytes in hexadecimal stores exactly these
bytes at the address, and `-r` with the address and their number then changes nothing and prints a
dump that gives back the bytes, in order. -/
theorem write_then_read (env : RunEnv) (prog : CStr) (reg_addr : UInt16) {bytes : List UInt8}
    (hne : bytes ≠ []) (hlen : bytes.length ≤ WR_BUF_MAX - 2) (m : RegFile) :
    (∀ ret m', Exec world (mainRun env (writeLine prog reg_addr bytes)) m ret m' ↔
      ret = 0 ∧ m' = m.store reg_addr bytes) ∧
    ∃ config dump, mainConfig (readLine prog reg_addr bytes.length) = .ok config ∧
      mainRun env (readLine prog reg_addr bytes.length) = (do
        let (ret, _) ← funRead config.toMainConfig
        return ret) ∧
      (∀ ret dump' m', Exec world (funRead config.toMainConfig) (m.store reg_addr bytes)
          (ret, dump') m' ↔ ret = 0 ∧ m' = m.store reg_addr bytes ∧ dump' = dump) ∧
      HexDump.read dump.flatten = bytes.zipIdx := by
  constructor
  · obtain ⟨config, hconfig, hmode, hcnt, hwrite, haddr, hdata⟩ :=
      @mainConfig_writeLine prog reg_addr bytes (hlen.trans (by decide))
    intro ret m'
    rw [mainRun, hconfig]
    dsimp only
    rw [exec_write env hmode hcnt hwrite, haddr, hdata]
  · obtain ⟨config, hconfig, hmode, hcnt, hread, haddr, hn⟩ :=
      @mainConfig_readLine prog reg_addr _ (List.length_pos_iff.mpr hne) hlen
    have hrun : mainRun env (readLine prog reg_addr bytes.length) = (do
        let (ret, _) ← funRead config.toMainConfig
        return ret) := by
      rw [mainRun, hconfig]
      dsimp only
      rw [run, hmode]
      exact funWr_read env.rand hcnt hread
    have hload : (m.store reg_addr bytes).load reg_addr bytes.length = bytes :=
      load_store (hlen.trans (by decide))
    refine ⟨config, _, hconfig, hrun, fun _ _ _ => exec_funRead, ?_⟩
    rw [read_dump, haddr, hn, hload]

/-- Two bytes at the address of a date, written and shown. -/
theorem write_then_read_two : ∃ m' config dump, Exec world
    (mainRun ⟨0, fun _ _ => 0, 0, 0⟩ (writeLine (ofAscii "p") 0x1076 [0x20, 0x23]))
      (fun _ => 0) 0 m' ∧ m' 0x1077 = 0x23 ∧
    mainConfig (readLine (ofAscii "p") 0x1076 2) = .ok config ∧
    Exec world (funRead config.toMainConfig) m' (0, dump) m' ∧
    HexDump.read dump.flatten = [(0x20, 0), (0x23, 1)] := by
  obtain ⟨hwrite, config, dump, hconfig, -, hread, hdump⟩ :=
    @write_then_read ⟨0, fun _ _ => 0, 0, 0⟩ (ofAscii "p") 0x1076 [0x20, 0x23] (by decide)
      (by decide) fun _ => 0
  exact ⟨_, config, dump, (hwrite 0 _).mpr ⟨rfl, rfl⟩, rfl, hconfig,
    (hread 0 _ _).mpr ⟨rfl, rfl, rfl⟩, hdump⟩

end McuRegWr
