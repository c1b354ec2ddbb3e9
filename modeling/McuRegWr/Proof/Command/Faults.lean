import Mathlib.Tactic.FinCases
import McuRegWr.Proof.Command.Session

/-!
# The faults after a session

Which faults the MCU has is decided by the last command line about each of them, whatever else the
command lines do, as long as none of them is a command to the MCU. -/

namespace McuRegWr

open Base Prog Board

/-- The plain modes that give the MCU no command. -/
def quietModes : List RunFun :=
  [.FUN_SHOW_MCU_INFO, .FUN_READ_CAN_EVENT, .FUN_LOOK_MPU_DTC, .FUN_SET_OR_CLEAN_MPU_DTC,
    .FUN_SETTING_WDOG, .FUN_SET_REARVIEW_TYPE, .FUN_SET_MCU_DEBUG_LEVEL,
    .FUN_WRITE_SHANQI_PRODUCTION_DATE]

def isQuiet (argv : List CStr) : Bool :=
  match mainConfig argv with
  | .error _ => true
  | .ok config => config.mode ∈ quietModes

/-- The fault map is edited. -/
def ToolConfig.Edits (config : ToolConfig) : Prop :=
  config.mode = .FUN_SET_OR_CLEAN_MPU_DTC ∧ config.set_dtc ≠ config.clean_dtc

instance (config : ToolConfig) : Decidable config.Edits := inferInstanceAs (Decidable (_ ∧ _))

/-- What a configuration says about a fault. Set and cleaned at once, it is left alone. -/
def ToolConfig.orders (config : ToolConfig) (dtc : UInt32) : Option Bool :=
  if config.Edits then
    if dtc = config.set_dtc then some true
    else if dtc = config.clean_dtc then some false
    else none
  else none

/-- What a command line says about a fault. -/
def orders (argv : List CStr) (dtc : UInt32) : Option Bool :=
  match mainConfig argv with
  | .error _ => none
  | .ok config => config.orders dtc

def hasFault (dtc_map dtc : UInt32) : Bool := dtc_map.toNat.testBit (dtc.toNat - 1)

/-- The last word about a fault, and `before` if there is none. -/
def lastOrder (calls : List (RunEnv × List CStr)) (dtc : UInt32) (before : Bool) : Bool :=
  ((calls.filterMap fun c => orders c.2 dtc).getLast?).getD before

/-- The faults of the mask. -/
def mpuDtcs : List UInt32 := [1, 2, 3, 4, 8, 9, 10, 11]

theorem inMask_mpuDtcs : ∀ dtc ∈ mpuDtcs, InMask dtc := by
  intro dtc hdtc
  fin_cases hdtc <;> exact ⟨by decide, by decide⟩

/-- What a configuration makes of the map. -/
def ToolConfig.leaves (config : ToolConfig) (dtc_map : UInt32) : UInt32 :=
  if config.Edits then editedMap config.set_dtc config.clean_dtc dtc_map else dtc_map

/-- What a command line makes of it. -/
def mapAfter (argv : List CStr) (dtc_map : UInt32) : UInt32 :=
  match mainConfig argv with
  | .error _ => dtc_map
  | .ok config => config.leaves dtc_map

variable {dtc dtc_map : UInt32} {config : ToolConfig}

/-! ### The map -/

theorem hasFault_editedMap {set_dtc clean_dtc dtc_map : UInt32} (hne : set_dtc ≠ clean_dtc)
    (hdtc : InMask dtc) : hasFault (editedMap set_dtc clean_dtc dtc_map) dtc =
      if dtc = set_dtc then true else if dtc = clean_dtc then false else hasFault dtc_map dtc := by
  have hedited := edited_editedMap hne dtc_map
  by_cases hset : dtc = set_dtc
  · subst hset
    rw [if_pos rfl]
    exact hedited.set hdtc
  by_cases hclean : dtc = clean_dtc
  · subst hclean
    rw [if_neg hset, if_pos rfl]
    exact hedited.clean hdtc
  · rw [if_neg hset, if_neg hclean]
    exact hedited.kept _ (fun h heq => hset (hdtc.inj h heq)) fun h heq => hclean (hdtc.inj h heq)

theorem hasFault_leaves (hdtc : InMask dtc) : hasFault (config.leaves dtc_map) dtc =
    (config.orders dtc).getD (hasFault dtc_map dtc) := by
  rw [ToolConfig.leaves, ToolConfig.orders]
  by_cases hedits : config.Edits
  · rw [if_pos hedits, if_pos hedits, hasFault_editedMap hedits.2 hdtc]
    split
    · rfl
    · split <;> rfl
  · rw [if_neg hedits, if_neg hedits]
    rfl

theorem testBit_leaves {i : Nat} (hi : MPU_DTC_MAP_MASK.toNat.testBit i = false) :
    (config.leaves dtc_map).toNat.testBit i = dtc_map.toNat.testBit i := by
  have hout : ∀ {dtc : UInt32}, InMask dtc → i ≠ dtc.toNat - 1 := by
    rintro dtc hdtc rfl
    rw [hdtc.2] at hi
    exact absurd hi (by decide)
  rw [ToolConfig.leaves]
  split
  · rename_i hedits
    exact (edited_editedMap hedits.2 _).kept i hout hout
  · rfl

theorem hasFault_mapAfter (argv : List CStr) (hdtc : InMask dtc) (dtc_map : UInt32) :
    hasFault (mapAfter argv dtc_map) dtc =
      (orders argv dtc).getD (hasFault dtc_map dtc) := by
  unfold mapAfter orders
  cases mainConfig argv with
  | error exit => rfl
  | ok config => exact hasFault_leaves hdtc

theorem testBit_mapAfter (argv : List CStr) {i : Nat}
    (hi : MPU_DTC_MAP_MASK.toNat.testBit i = false) (dtc_map : UInt32) :
    (mapAfter argv dtc_map).toNat.testBit i = dtc_map.toNat.testBit i := by
  unfold mapAfter
  cases mainConfig argv with
  | error exit => rfl
  | ok config => exact testBit_leaves hi

/-! ### A session -/

variable {calls : List (RunEnv × List CStr)}

/-- The map after a session. -/
def mapAfterAll (calls : List (RunEnv × List CStr)) (dtc_map : UInt32) : UInt32 :=
  calls.foldl (fun dtc_map c => mapAfter c.2 dtc_map) dtc_map

theorem lastOrder_cons (c : RunEnv × List CStr) (before : Bool) :
    lastOrder (c :: calls) dtc before =
      lastOrder calls dtc ((orders c.2 dtc).getD before) := by
  rw [lastOrder, List.filterMap_cons]
  cases orders c.2 dtc with
  | none => rfl
  | some on =>
      dsimp only
      rw [List.getLast?_cons]
      rfl

/-- The last word counts. -/
theorem hasFault_mapAfterAll (hdtc : InMask dtc) (dtc_map : UInt32) :
    hasFault (mapAfterAll calls dtc_map) dtc =
      lastOrder calls dtc (hasFault dtc_map dtc) := by
  induction calls generalizing dtc_map with
  | nil => rfl
  | cons c calls ih =>
      rw [mapAfterAll, List.foldl_cons, ← mapAfterAll, ih, hasFault_mapAfter c.2 hdtc,
        lastOrder_cons]

theorem testBit_mapAfterAll {i : Nat} (hi : MPU_DTC_MAP_MASK.toNat.testBit i = false)
    (dtc_map : UInt32) :
    (mapAfterAll calls dtc_map).toNat.testBit i = dtc_map.toNat.testBit i := by
  induction calls generalizing dtc_map with
  | nil => rfl
  | cons c calls ih => rw [mapAfterAll, List.foldl_cons, ← mapAfterAll, ih, testBit_mapAfter c.2 hi]

section

variable {kept : Set BoardField} {effect : Effect kept} (hdtc : BoardField.dtc_map ∈ kept)
  {b : Board kept}

theorem ends_set_other {f : BoardField} {v : f.Val} (hf : f.isCommand = false)
    (hne : f ≠ .dtc_map) :
    (do Field.set f v; return 0 : Prog FieldI Int).Ends (Board.world effect) b fun ret b' =>
      ret = 0 ∧ b'.dtcMap hdtc = b.dtcMap hdtc :=
  ends_set hf ⟨rfl, put_of_ne _ hne v⟩

theorem ends_act_other (hquiet : config.mode ∈ quietModes)
    (hmode : config.mode ≠ .FUN_SET_OR_CLEAN_MPU_DTC) :
    config.act.Ends (Board.world effect) b fun ret b' =>
      ret = 0 ∧ b'.dtcMap hdtc = b.dtcMap hdtc := by
  unfold ToolConfig.act
  cases hfun : config.mode with
  | FUN_SET_OR_CLEAN_MPU_DTC => exact absurd hfun hmode
  | FUN_SETTING_WDOG =>
      refine ends_get fun cnt _ => ends_set rfl ?_
      refine (ends_set_other hdtc rfl (by decide)).mono ?_
      rintro ret b' ⟨hret, hb⟩
      exact ⟨hret, hb.trans (put_of_ne _ (show BoardField.mpu_online_cnt ≠ .dtc_map by decide) _)⟩
  | FUN_SET_REARVIEW_TYPE => exact ends_set_other hdtc rfl (by decide)
  | FUN_SET_MCU_DEBUG_LEVEL => exact ends_set_other hdtc rfl (by decide)
  | FUN_WRITE_SHANQI_PRODUCTION_DATE => exact ends_set_other hdtc rfl (by decide)
  | FUN_SHOW_MCU_INFO => exact ends_get fun _ _ => ends_get fun _ _ => ends_pure ⟨rfl, rfl⟩
  | FUN_READ_CAN_EVENT => exact ends_pure ⟨rfl, rfl⟩
  | FUN_LOOK_MPU_DTC => exact ends_get fun _ _ => ends_pure ⟨rfl, rfl⟩
  | _ => simp [hfun, quietModes] at hquiet

theorem ends_act_edits (hmode : config.mode = .FUN_SET_OR_CLEAN_MPU_DTC) :
    config.act.Ends (Board.world effect) b fun ret b' =>
      ret = 0 ∧ b'.dtcMap hdtc = config.leaves (b.dtcMap hdtc) := by
  rw [ToolConfig.act, hmode]
  dsimp only
  by_cases hsame : config.set_dtc = config.clean_dtc
  · rw [if_pos hsame, ToolConfig.leaves, if_neg fun hedits : config.Edits => hedits.2 hsame]
    exact ends_pure ⟨rfl, rfl⟩
  · rw [if_neg hsame, ToolConfig.leaves, if_pos ⟨hmode, hsame⟩]
    refine ends_get fun dtc_map hmap => ?_
    refine ends_get fun cnt _ => ends_set rfl (ends_set rfl ⟨rfl, ?_⟩)
    exact (put_self _ hdtc _).trans (congrArg _ (hmap hdtc))

theorem ends_act (hquiet : config.mode ∈ quietModes) :
    config.act.Ends (Board.world effect) b fun ret b' =>
      ret = 0 ∧ b'.dtcMap hdtc = config.leaves (b.dtcMap hdtc) := by
  by_cases hmode : config.mode = .FUN_SET_OR_CLEAN_MPU_DTC
  · exact ends_act_edits hdtc hmode
  · rw [ToolConfig.leaves, if_neg fun hedits : config.Edits => hmode hedits.1]
    exact ends_act_other hdtc hquiet hmode

theorem ends_mainAct {argv : List CStr} (hquiet : isQuiet argv) :
    (mainAct argv).Ends (Board.world effect) b fun _ b' =>
      b'.dtcMap hdtc = mapAfter argv (b.dtcMap hdtc) := by
  unfold mainAct mapAfter
  cases hconfig : mainConfig argv with
  | error exit => exact ends_pure rfl
  | ok config =>
      rw [isQuiet, hconfig] at hquiet
      exact (ends_act hdtc (of_decide_eq_true hquiet)).mono fun ret b' h => h.2

theorem ends_sessionAct (hquiet : ∀ c ∈ calls, isQuiet c.2) :
    (sessionAct calls).Ends (Board.world effect) b fun _ b' =>
      b'.dtcMap hdtc = mapAfterAll calls (b.dtcMap hdtc) := by
  rw [sessionAct]
  induction calls generalizing b with
  | nil => exact ends_pure rfl
  | cons c calls ih =>
      rw [List.mapM_cons]
      refine (ends_mainAct hdtc (hquiet c List.mem_cons_self)).bind fun ret b₁ hb₁ => ?_
      refine (ih fun d hd => hquiet d (List.mem_cons_of_mem c hd)).bind fun rets b₂ hb₂ => ?_
      rw [hb₁] at hb₂
      exact hb₂

end

/-- The lines of `fun_show_mpu_dtc`, by what each fault is. -/
def dtcTable (has : UInt32 → Bool) : List DbgLine :=
  dbgInforaw "MPU DTC (只显示MPU可控故障):\r\n" [] :: mpuDtcs.map fun dtc =>
    dbgInforaw "DTC: %02d     %d\r\n" [.int dtc.toNat, .int (if has dtc then 1 else 0)]

theorem dtcLine_pred {dtc : UInt32} (hdtc : dtc ≠ 0) (dtc_map : UInt32) :
    dtcLine dtc_map (dtc.toNat - 1) = dbgInforaw "DTC: %02d     %d\r\n"
      [.int dtc.toNat, .int (if hasFault dtc_map dtc then 1 else 0)] := by
  have hpos : 0 < dtc.toNat := Nat.pos_of_ne_zero fun h0 => hdtc (UInt32.toNat_inj.mp h0)
  have hnumber : ((dtc.toNat - 1 : Nat) : Int) + 1 = dtc.toNat := by omega
  have hbit : getBit (bytes32 dtc_map) (dtc.toNat - 1) =
      if hasFault dtc_map dtc then 1 else 0 := by
    rw [getBit_eq, ← testBit_ofLeBytes, ofLeBytes_leBytes_of_lt dtc_map.toNat_lt, hasFault]
  rw [dtcLine, hnumber, hbit]
  split <;> rfl

theorem lines_eq_dtcTable (dtc_map : UInt32) :
    dbgInforaw "MPU DTC (只显示MPU可控故障):\r\n" [] ::
      ((List.range 12).filter fun i => getBit (bytes32 MPU_DTC_MAP_MASK) i ≠ 0).map
        (dtcLine dtc_map) = dtcTable (hasFault dtc_map) := by
  have hbits : ((List.range 12).filter fun i => getBit (bytes32 MPU_DTC_MAP_MASK) i ≠ 0) =
      mpuDtcs.map fun dtc => dtc.toNat - 1 := by decide
  have hlines : (mpuDtcs.map fun dtc => dtc.toNat - 1).map (dtcLine dtc_map) =
      mpuDtcs.map fun dtc => dbgInforaw "DTC: %02d     %d\r\n"
        [.int dtc.toNat, .int (if hasFault dtc_map dtc then 1 else 0)] := by
    rw [List.map_map]
    exact List.map_congr_left fun dtc hdtc => dtcLine_pred (inMask_mpuDtcs dtc hdtc).1 _
  exact congrArg (_ :: ·) (hbits ▸ hlines)

theorem fits_funShowMpuDtc : funShowMpuDtc.Asks RegOp.Fits := by
  have hread : (RVMcu.readMpuDtc 0).Asks RegOp.Fits :=
    BusinessOp.fits_readField_bind DTC_MAP _ (by decide) fun _ => trivial
  refine Asks.bind hread fun (ret, dtc_map) => ?_
  dsimp only
  split <;> trivial

theorem plain_of_quiet {argv : List CStr} (hquiet : isQuiet argv) : isPlain argv := by
  unfold isQuiet at hquiet
  unfold isPlain
  split
  · rfl
  · rename_i config hconfig
    rw [hconfig] at hquiet
    have hall : ∀ mode ∈ quietModes, mode ∈ plainModes := by decide
    exact decide_eq_true (hall _ (of_decide_eq_true hquiet))

/-- After any session of plain command lines without a command to the MCU, on a line without faults
and with an MCU that leaves the fault map to the host, the tool shows a fault exactly if the last
command line that names it has set it, or if it was there and none names it. The faults that the
host has no say in are as they were. -/
theorem faults_shown {ρ φ : Type} {R : Registers ρ} {W : World SysI (Mcu ρ)} {kept : Set BoardField}
    {board : ρ → Board kept} {effect : Effect kept} {files : World FileI φ}
    (hW : Mcu.Faultless R W) (hR : R.Keeps board effect)
    (hdtc : BoardField.dtc_map ∈ kept) (h : SpiRegHandle) (hquiet : ∀ c ∈ calls, isQuiet c.2)
    (s : Mcu ρ) (y : φ) :
    let before := (board s.regs).dtcMap hdtc
    ((session calls >>= fun _ => funShowMpuDtc).lower (SpiReg.access h)).Ends
      (Guard.alone W files) (s, y) fun r s' =>
        r = (0, dtcTable fun dtc => lastOrder calls dtc (hasFault before dtc)) ∧
        ∀ i, MPU_DTC_MAP_MASK.toNat.testBit i = false →
          ((board s'.1.regs).dtcMap hdtc).toNat.testBit i = before.toNat.testBit i := by
  intro before
  have hplain : ∀ c ∈ calls, isPlain c.2 := fun c hc => plain_of_quiet (hquiet c hc)
  have hfits : (session calls >>= fun _ => funShowMpuDtc).Asks RegOp.Fits :=
    (fits_session hplain).bind fun _ => fits_funShowMpuDtc
  have hdoes : Does R files board effect (session calls >>= fun _ => funShowMpuDtc) _ :=
    (does_session hW hR hplain).bind fun _ => does_funShowMpuDtc hW hR
  refine ((Mcu.refines_access hW h hfits).trans hdoes) (s, y) (fun r b =>
    r = (0, dtcTable fun dtc => lastOrder calls dtc (hasFault before dtc)) ∧
      b.dtcMap hdtc = mapAfterAll calls before) ?_ |>.mono ?_
  · refine (ends_sessionAct hdtc hquiet).bind fun rets b hb => ends_get fun dtc_map hmap => ?_
    have hmap : dtc_map = mapAfterAll calls before := (hmap hdtc).trans hb
    refine ⟨?_, hb⟩
    rw [lines_eq_dtcTable, hmap]
    refine congrArg (fun lines => ((0 : Int), _ :: lines)) (List.map_congr_left fun dtc hmem => ?_)
    rw [hasFault_mapAfterAll (inMask_mpuDtcs dtc hmem)]
  · rintro r s' ⟨hr, hb⟩
    refine ⟨hr, fun i hi => ?_⟩
    dsimp only at hb ⊢
    rw [hb]
    exact testBit_mapAfterAll hi before

/-- `-s 3 -e 2`, `-o`, `-e 3` and `-s 11`. -/
def dtcLines : List (RunEnv × List CStr) :=
  [["p", "-s", "3", "-e", "2"], ["p", "-o"], ["p", "-e", "3"], ["p", "-s", "11"]].map fun argv =>
    (⟨0, fun _ _ => 0, 0, 0⟩, argv.map CStr.ofAscii)

/-- On an MCU with the faults 2 and 5. -/
theorem faults_shown_dtcLines :
    ((session dtcLines >>= fun _ => funShowMpuDtc).lower (SpiReg.access ⟨3, 4, 5⟩)).Ends
      (Guard.alone swiftMcu.line fun _ _ _ _ => False)
      (⟨RegFile.store (fun _ => 0) 0x1014 [0x12], .idle, []⟩, ()) fun r s =>
        r = (0, dtcTable (· = 11)) ∧
        ((s.1.regs.board : Board hostFields).dtcMap dtc_map_mem).toNat.testBit 4 = true := by
  have hquiet : ∀ c ∈ dtcLines, isQuiet c.2 := by decide
  refine (faults_shown (Mcu.faultless_server _) keeps_swiftMcu dtc_map_mem _ hquiet _ _).mono ?_
  rintro r s ⟨hr, hrest⟩
  exact ⟨hr, hrest 4 (by decide)⟩

end McuRegWr
