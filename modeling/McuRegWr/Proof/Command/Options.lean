import McuRegWr.Proof.Command.Arguments

/-!
# Command lines that are written down

A command line is a list of what it says: plain arguments, groups of short options, long options.
When the names of a table do not get in each other's way, every such line is read as it is meant.
-/

namespace McuRegWr

open Base

/-- The string of some bytes without a zero. -/
def CStr.ofBytes (bytes : List UInt8) : CStr := ⟨bytes.filter (· ≠ 0), by simp⟩

/-- What a command line says with one argument, or with two where a text stands apart. -/
inductive ArgparseItem (κ : Type) where
  | word (s : CStr)
  /-- `-abc` or `-abcTEXT` -/
  | group (opts : List (ArgparseOption κ)) (text : Option (ArgparseOption κ × CStr × Bool))
  | long (opt : ArgparseOption κ) (unset : Bool)
  | longText (opt : ArgparseOption κ) (s : CStr) (apart : Bool)

namespace ArgparseOption

variable {κ : Type}

/-- The bytes of the long name. -/
def name (opt : ArgparseOption κ) : List UInt8 := (opt.long_name.map Subtype.val).getD []

def IsFlag (opt : ArgparseOption κ) : Prop :=
  opt.callback = false ∧
    (opt.type = .ARGPARSE_OPT_BOOLEAN ∨ opt.type = .ARGPARSE_OPT_BIT)

/-- A text that `strtol` reads whole, and as a number in range. -/
def IsInteger (s : CStr) : Prop :=
  CStr.strtolErange s.val 0 = false ∧ CStr.strtolRest s.val 0 = []

def Takes (opt : ArgparseOption κ) (s : CStr) : Prop :=
  opt.callback = false ∧ opt.value ≠ none ∧
    (opt.type = .ARGPARSE_OPT_STRING ∨ opt.type = .ARGPARSE_OPT_INTEGER ∧ IsInteger s)

end ArgparseOption

namespace ArgparseValues

variable {κ : Type} [DecidableEq κ]

/-- What an option without a text does. -/
def flag (values : ArgparseValues κ) (opt : ArgparseOption κ) (unset : Bool) : ArgparseValues κ :=
  match opt.value, opt.type with
  | some place, .ARGPARSE_OPT_BOOLEAN =>
      values.setInt place (max 0 (if unset then values.int place - 1 else values.int place + 1))
  | some place, .ARGPARSE_OPT_BIT =>
      let v := BitVec.ofInt 32 (values.int place)
      let data := BitVec.ofInt 32 opt.data
      values.setInt place (if unset then v &&& ~~~data else v ||| data).toInt
  | _, _ => values

/-- What a group of options without a text does. -/
def flags (values : ArgparseValues κ) (opts : List (ArgparseOption κ)) : ArgparseValues κ :=
  opts.foldl (fun values opt => values.flag opt false) values

theorem flags_concat (values : ArgparseValues κ) (opts : List (ArgparseOption κ))
    (opt : ArgparseOption κ) :
    values.flags (opts ++ [opt]) = (values.flags opts).flag opt false :=
  List.foldl_append

/-- What an option with a text does. -/
def text (values : ArgparseValues κ) (opt : ArgparseOption κ) (s : CStr) : ArgparseValues κ :=
  match opt.value, opt.type with
  | some place, .ARGPARSE_OPT_STRING => values.setStr place s
  | some place, .ARGPARSE_OPT_INTEGER =>
      values.setInt place (Argparse.toInt32 (CStr.strtol s.val 0).1)
  | _, _ => values

end ArgparseValues

namespace ArgparseItem

variable {κ : Type}

/-- The arguments an item is written with. -/
def render : ArgparseItem κ → List CStr
  | .word s => [s]
  | .group opts none => [CStr.ofBytes (0x2d :: opts.map (·.short_name))]
  | .group opts (some (opt, s, true)) =>
      [CStr.ofBytes (0x2d :: opts.map (·.short_name) ++ [opt.short_name]), s]
  | .group opts (some (opt, s, false)) =>
      [CStr.ofBytes (0x2d :: opts.map (·.short_name) ++ opt.short_name :: s.val)]
  | .long opt false => [CStr.ofBytes (dashes ++ opt.name)]
  | .long opt true => [CStr.ofBytes (dashes ++ (negation ++ opt.name))]
  | .longText opt s true => [CStr.ofBytes (dashes ++ opt.name), s]
  | .longText opt s false => [CStr.ofBytes (dashes ++ (opt.name ++ equals :: s.val))]

theorem exists_render (item : ArgparseItem κ) : ∃ s more, item.render = s :: more := by
  cases item with
  | word s => exact ⟨_, _, rfl⟩
  | group opts text =>
      match text with
      | none => exact ⟨_, _, rfl⟩
      | some (opt, s, true) => exact ⟨_, _, rfl⟩
      | some (opt, s, false) => exact ⟨_, _, rfl⟩
  | long opt unset => cases unset <;> exact ⟨_, _, rfl⟩
  | longText opt s apart => cases apart <;> exact ⟨_, _, rfl⟩

/-- The plain arguments of an item. -/
def words : ArgparseItem κ → List CStr
  | .word s => [s]
  | .group _ _ => []
  | .long _ _ => []
  | .longText _ _ _ => []

/-- What an item does to the values. -/
def apply [DecidableEq κ] (values : ArgparseValues κ) : ArgparseItem κ → ArgparseValues κ
  | .word _ => values
  | .group opts text =>
      match text with
      | none => values.flags opts
      | some (opt, s, _) => (values.flags opts).text opt s
  | .long opt unset => values.flag opt unset
  | .longText opt s _ => values.text opt s

/-- An item that a table has the options for. -/
def Valid (options : List (ArgparseOption κ)) : ArgparseItem κ → Prop
  | .word s => s.val.head? ≠ some 0x2d ∨ s.val.length = 1
  | .group opts text =>
      (∀ opt ∈ opts, opt ∈ options ∧ opt.short_name ≠ 0 ∧ opt.IsFlag) ∧
        match text with
        | none => opts ≠ []
        | some (opt, s, apart) =>
            opt ∈ options ∧ opt.short_name ≠ 0 ∧ opt.Takes s ∧ (apart = false → s.val ≠ [])
  | .long opt unset =>
      opt ∈ options ∧ opt.long_name ≠ none ∧ opt.IsFlag ∧ (unset = true → opt.noneg = false)
  | .longText opt s _ => opt ∈ options ∧ opt.long_name ≠ none ∧ opt.Takes s

end ArgparseItem

/-- The names of a table are told apart by what stands in front of `=`, and none is read as the
negation of another. -/
structure WellFormed {κ : Type} (options : List (ArgparseOption κ)) : Prop where
  short : ∀ opt ∈ options, ∀ opt' ∈ options, opt.short_name ≠ 0 →
    opt'.short_name = opt.short_name → opt' = opt
  dash : ∀ opt ∈ options, opt.short_name ≠ 0x2d
  long : ∀ opt ∈ options, ∀ opt' ∈ options, opt.long_name ≠ none →
    opt'.long_name = opt.long_name → opt' = opt
  plain : ∀ opt ∈ options, opt.long_name ≠ none → opt.name ≠ [] ∧ equals ∉ opt.name ∧
    ¬ negation <+: opt.name ∧ ¬ opt.name <+: negation ++ opt.name

namespace Argparse

variable {κ : Type} [DecidableEq κ] {options : List (ArgparseOption κ)} {flags : ArgparseFlags}
  {opt : ArgparseOption κ} {p p' : Argparse κ} {kept rest : List CStr} {s : CStr}

/-! ### Rounds -/

theorem loop_fuel (view : View p kept rest) {fuel : Nat} (h : rest.length ≤ fuel) :
    loop options flags fuel p = loop options flags rest.length p := by
  induction hn : rest.length using Nat.strong_induction_on generalizing p kept rest fuel with
  | _ n ih =>
      cases rest with
      | nil =>
          have hargc : p.argc = 0 := view.argc
          subst hn
          cases fuel with
          | zero => rfl
          | succ fuel => rw [loop, if_pos hargc, List.length_nil, loop]
      | cons s rest =>
          have hargc : p.argc ≠ 0 := by
            rw [view.argc]
            exact Nat.succ_ne_zero _
          subst hn
          cases fuel with
          | zero => exact absurd h (Nat.not_succ_le_zero _)
          | succ fuel =>
              rw [loop, List.length_cons, loop, if_neg hargc, if_neg hargc]
              cases hround : round options flags p with
              | error e => rfl
              | ok r =>
                  obtain ⟨q, kept', rest', hparsed, hr⟩ :=
                    parsed_round view (show s ∈ s :: rest from List.mem_cons_self) hround
                  rcases hr with rfl | ⟨rfl, hsuffix⟩
                  · rfl
                  · have hlen := hsuffix.length_le
                    have hlt : rest'.length < (s :: rest).length := Nat.lt_succ_of_le hlen
                    have hleft : rest'.length ≤ fuel :=
                      hlen.trans (Nat.le_of_succ_le_succ h)
                    show loop options flags fuel q = loop options flags rest.length q
                    rw [ih _ hlt hparsed.view hleft rfl, ih _ hlt hparsed.view hlen rfl]

/-- The loop from a context on. -/
def drive (options : List (ArgparseOption κ)) (flags : ArgparseFlags) (p : Argparse κ) :
    Except ArgparseExit (Argparse κ) :=
  loop options flags p.argc p

theorem drive_nil (view : View p kept []) : drive options flags p = .ok p := by
  rw [drive, view.argc]
  rfl

theorem drive_round (view : View p kept (s :: rest)) {kept' rest' : List CStr}
    (view' : View p' kept' rest') (hlen : rest'.length ≤ rest.length)
    (h : round options flags p = .ok (.inl p')) :
    drive options flags p = drive options flags p' := by
  have hargc : p.argc ≠ 0 := by
    rw [view.argc]
    exact Nat.succ_ne_zero _
  rw [drive, view.argc, List.length_cons, loop, if_neg hargc, h]
  show loop options flags rest.length p' = _
  rw [loop_fuel view' hlen, drive, view'.argc]

theorem drive_last (view : View p kept (s :: rest)) (h : round options flags p = .ok (.inr p')) :
    drive options flags p = .ok p' := by
  have hargc : p.argc ≠ 0 := by
    rw [view.argc]
    exact Nat.succ_ne_zero _
  rw [drive, view.argc, List.length_cons, loop, if_neg hargc, h]
  rfl

/-! ### Values -/

omit [DecidableEq κ] in
theorem View.update (view : View p kept rest) (optvalue : Option CStr)
    (values : ArgparseValues κ) :
    View { p with optvalue := optvalue, values := values } kept rest :=
  ⟨view.argc, view.reading, view.written, view.behind, view.length⟩

theorem getvalue_flag (h : opt.IsFlag) (unset long : Bool) :
    p.getvalue opt unset long = .ok { p with values := p.values.flag opt unset } := by
  have hmax : ∀ v : Int, max 0 v = if v < 0 then 0 else v := by
    intro v
    split <;> omega
  rw [getvalue, store, ArgparseValues.flag]
  cases hvalue : opt.value with
  | none => simp [h.1, pure, Except.pure, bind, Except.bind]
  | some place =>
      rcases h.2 with htype | htype
      all_goals simp [htype, h.1, pure, Except.pure, bind, Except.bind, setInt, hmax]

theorem getvalue_text (h : opt.Takes s) (long : Bool) (htext : p.text opt long = .ok (s, p')) :
    p.getvalue opt false long = .ok { p' with values := p'.values.text opt s } := by
  obtain ⟨hcallback, hvalue, htype⟩ := h
  obtain ⟨place, hplace⟩ := Option.ne_none_iff_exists'.mp hvalue
  rw [getvalue, store, ArgparseValues.text, hplace]
  rcases htype with htype | ⟨htype, hrange, hrest⟩
  · simp [htype, htext, hcallback, pure, Except.pure, bind, Except.bind, setStr]
  · simp [htype, htext, hcallback, hrange, hrest, pure, Except.pure, bind, Except.bind, setInt]

theorem getvalue_left (h : opt.Takes s) (hleft : p.optvalue = some s) (long : Bool) :
    p.getvalue opt false long =
      .ok { p with optvalue := none, values := p.values.text opt s } :=
  getvalue_text h long (by rw [text, hleft])

theorem getvalue_apart {s' : CStr} (h : opt.Takes s) (hleft : p.optvalue = none)
    (view : View p kept (s' :: s :: rest)) (long : Bool) :
    p.getvalue opt false long = .ok { p.next with values := p.values.text opt s } := by
  have hargc : p.argc > 1 := by
    rw [view.argc, List.length_cons, List.length_cons]
    omega
  exact getvalue_text h long (by rw [text, hleft, if_pos hargc, view.arg_one])

/-! ### Short options -/

theorem shortOpt_of (wf : WellFormed options) (hopt : opt ∈ options) (hzero : opt.short_name ≠ 0)
    (hs : s.val.headD 0 = opt.short_name) :
    p.shortOpt s options =
      (do
        let p ← getvalue { p with optvalue := tailOf s } opt false false
        return some p) := by
  have hfind : ∀ table : List (ArgparseOption κ), table ⊆ options → opt ∈ table →
      p.shortOpt s table =
        (do
          let p ← getvalue { p with optvalue := tailOf s } opt false false
          return some p) := by
    intro table htable hmem
    induction table with
    | nil => exact absurd hmem List.not_mem_nil
    | cons opt' table ih =>
        have hopt' := htable List.mem_cons_self
        rw [shortOpt, hs]
        split
        · rename_i hname
          rw [wf.short opt hopt opt' hopt' hzero hname]
        · rename_i hname
          rcases List.mem_cons.mp hmem with rfl | hlater
          · exact absurd rfl hname
          · exact ih (fun _ h => htable (List.mem_cons_of_mem _ h)) hlater
  exact hfind options (fun _ => id) hopt

omit [DecidableEq κ] in
theorem tailOf_eq_none {c : UInt8} (h : s.val = [c]) : tailOf s = none := by
  rw [tailOf, h]
  rfl

omit [DecidableEq κ] in
theorem tailOf_eq_some {c : UInt8} {s' : CStr} (h : s.val = c :: s'.val) (hs' : s'.val ≠ []) :
    tailOf s = some s' := by
  have hlen := List.length_pos_iff.mpr hs'
  rw [tailOf, if_pos (by rw [h, List.length_cons]; omega)]
  refine congrArg some (Subtype.ext ?_)
  rw [CStr.val_drop, h]
  rfl

theorem shortOpts_cons (wf : WellFormed options) (hopt : opt ∈ options) (hzero : opt.short_name ≠ 0)
    (hflag : opt.IsFlag) {s' : CStr} (hs : s.val = opt.short_name :: s'.val) (hs' : s'.val ≠ [])
    (fuel : Nat) :
    shortOpts options (fuel + 1) p s = shortOpts options fuel
      { p with optvalue := some s', values := p.values.flag opt false } s' := by
  have hhead : s.val.headD 0 = opt.short_name := by rw [hs]; rfl
  rw [shortOpts, shortOpt_of wf hopt hzero hhead, tailOf_eq_some hs hs', getvalue_flag hflag]
  rfl

theorem shortOpts_flag (wf : WellFormed options) (hopt : opt ∈ options) (hzero : opt.short_name ≠ 0)
    (hflag : opt.IsFlag) (hs : s.val = [opt.short_name]) (fuel : Nat) :
    shortOpts options (fuel + 1) p s =
      .ok (true, { p with optvalue := none, values := p.values.flag opt false }) := by
  have hhead : s.val.headD 0 = opt.short_name := by rw [hs]; rfl
  rw [shortOpts, shortOpt_of wf hopt hzero hhead, tailOf_eq_none hs, getvalue_flag hflag]
  rfl

theorem shortOpts_left (wf : WellFormed options) (hopt : opt ∈ options) (hzero : opt.short_name ≠ 0)
    {s' : CStr} (htakes : opt.Takes s') (hs : s.val = opt.short_name :: s'.val) (hs' : s'.val ≠ [])
    (fuel : Nat) :
    shortOpts options (fuel + 1) p s =
      .ok (true, { p with optvalue := none, values := p.values.text opt s' }) := by
  have hhead : s.val.headD 0 = opt.short_name := by rw [hs]; rfl
  rw [shortOpts, shortOpt_of wf hopt hzero hhead, tailOf_eq_some hs hs', getvalue_left htakes rfl]
  rfl

theorem shortOpts_apart (wf : WellFormed options) (hopt : opt ∈ options)
    (hzero : opt.short_name ≠ 0) {s' s'' : CStr} (htakes : opt.Takes s')
    (hs : s.val = [opt.short_name]) (view : View p kept (s'' :: s' :: rest)) (fuel : Nat) :
    shortOpts options (fuel + 1) p s = .ok (true,
      { p.next with optvalue := none, values := p.values.text opt s' }) := by
  have hhead : s.val.headD 0 = opt.short_name := by rw [hs]; rfl
  have hview := view.update none p.values
  rw [shortOpts, shortOpt_of wf hopt hzero hhead, tailOf_eq_none hs,
    getvalue_apart htakes rfl hview]
  rfl

theorem shortOpts_flags (wf : WellFormed options) {opts : List (ArgparseOption κ)}
    (hopts : ∀ opt ∈ opts, opt ∈ options ∧ opt.short_name ≠ 0 ∧ opt.IsFlag) {tail : CStr}
    (hs : s.val = opts.map (·.short_name) ++ tail.val) (htail : tail.val ≠ []) (fuel : Nat) :
    ∃ optvalue, shortOpts options (fuel + opts.length) p s = shortOpts options fuel
      { p with optvalue := optvalue, values := p.values.flags opts } tail := by
  induction opts generalizing p s with
  | nil =>
      obtain rfl : s = tail := Subtype.ext hs
      exact ⟨p.optvalue, rfl⟩
  | cons opt opts ih =>
      obtain ⟨hopt, hzero, hflag⟩ := hopts opt List.mem_cons_self
      have hrest : 0 ∉ opts.map (·.short_name) ++ tail.val := fun hmem =>
        s.property (hs ▸ List.mem_cons_of_mem _ hmem)
      let s' : CStr := ⟨opts.map (·.short_name) ++ tail.val, hrest⟩
      have hs' : s'.val ≠ [] := List.append_ne_nil_of_right_ne_nil _ htail
      obtain ⟨optvalue, hgroup⟩ := ih (p := { p with
          optvalue := some s', values := p.values.flag opt false })
        (fun o ho => hopts o (List.mem_cons_of_mem _ ho)) (s := s') rfl
      refine ⟨optvalue, ?_⟩
      rw [List.length_cons, ← Nat.add_assoc, shortOpts_cons wf hopt hzero hflag hs hs', hgroup]
      rfl

/-! ### Long options -/

omit [DecidableEq κ] in
theorem prefixSkip_append {pre rest : CStr} (h : s.val = pre.val ++ rest.val) :
    prefixSkip s pre = some rest := by
  rw [prefixSkip, if_pos (by rw [h, List.take_left])]
  refine congrArg some (Subtype.ext ?_)
  rw [CStr.val_drop, h, List.drop_left]

/-- The name in front of `=`. -/
def nameOf (bytes : List UInt8) : List UInt8 := bytes.takeWhile (· ≠ equals)

omit [DecidableEq κ] in
theorem nameOf_append {name rest : List UInt8} (hname : equals ∉ name) (hrest : Ends rest) :
    nameOf (name ++ rest) = name := by
  have hall : ∀ c ∈ name, decide (c ≠ equals) = true := fun c hc =>
    decide_eq_true fun heq => hname (heq ▸ hc)
  have hend : rest.takeWhile (· ≠ equals) = [] := by
    cases rest with
    | nil => rfl
    | cons c rest =>
        rcases hrest with hnone | hsome
        · cases hnone
        · have hc : c = equals := Option.some.inj hsome
          rw [List.takeWhile_cons_of_neg (by simp [hc])]
  rw [nameOf, List.takeWhile_append_of_pos hall, hend, List.append_nil]

/-- What stands before the name of an option. -/
def sign (unset : Bool) : List UInt8 := if unset then negation else []

omit [DecidableEq κ] in
theorem longRest_eq {name body rest : CStr} {unset : Bool}
    (h : longRest opt name body = some (unset, rest)) :
    body.val = sign unset ++ name.val ++ rest.val := by
  rw [longRest] at h
  split at h
  · rename_i hskip
    cases h
    exact prefixSkip_eq hskip
  · split at h
    · cases h
    split at h
    · cases h
    split at h
    · cases h
    · rename_i hno
      obtain ⟨r, hskip, heq⟩ := Option.map_eq_some_iff.mp h
      cases heq
      rw [prefixSkip_eq hno, prefixSkip_eq hskip, ← List.append_assoc]
      rfl

omit [DecidableEq κ] in
theorem longRest_of (wf : WellFormed options) (hopt : opt ∈ options) {name : CStr}
    (hname : opt.long_name = some name) {unset : Bool} (hflag : unset = true → opt.IsFlag)
    (hneg : unset = true → opt.noneg = false) {body rest : CStr}
    (hbody : body.val = sign unset ++ name.val ++ rest.val) :
    longRest opt name body = some (unset, rest) := by
  have hbytes : opt.name = name.val := by
    rw [ArgparseOption.name, hname]
    rfl
  obtain ⟨-, hequals, -, hself⟩ := wf.plain opt hopt (by simp [hname])
  rw [hbytes] at hequals hself
  rw [longRest]
  cases unset with
  | false => rw [show prefixSkip body name = some rest from prefixSkip_append hbody]
  | true =>
      have hskip : prefixSkip body name = none := by
        cases hskip : prefixSkip body name with
        | none => rfl
        | some r =>
            have hpre : name.val <+: body.val := (prefix_of_prefixSkip hskip).1
            have hsigned : negation ++ name.val <+: body.val := hbody ▸ List.prefix_append _ _
            have hlen : name.val.length ≤ (negation ++ name.val).length := by
              rw [List.length_append]
              exact Nat.le_add_left _ _
            exact absurd (List.prefix_of_prefix_length_le hpre hsigned hlen) hself
      have hbody' : body.val = negation ++ (name.val ++ rest.val) := by
        rw [hbody, List.append_assoc]
        rfl
      have hzero : 0 ∉ name.val ++ rest.val := fun hmem =>
        body.property (hbody' ▸ List.mem_append_right _ hmem)
      have hno : prefixSkip body (CStr.ofAscii "no-") = some ⟨name.val ++ rest.val, hzero⟩ :=
        prefixSkip_append hbody'
      have htype := (hflag rfl).2
      rw [hskip]
      dsimp only
      rw [if_neg (by simp [hneg rfl]), if_neg (by tauto), hno]
      dsimp only
      rw [show prefixSkip _ name = some rest from prefixSkip_append rfl]
      rfl

omit [DecidableEq κ] in
theorem eq_of_longRest (wf : WellFormed options) {opt' : ArgparseOption κ} (hopt : opt ∈ options)
    (hopt' : opt' ∈ options) {name name' : CStr} (hname : opt.long_name = some name)
    (hname' : opt'.long_name = some name') {unset unset' : Bool} {body rest rest' : CStr}
    (hbody : body.val = sign unset ++ name.val ++ rest.val) (hends : Ends rest.val)
    (h : longRest opt' name' body = some (unset', rest')) (hends' : Ends rest'.val) :
    opt' = opt := by
  have hbytes : opt.name = name.val := by rw [ArgparseOption.name, hname]; rfl
  have hbytes' : opt'.name = name'.val := by rw [ArgparseOption.name, hname']; rfl
  obtain ⟨-, hequals, hplain, -⟩ := wf.plain opt hopt (by simp [hname])
  obtain ⟨-, hequals', hplain', -⟩ := wf.plain opt' hopt' (by simp [hname'])
  rw [hbytes] at hequals hplain
  rw [hbytes'] at hequals' hplain'
  have hsign : ∀ (unset : Bool) {name : List UInt8}, equals ∉ name →
      equals ∉ sign unset ++ name := by
    intro unset name hname hmem
    rcases List.mem_append.mp hmem with hsign | hmem
    · cases unset with
      | false => exact absurd hsign List.not_mem_nil
      | true => exact absurd hsign (by decide)
    · exact hname hmem
  have hnames : sign unset' ++ name'.val = sign unset ++ name.val := by
    rw [← nameOf_append (hsign unset' hequals') hends', ← nameOf_append (hsign unset hequals) hends,
      ← hbody, ← longRest_eq h]
  have hsame : name' = name := by
    cases unset with
    | false =>
        cases unset' with
        | false => exact Subtype.ext hnames
        | true => exact absurd ⟨name'.val, hnames⟩ hplain
    | true =>
        cases unset' with
        | false => exact absurd ⟨name.val, hnames.symm⟩ hplain'
        | true => exact Subtype.ext (List.append_cancel_left hnames)
  exact wf.long opt hopt opt' hopt' (by simp [hname]) (by rw [hname', hname, hsame])

theorem longOpt_of (wf : WellFormed options) (hopt : opt ∈ options) {name : CStr}
    (hname : opt.long_name = some name) {unset : Bool} (hflag : unset = true → opt.IsFlag)
    (hneg : unset = true → opt.noneg = false) {body rest : CStr}
    (hbody : body.val = sign unset ++ name.val ++ rest.val) (hends : Ends rest.val) :
    p.longOpt body options =
      (do
        let p ← getvalue { p with
          optvalue := if rest.val.head? = none then p.optvalue else some (CStr.drop rest 1) }
          opt unset true
        return some p) := by
  have hfind : ∀ table : List (ArgparseOption κ), table ⊆ options → opt ∈ table →
      p.longOpt body table =
        (do
          let p ← getvalue { p with
            optvalue := if rest.val.head? = none then p.optvalue else some (CStr.drop rest 1) }
            opt unset true
          return some p) := by
    intro table htable hmem
    have hmine := longRest_of wf hopt hname hflag hneg hbody
    induction table with
    | nil => exact absurd hmem List.not_mem_nil
    | cons opt' table ih =>
        have hopt' := htable List.mem_cons_self
        have hlater : opt' ≠ opt → _ := fun hne =>
          ih (fun _ h => htable (List.mem_cons_of_mem _ h))
            ((List.mem_cons.mp hmem).resolve_left (Ne.symm hne))
        rw [longOpt]
        by_cases heq : opt' = opt
        · subst heq
          rw [hname]
          simp only [Option.bind_some, hmine]
          rcases hends with hnone | hsome
          · rw [hnone, if_pos rfl]
          · rw [hsome, if_neg (by simp)]
            rfl
        · split
          · exact hlater heq
          · rename_i unset' rest' hrest'
            obtain ⟨name', hname', hrest'⟩ := Option.bind_eq_some_iff.mp hrest'
            have hnot : ¬ Ends rest'.val := fun hends' =>
              heq (eq_of_longRest wf hopt hopt' hname hname' hbody hends hrest' hends')
            split
            · rename_i hnone
              exact absurd (.inl hnone) hnot
            · rename_i hsome
              exact absurd (.inr hsome) hnot
            · exact hlater heq
  exact hfind options (fun _ => id) hopt

/-! ### Items -/

omit [DecidableEq κ] in
theorem val_ofBytes {bytes : List UInt8} (h : 0 ∉ bytes) : (CStr.ofBytes bytes).val = bytes :=
  List.filter_eq_self.mpr fun _ hc => decide_eq_true fun heq => h (heq ▸ hc)

theorem round_group (wf : WellFormed options) (view : View p kept (s :: rest))
    {opts : List (ArgparseOption κ)}
    (hopts : ∀ opt ∈ opts, opt ∈ options ∧ opt.short_name ≠ 0 ∧ opt.IsFlag) (hopt : opt ∈ options)
    (tail : CStr) (htail : tail.val.head? = some opt.short_name)
    (hs : s.val = 0x2d :: (opts.map (·.short_name) ++ tail.val))
    (hlast : ∀ optvalue fuel, shortOpts options (fuel + 1) { p with
      optvalue := optvalue, values := p.values.flags opts } tail = .ok (true, p')) :
    round options flags p = .ok (.inl p'.next) := by
  have hne : tail.val ≠ [] := by
    rintro hnil
    rw [hnil] at htail
    cases htail
  have hsecond : s.val[1]? ≠ some 0x2d := by
    rw [hs]
    cases opts with
    | nil =>
        rw [List.map_nil, List.nil_append, List.getElem?_cons_succ, ← List.head?_eq_getElem?, htail]
        exact fun heq => wf.dash opt hopt (Option.some.inj heq)
    | cons first opts =>
        exact fun heq => wf.dash first (hopts first List.mem_cons_self).1 (Option.some.inj heq)
  have hletters : (CStr.drop s 1).val = opts.map (·.short_name) ++ tail.val := by
    rw [CStr.val_drop, hs]
    rfl
  obtain ⟨optvalue, hgroup⟩ := shortOpts_flags (p := p) wf hopts hletters hne (tail.val.length + 1)
  have hfuel : s.val.length = tail.val.length + 1 + opts.length := by
    rw [hs, List.length_cons, List.length_append, List.length_map]
    omega
  rw [round, view.arg_zero]
  dsimp only
  rw [if_neg, if_pos hsecond, hfuel, hgroup, hlast]
  · rfl
  · rw [hs]
    simp [hne]

theorem round_long (wf : WellFormed options) (view : View p kept (s :: rest)) (hopt : opt ∈ options)
    {name : CStr} (hname : opt.long_name = some name) {unset : Bool}
    (hflag : unset = true → opt.IsFlag) (hneg : unset = true → opt.noneg = false) {behind : CStr}
    (hs : s.val = dashes ++ (sign unset ++ name.val ++ behind.val)) (hends : Ends behind.val)
    (hvalue : getvalue { p with
      optvalue := if behind.val.head? = none then p.optvalue else some (CStr.drop behind 1) }
      opt unset true = .ok p') :
    round options flags p = .ok (.inl p'.next) := by
  have hne : name.val ≠ [] := by
    have hplain := (wf.plain opt hopt (by simp [hname])).1
    rwa [ArgparseOption.name, hname] at hplain
  have hpos := List.length_pos_iff.mpr hne
  have hbody : (CStr.drop s 2).val = sign unset ++ name.val ++ behind.val := by
    rw [CStr.val_drop, hs]
    rfl
  have hlen : 2 < s.val.length := by
    simp only [hs, dashes, List.length_append, List.length_cons]
    omega
  rw [round, view.arg_zero]
  dsimp only
  rw [if_neg, if_neg, if_neg (by omega), longOpt_of wf hopt hname hflag hneg hbody hends, hvalue]
  · rfl
  · rw [hs]
    exact not_not.mpr rfl
  · rw [not_or, not_not]
    refine ⟨?_, by omega⟩
    rw [hs]
    rfl

omit [DecidableEq κ] in
theorem zero_notMem_letters {opts : List (ArgparseOption κ)}
    (hopts : ∀ opt ∈ opts, opt ∈ options ∧ opt.short_name ≠ 0 ∧ opt.IsFlag) {tail : List UInt8}
    (htail : 0 ∉ tail) : 0 ∉ 0x2d :: (opts.map (·.short_name) ++ tail) := by
  intro hmem
  rcases List.mem_cons.mp hmem with hdash | hmem
  · exact absurd hdash (by decide)
  rcases List.mem_append.mp hmem with hmem | hmem
  · obtain ⟨opt, hopt, hzero⟩ := List.mem_map.mp hmem
    exact (hopts opt hopt).2.1 hzero
  · exact htail hmem

theorem item_flags (wf : WellFormed options) {opts : List (ArgparseOption κ)}
    (hitem : ArgparseItem.Valid options (.group opts none))
    (view : View p kept ((ArgparseItem.group opts none).render ++ rest)) :
    ∃ p', round options flags p = .ok (.inl p') ∧ View p' kept rest ∧ p'.optvalue = none ∧
      p'.values = ArgparseItem.apply p.values (.group opts none) := by
  obtain ⟨hopts, hne⟩ := hitem
  obtain rfl | ⟨init, opt, rfl⟩ := List.eq_nil_or_concat opts
  · exact absurd rfl hne
  rw [List.concat_eq_append] at hopts view ⊢
  obtain ⟨hopt, hzero, hflag⟩ := hopts opt (by simp)
  have hinit : ∀ o ∈ init, o ∈ options ∧ o.short_name ≠ 0 ∧ o.IsFlag := fun o ho =>
    hopts o (List.mem_append_left _ ho)
  let tail : CStr := ⟨[opt.short_name], by simpa using hzero.symm⟩
  have hbytes := zero_notMem_letters hinit tail.property
  have hs : (CStr.ofBytes (0x2d :: (init ++ [opt]).map (·.short_name))).val =
      0x2d :: (init.map (·.short_name) ++ tail.val) := by
    rw [List.map_append]
    exact val_ofBytes hbytes
  have hlast : ∀ optvalue fuel, shortOpts options (fuel + 1) { p with
      optvalue := optvalue, values := p.values.flags init } tail = .ok (true, { p with
        optvalue := none, values := (p.values.flags init).flag opt false }) :=
    fun optvalue fuel => shortOpts_flag wf hopt hzero hflag rfl fuel
  refine ⟨_, round_group wf view hinit hopt tail rfl hs hlast, (view.update none _).next, rfl, ?_⟩
  exact (ArgparseValues.flags_concat _ _ _).symm

theorem item_letters (wf : WellFormed options) {opts : List (ArgparseOption κ)} {apart : Bool}
    (hitem : ArgparseItem.Valid options (.group opts (some (opt, s, apart))))
    (view : View p kept ((ArgparseItem.group opts (some (opt, s, apart))).render ++ rest)) :
    ∃ p', round options flags p = .ok (.inl p') ∧ View p' kept rest ∧ p'.optvalue = none ∧
      p'.values = ArgparseItem.apply p.values (.group opts (some (opt, s, apart))) := by
  obtain ⟨hopts, hopt, hzero, htakes, hattached⟩ := hitem
  cases apart with
  | true =>
      let tail : CStr := ⟨[opt.short_name], by simpa using hzero.symm⟩
      have hbytes := zero_notMem_letters hopts tail.property
      have hlast : ∀ optvalue fuel, shortOpts options (fuel + 1) { p with
          optvalue := optvalue, values := p.values.flags opts } tail = .ok (true, { p.next with
            optvalue := none, values := (p.values.flags opts).text opt s }) :=
        fun optvalue fuel =>
          shortOpts_apart wf hopt hzero htakes rfl (view.update optvalue _) fuel
      exact ⟨_, round_group wf view hopts hopt tail rfl (val_ofBytes hbytes) hlast,
        (view.next.update none _).next, rfl, rfl⟩
  | false =>
      have hbytes : 0 ∉ opt.short_name :: s.val := by
        intro hmem
        rcases List.mem_cons.mp hmem with heq | hmem
        · exact hzero heq.symm
        · exact s.property hmem
      let tail : CStr := ⟨opt.short_name :: s.val, hbytes⟩
      have hlast : ∀ optvalue fuel, shortOpts options (fuel + 1) { p with
          optvalue := optvalue, values := p.values.flags opts } tail = .ok (true, { p with
            optvalue := none, values := (p.values.flags opts).text opt s }) :=
        fun optvalue fuel => shortOpts_left wf hopt hzero htakes rfl (hattached rfl) fuel
      exact ⟨_, round_group wf view hopts hopt tail rfl
        (val_ofBytes (zero_notMem_letters hopts hbytes)) hlast, (view.update none _).next, rfl, rfl⟩

omit [DecidableEq κ] in
theorem zero_notMem_long (unset : Bool) (name behind : CStr) :
    0 ∉ dashes ++ (sign unset ++ name.val ++ behind.val) := by
  have hsign : 0 ∉ sign unset := by cases unset <;> decide
  have hdashes : 0 ∉ dashes := by decide
  simp only [List.mem_append, not_or]
  exact ⟨hdashes, ⟨hsign, name.property⟩, behind.property⟩

theorem item_long (wf : WellFormed options) {unset : Bool}
    (hitem : ArgparseItem.Valid options (.long opt unset))
    (view : View p kept ((ArgparseItem.long opt unset).render ++ rest))
    (hleft : p.optvalue = none) :
    ∃ p', round options flags p = .ok (.inl p') ∧ View p' kept rest ∧ p'.optvalue = none ∧
      p'.values = ArgparseItem.apply p.values (.long opt unset) := by
  obtain ⟨hopt, hlong, hflag, hneg⟩ := hitem
  obtain ⟨name, hname⟩ := Option.ne_none_iff_exists'.mp hlong
  have hbytes : opt.name = name.val := by rw [ArgparseOption.name, hname]; rfl
  let behind : CStr := ⟨[], List.not_mem_nil⟩
  have hs : (CStr.ofBytes (dashes ++ (sign unset ++ name.val ++ behind.val))).val =
      dashes ++ (sign unset ++ name.val ++ behind.val) := val_ofBytes (zero_notMem_long _ _ _)
  have hrender : (ArgparseItem.long opt unset).render =
      [CStr.ofBytes (dashes ++ (sign unset ++ name.val ++ behind.val))] := by
    cases unset <;> simp [ArgparseItem.render, hbytes, sign, behind]
  rw [hrender] at view
  have hround : round options flags p = .ok (.inl (Argparse.next _)) :=
    round_long wf view hopt hname (fun _ => hflag) hneg hs (.inl rfl)
      (getvalue_flag hflag unset true)
  exact ⟨_, hround, (view.update _ _).next, hleft, rfl⟩

theorem item_longText (wf : WellFormed options) {apart : Bool}
    (hitem : ArgparseItem.Valid options (.longText opt s apart))
    (view : View p kept ((ArgparseItem.longText opt s apart).render ++ rest))
    (hleft : p.optvalue = none) :
    ∃ p', round options flags p = .ok (.inl p') ∧ View p' kept rest ∧ p'.optvalue = none ∧
      p'.values = ArgparseItem.apply p.values (.longText opt s apart) := by
  obtain ⟨hopt, hlong, htakes⟩ := hitem
  obtain ⟨name, hname⟩ := Option.ne_none_iff_exists'.mp hlong
  have hbytes : opt.name = name.val := by rw [ArgparseOption.name, hname]; rfl
  cases apart with
  | true =>
      let behind : CStr := ⟨[], List.not_mem_nil⟩
      have hs : (CStr.ofBytes (dashes ++ opt.name)).val =
          dashes ++ (sign false ++ name.val ++ behind.val) := by
        have hzero := zero_notMem_long false name behind
        simp only [sign, Bool.false_eq_true, if_false, List.nil_append, behind,
          List.append_nil, hbytes] at hzero ⊢
        exact val_ofBytes hzero
      have hround : round options flags p = .ok (.inl (Argparse.next _)) :=
        round_long wf view hopt hname (by nofun) (by nofun) hs (.inl rfl)
          (getvalue_apart htakes hleft view true)
      exact ⟨_, hround, (view.next.update _ _).next, hleft, rfl⟩
  | false =>
      have hzero : 0 ∉ equals :: s.val := by
        intro hmem
        rcases List.mem_cons.mp hmem with heq | hmem
        · exact absurd heq (by decide)
        · exact s.property hmem
      let behind : CStr := ⟨equals :: s.val, hzero⟩
      have hs : (CStr.ofBytes (dashes ++ (opt.name ++ equals :: s.val))).val =
          dashes ++ (sign false ++ name.val ++ behind.val) := by
        rw [hbytes]
        exact val_ofBytes (zero_notMem_long false name behind)
      have hround : round options flags p = .ok (.inl (Argparse.next _)) :=
        round_long wf view hopt hname (by nofun) (by nofun) hs (.inr rfl)
          (getvalue_left htakes rfl true)
      exact ⟨_, hround, (view.update _ _).next, rfl, rfl⟩

theorem round_item (wf : WellFormed options) (hstop : flags.ARGPARSE_STOP_AT_NON_OPTION = false)
    {item : ArgparseItem κ} (hitem : item.Valid options) (view : View p kept (item.render ++ rest))
    (hleft : p.optvalue = none) :
    ∃ p', round options flags p = .ok (.inl p') ∧ View p' (kept ++ item.words) rest ∧
      p'.optvalue = none ∧ p'.values = item.apply p.values := by
  cases item with
  | word s =>
      have hword : s.val.head? ≠ some 0x2d ∨ s.val.length = 1 := hitem
      refine ⟨_, ?_, view.keep, hleft, rfl⟩
      rw [round, view.arg_zero]
      dsimp only
      rw [if_pos hword, if_neg (by simp [hstop])]
  | group opts text =>
      rw [show (ArgparseItem.group opts text).words = [] from rfl, List.append_nil]
      cases text with
      | none => exact item_flags wf hitem view
      | some text => exact item_letters wf hitem view
  | long opt unset =>
      rw [ArgparseItem.words, List.append_nil]
      exact item_long wf hitem view hleft
  | longText opt s apart =>
      rw [ArgparseItem.words, List.append_nil]
      exact item_longText wf hitem view hleft

theorem drive_items (wf : WellFormed options)
    (hstop : flags.ARGPARSE_STOP_AT_NON_OPTION = false) {items : List (ArgparseItem κ)}
    (hitems : ∀ item ∈ items, item.Valid options)
    (view : View p kept (items.flatMap (·.render) ++ rest)) (hleft : p.optvalue = none) :
    ∃ p', drive options flags p = drive options flags p' ∧
      View p' (kept ++ items.flatMap (·.words)) rest ∧
      p'.values = items.foldl ArgparseItem.apply p.values := by
  induction items generalizing p kept with
  | nil =>
      rw [List.flatMap_nil, List.nil_append] at view
      refine ⟨p, rfl, ?_, rfl⟩
      rwa [List.flatMap_nil, List.append_nil]
  | cons item items ih =>
      rw [List.flatMap_cons, List.append_assoc] at view
      obtain ⟨q, hround, hview, hleft', hvalues⟩ :=
        round_item wf hstop (hitems item List.mem_cons_self) view hleft
      obtain ⟨p', hdrive, hview', hvalues'⟩ :=
        ih (fun i hi => hitems i (List.mem_cons_of_mem _ hi)) hview hleft'
      obtain ⟨s, more, hrender⟩ := item.exists_render
      refine ⟨p', ?_, ?_, ?_⟩
      · rw [hrender, List.cons_append] at view
        rw [drive_round view hview (by simp) hround, hdrive]
      · rwa [List.flatMap_cons, ← List.append_assoc]
      · rw [hvalues', hvalues]
        rfl

/-- What follows the items of a command line: nothing, or `--` and arguments that are read no more.
-/
def ending : Option (List CStr) → List CStr
  | none => []
  | some tail => CStr.ofBytes dashes :: tail

/-- What is left behind `--` is kept, and nothing of it read. -/
theorem drive_ending (tail : Option (List CStr)) (view : View p kept (ending tail)) :
    ∃ q, drive options flags p = .ok q ∧ ∃ kept' rest', View q kept' rest' ∧
      kept' ++ rest' = kept ++ tail.getD [] ∧ q.values = p.values := by
  cases tail with
  | none => exact ⟨p, drive_nil view, _, _, view, rfl, rfl⟩
  | some tail =>
      refine ⟨p.next, drive_last view ?_, _, _, view.next, rfl, rfl⟩
      rw [round, view.arg_zero]
      rfl

theorem parse_of_drive {values : ArgparseValues κ} {prog : CStr} {args : List CStr}
    {q : Argparse κ} (h : drive options flags (start values (prog :: args)) = .ok q)
    (view : View q kept rest) :
    parse options flags values (prog :: args) =
        .ok ((kept ++ rest).length, q.finish, q.values) ∧
      q.finish.take ((kept ++ rest).length + 1) = (kept ++ rest).map some ++ [none] := by
  have hlen : q.cpidx + q.argc = (kept ++ rest).length := by
    rw [view.length_kept, view.argc, List.length_append]
  refine ⟨?_, view.take_finish⟩
  show (do
    let p ← drive options flags (start values (prog :: args))
    return (p.cpidx + p.argc, p.finish, p.values)) = _
  rw [h, ← hlen]
  rfl

/-- Whatever is said with the options of a table whose names are told apart, in whatever order and
style, and with plain arguments in between and after `--`, the values are those that are meant, and
the plain arguments are left in front of the vector, with their number and a NULL behind them. The
options are booleans, bits, integers and strings; the help with its callback is not among those that
are said, and the parser does not stop at a plain argument. -/
theorem parse_render (wf : WellFormed options)
    (hstop : flags.ARGPARSE_STOP_AT_NON_OPTION = false) {items : List (ArgparseItem κ)}
    (hitems : ∀ item ∈ items, item.Valid options) (tail : Option (List CStr))
    (values : ArgparseValues κ) (prog : CStr) :
    let words := items.flatMap (·.words) ++ tail.getD []
    ∃ vec, parse options flags values (prog :: (items.flatMap (·.render) ++ ending tail)) =
        .ok (words.length, vec, items.foldl ArgparseItem.apply values) ∧
      vec.take (words.length + 1) = words.map some ++ [none] := by
  intro words
  obtain ⟨p', hdrive, hview, hvalues⟩ :=
    drive_items wf hstop hitems (view_start values prog _) rfl
  rw [List.nil_append] at hview
  obtain ⟨q, hq, kept, rest, hlast, hwords, hsame⟩ := drive_ending tail hview
  obtain ⟨hparse, hvec⟩ := parse_of_drive (hdrive.trans hq) hlast
  rw [hwords] at hparse hvec
  rw [hsame, hvalues] at hparse
  exact ⟨q.finish, hparse, hvec⟩

/-- `-wu fw.bin x --no-write -- -u` -/
theorem parse_render_update :
    let write : ArgparseOption Bool :=
      ⟨.ARGPARSE_OPT_BOOLEAN, 0x77, some (CStr.ofAscii "write"), some true, false, 0, false⟩
    let update : ArgparseOption Bool :=
      ⟨.ARGPARSE_OPT_STRING, 0x75, some (CStr.ofAscii "update"), some false, false, 0, false⟩
    ∃ vec values, parse [write, update] ⟨false, false⟩ ⟨fun _ => 0, fun _ => none⟩
        (["p", "-wu", "fw.bin", "x", "--no-write", "--", "-u"].map CStr.ofAscii) =
          .ok (2, vec, values) ∧
      values.int true = 0 ∧ values.str false = some (CStr.ofAscii "fw.bin") ∧
      vec.take 3 = [some (CStr.ofAscii "x"), some (CStr.ofAscii "-u"), none] := by
  intro write update
  let group : ArgparseItem Bool := .group [write] (some (update, CStr.ofAscii "fw.bin", true))
  let items : List (ArgparseItem Bool) := [group, .word (CStr.ofAscii "x"), .long write true]
  have wf : WellFormed [write, update] := ⟨by decide, by decide, by decide, by decide⟩
  have hflag : write.IsFlag := ⟨rfl, .inl rfl⟩
  have hgroup : group.Valid [write, update] := by
    refine ⟨?_, List.mem_cons_of_mem _ List.mem_cons_self, by decide,
      ⟨rfl, by decide, .inl rfl⟩, nofun⟩
    intro opt hopt
    rw [List.mem_singleton.mp hopt]
    exact ⟨List.mem_cons_self, by decide, hflag⟩
  have hword : (ArgparseItem.word (CStr.ofAscii "x")).Valid [write, update] := .inl (by decide)
  have hlong : (ArgparseItem.long write true).Valid [write, update] :=
    ⟨List.mem_cons_self, by decide, hflag, fun _ => rfl⟩
  have hitems : ∀ item ∈ items, item.Valid [write, update] := by
    simp only [items, List.forall_mem_cons, List.not_mem_nil, false_implies, implies_true, and_true]
    exact ⟨hgroup, hword, hlong⟩
  have hstop : ArgparseFlags.ARGPARSE_STOP_AT_NON_OPTION ⟨false, false⟩ = false := rfl
  obtain ⟨vec, hparse, hvec⟩ := parse_render wf hstop hitems (some [CStr.ofAscii "-u"])
    ⟨fun _ => 0, fun _ => none⟩ (CStr.ofAscii "p")
  exact ⟨vec, _, hparse, rfl, rfl, hvec⟩

end Argparse

end McuRegWr
