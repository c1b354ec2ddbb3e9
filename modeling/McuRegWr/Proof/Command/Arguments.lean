import McuRegWr.General.Argparse
import McuRegWr.Proof.Command.Access

/-!
# The vector of the arguments

The parser moves the arguments that are no options to the front of the vector it reads them from.
Its writes stay behind its reads, so what it leaves is some of the arguments, whole and in order;
and a value changes only for an argument that names its option.
-/

namespace McuRegWr

open Base

/-- `--`, `=` and `no-`. -/
def dashes : List UInt8 := [0x2d, 0x2d]
def equals : UInt8 := 0x3d
def negation : List UInt8 := (CStr.ofAscii "no-").val

namespace Argparse

variable {κ : Type}

/-- In front of the vector are the arguments that are kept, and from `argv` on those that are still
to be read. -/
structure View (p : Argparse κ) (kept rest : List CStr) : Prop where
  argc : p.argc = rest.length
  reading : p.out.drop p.argv = rest.map some ++ [none]
  written : p.out.take p.cpidx = kept.map some
  behind : p.cpidx < p.argv
  length : p.argv + p.argc + 1 = p.out.length

variable {p p' : Argparse κ} {kept rest : List CStr} {s : CStr}

theorem View.length_kept (view : View p kept rest) : p.cpidx = kept.length := by
  have hlen := congrArg List.length view.written
  rw [List.length_take, List.length_map] at hlen
  have hbehind := view.behind
  have hlength := view.length
  omega

theorem View.getD_out (view : View p kept rest) (i : Nat) :
    p.out.getD (p.argv + i) none = (rest.map some ++ [none]).getD i none := by
  rw [← view.reading, List.getD_eq_getElem?_getD, List.getD_eq_getElem?_getD, List.getElem?_drop]

theorem View.arg_zero (view : View p kept (s :: rest)) : p.arg 0 = s := by
  rw [arg, view.getD_out]
  rfl

theorem View.arg_one {s' : CStr} (view : View p kept (s :: s' :: rest)) : p.arg 1 = s' := by
  rw [arg, view.getD_out]
  rfl

theorem View.next (view : View p kept (s :: rest)) : View p.next kept rest where
  argc := by
    rw [Argparse.next, view.argc]
    rfl
  reading := by
    show p.out.drop (p.argv + 1) = _
    rw [← List.drop_drop, view.reading]
    rfl
  written := view.written
  behind := Nat.lt_succ_of_lt view.behind
  length := by
    have hlength := view.length
    have hargc := view.argc
    rw [List.length_cons] at hargc
    show p.argv + 1 + (p.argc - 1) + 1 = p.out.length
    omega

theorem View.keep (view : View p kept (s :: rest)) :
    View (Argparse.next { p with
      out := p.out.set p.cpidx (some s), cpidx := p.cpidx + 1 }) (kept ++ [s]) rest := by
  have hbehind := view.behind
  have hlength := view.length
  have hnext := view.next
  refine ⟨hnext.argc, ?_, ?_, Nat.succ_lt_succ hbehind, ?_⟩
  · show (p.out.set p.cpidx (some s)).drop (p.argv + 1) = _
    rw [List.drop_set_of_lt (by omega)]
    exact hnext.reading
  · show (p.out.set p.cpidx (some s)).take (p.cpidx + 1) = _
    rw [List.take_add_one, List.take_set_of_le (Nat.le_refl _), view.written,
      List.getElem?_set_self (by omega), List.map_append]
    rfl
  · show p.argv + 1 + (p.argc - 1) + 1 = (p.out.set p.cpidx (some s)).length
    rw [List.length_set]
    exact hnext.length

theorem View.take_finish (view : View p kept rest) :
    p.finish.take ((kept ++ rest).length + 1) = (kept ++ rest).map some ++ [none] := by
  have hcpidx := view.length_kept
  have hargc := view.argc
  have hlength := view.length
  have hbehind := view.behind
  have hmoved : (p.out.drop p.argv).take p.argc = rest.map some := by
    rw [view.reading, hargc, ← List.length_map (f := some), List.take_left]
  have hlen : p.cpidx + p.argc = ((kept ++ rest).map some).length := by
    rw [List.length_map, List.length_append, hcpidx, hargc]
  obtain ⟨old, behind, hdrop⟩ : ∃ old behind, p.out.drop (p.cpidx + p.argc) = old :: behind :=
    List.exists_cons_of_length_pos (by rw [List.length_drop]; omega)
  rw [finish, view.written, hmoved, ← List.map_append, hdrop, hlen,
    List.set_append_right _ _ (Nat.le_refl _), Nat.sub_self, List.set_cons_zero,
    ← List.length_map (f := some), List.take_length_add_append]
  rfl

theorem View.length_finish (view : View p kept rest) :
    p.finish.length = p.out.length := by
  have hbehind := view.behind
  have hlength := view.length
  simp only [finish, List.length_set, List.length_append, List.length_take, List.length_drop]
  omega

theorem view_start (values : ArgparseValues κ) (prog : CStr) (args : List CStr) :
    View (start values (prog :: args)) [] args where
  argc := rfl
  reading := rfl
  written := rfl
  behind := Nat.zero_lt_one
  length := by
    simp [start]
    omega

/-! ### What an argument does -/

def takesText (opt : ArgparseOption κ) : Bool :=
  opt.value.isSome &&
    (opt.type = .ARGPARSE_OPT_STRING || opt.type = .ARGPARSE_OPT_INTEGER)

/-- The options of a group of letters, which ends at a letter that is unknown or takes a text. -/
def letters (options : List (ArgparseOption κ)) : List UInt8 → List (ArgparseOption κ)
  | [] => []
  | c :: s =>
      match options.find? (·.short_name = c) with
      | none => []
      | some opt => opt :: if takesText opt then [] else letters options s

/-- A name ends where the bytes end, or at `=`. -/
def Ends (rest : List UInt8) : Prop := rest.head? = none ∨ rest.head? = some equals

/-- The bytes begin with the name, and it ends there. -/
def Heads (name s : List UInt8) : Prop := name <+: s ∧ Ends (s.drop name.length)

/-- The long name of an option, with `no-` before it where the option can be negated. -/
def Spells (s : List UInt8) (opt : ArgparseOption κ) : Prop :=
  ∃ name ∈ opt.long_name, Heads name.val s ∨
    opt.noneg = false ∧ (opt.type = .ARGPARSE_OPT_BOOLEAN ∨ opt.type = .ARGPARSE_OPT_BIT) ∧
      Heads (negation ++ name.val) s

/-- An argument names an option of the table, in a group of letters or by its long name. -/
def Names (options : List (ArgparseOption κ)) (arg : CStr) (opt : ArgparseOption κ) : Prop :=
  arg.val.head? = some 0x2d ∧ arg.val[1]? ≠ some 0x2d ∧ opt ∈ letters options arg.val.tail ∨
    dashes <+: arg.val ∧ opt ∈ options ∧ Spells (arg.val.drop 2) opt

instance : DecidablePred Ends := fun _ => inferInstanceAs (Decidable (_ ∨ _))

instance (name s : List UInt8) : Decidable (Heads name s) :=
  inferInstanceAs (Decidable (_ ∧ _))

instance (s : List UInt8) (opt : ArgparseOption κ) : Decidable (Spells s opt) :=
  inferInstanceAs (Decidable (∃ name ∈ opt.long_name, _))

instance [DecidableEq κ] (options : List (ArgparseOption κ)) (arg : CStr)
    (opt : ArgparseOption κ) : Decidable (Names options arg opt) :=
  inferInstanceAs (Decidable (_ ∨ _))

variable {options : List (ArgparseOption κ)} {named : ArgparseOption κ → Prop}
  {opt : ArgparseOption κ} {p p' p'' : Argparse κ}

/-- From `p` to `p'` the parser reads on, but not to the end, and leaves all values alone but those
of the options that are named. -/
structure Reads (options : List (ArgparseOption κ)) (named : ArgparseOption κ → Prop)
    (p p' : Argparse κ) : Prop where
  out : p'.out = p.out
  cpidx : p'.cpidx = p.cpidx
  read : ∃ d, p'.argv = p.argv + d ∧ p.argc = p'.argc + d
  last : 0 < p.argc → 0 < p'.argc
  values : ∀ k, (∀ opt ∈ options, named opt → opt.value ≠ some k) →
    p'.values.int k = p.values.int k ∧ p'.values.str k = p.values.str k

theorem Reads.refl (p : Argparse κ) : Reads options named p p :=
  ⟨rfl, rfl, ⟨0, rfl, rfl⟩, id, fun _ _ => ⟨rfl, rfl⟩⟩

theorem Reads.trans (h : Reads options named p p') (h' : Reads options named p' p'') :
    Reads options named p p'' where
  out := h'.out.trans h.out
  cpidx := h'.cpidx.trans h.cpidx
  read := by
    obtain ⟨d, hargv, hargc⟩ := h.read
    obtain ⟨d', hargv', hargc'⟩ := h'.read
    exact ⟨d + d', by omega, by omega⟩
  last hpos := h'.last (h.last hpos)
  values k hk := by
    have hfirst := h.values k hk
    have hsecond := h'.values k hk
    exact ⟨hsecond.1.trans hfirst.1, hsecond.2.trans hfirst.2⟩

theorem Reads.optvalue (p : Argparse κ) (s : Option CStr) :
    Reads options named p { p with optvalue := s } :=
  ⟨rfl, rfl, ⟨0, rfl, rfl⟩, id, fun _ _ => ⟨rfl, rfl⟩⟩

theorem Reads.view (h : Reads options named p p') (view : View p kept rest) (hrest : rest ≠ []) :
    ∃ rest', View p' kept rest' ∧ rest' <:+ rest ∧ rest' ≠ [] := by
  obtain ⟨d, hargv, hargc⟩ := h.read
  have hargc' := view.argc
  have hbehind := view.behind
  have hlength := view.length
  have hlast := h.last (hargc' ▸ List.length_pos_iff.mpr hrest)
  refine ⟨rest.drop d, ⟨?_, ?_, ?_, ?_, ?_⟩, List.drop_suffix d rest, ?_⟩
  · rw [List.length_drop]
    omega
  · rw [h.out, hargv, ← List.drop_drop, view.reading,
      List.drop_append_of_le_length (by rw [List.length_map]; omega), List.map_drop]
  · rw [h.out, h.cpidx]
    exact view.written
  · rw [h.cpidx]
    omega
  · rw [h.out]
    omega
  · rw [List.ne_nil_iff_length_pos, List.length_drop]
    omega

theorem reads_text {long : Bool} (h : p.text opt long = .ok (s, p')) :
    Reads options named p p' ∧ p'.optvalue = none := by
  rw [text] at h
  split at h
  · simp only [Except.ok.injEq, Prod.mk.injEq] at h
    obtain ⟨-, rfl⟩ := h
    exact ⟨.optvalue p none, rfl⟩
  · rename_i hnone
    split at h
    · simp only [Except.ok.injEq, Prod.mk.injEq] at h
      obtain ⟨-, rfl⟩ := h
      rename_i hargc
      refine ⟨⟨rfl, rfl, ⟨1, rfl, ?_⟩, fun _ => ?_, fun _ _ => ⟨rfl, rfl⟩⟩, hnone⟩
      · show p.argc = p.argc - 1 + 1
        omega
      · show 0 < p.argc - 1
        omega
    · simp [error] at h

theorem tailOf_eq {s' : CStr} (h : tailOf s = some s') :
    s'.val = s.val.drop 1 ∧ s'.val ≠ [] := by
  rw [tailOf] at h
  split at h
  · cases h
    rename_i hlen
    refine ⟨rfl, List.ne_nil_of_length_pos ?_⟩
    rw [CStr.drop, List.length_drop]
    omega
  · cases h

theorem prefix_of_prefixSkip {pre : CStr} {rest : CStr} (h : prefixSkip s pre = some rest) :
    pre.val <+: s.val ∧ rest.val = s.val.drop pre.val.length := by
  rw [prefixSkip] at h
  split at h
  · rename_i htake
    cases h
    exact ⟨htake ▸ List.take_prefix _ _, rfl⟩
  · cases h

theorem prefixSkip_eq {str pre rest : CStr} (h : prefixSkip str pre = some rest) :
    str.val = pre.val ++ rest.val := by
  obtain ⟨hpre, hrest⟩ := prefix_of_prefixSkip h
  rw [hrest]
  exact (List.prefix_iff_eq_append.mp hpre).symm

theorem spells_of_longRest {name body rest : CStr} {unset : Bool}
    (hname : opt.long_name = some name) (h : longRest opt name body = some (unset, rest))
    (hend : Ends rest.val) : Spells body.val opt := by
  refine ⟨name, hname, ?_⟩
  rw [longRest] at h
  split at h
  · rename_i hskip
    cases h
    rw [prefixSkip_eq hskip]
    exact .inl ⟨List.prefix_append _ _, by rwa [List.drop_left]⟩
  · split at h
    · cases h
    rename_i hneg
    split at h
    · cases h
    rename_i htype
    split at h
    · cases h
    rename_i hno
    obtain ⟨r, hskip, heq⟩ := Option.map_eq_some_iff.mp h
    cases heq
    refine .inr ⟨Bool.not_eq_true _ ▸ hneg, by rwa [not_and_or, not_not, not_not] at htype, ?_⟩
    have hbody : body.val = negation ++ name.val ++ rest.val := by
      rw [prefixSkip_eq hno, prefixSkip_eq hskip, ← List.append_assoc]
      rfl
    rw [hbody]
    exact ⟨List.prefix_append _ _, by rwa [List.drop_left]⟩

variable [DecidableEq κ]

theorem reads_setInt {place : κ} (hopt : opt ∈ options) (hnamed : named opt)
    (hplace : opt.value = some place) (v : Int) : Reads options named p (p.setInt place v) := by
  refine ⟨rfl, rfl, ⟨0, rfl, rfl⟩, id, fun k hk => ⟨?_, rfl⟩⟩
  apply Function.update_of_ne
  rintro rfl
  exact hk opt hopt hnamed hplace

theorem reads_setStr {place : κ} (hopt : opt ∈ options) (hnamed : named opt)
    (hplace : opt.value = some place) (s : CStr) : Reads options named p (p.setStr place s) := by
  refine ⟨rfl, rfl, ⟨0, rfl, rfl⟩, id, fun k hk => ⟨rfl, ?_⟩⟩
  apply Function.update_of_ne
  rintro rfl
  exact hk opt hopt hnamed hplace

/-- A value reads at most its text, and leaves what is left of the argument or nothing of it. -/
theorem reads_store {unset long : Bool} (hopt : opt ∈ options) (hnamed : named opt)
    (h : p.store opt unset long = .ok p') :
    Reads options named p p' ∧
      (takesText opt = false ∧ p'.optvalue = p.optvalue ∨ p'.optvalue = none) := by
  rw [store] at h
  split at h
  · rename_i hvalue
    cases h
    exact ⟨.refl p, .inl ⟨by simp [takesText, hvalue], rfl⟩⟩
  rename_i place hvalue
  split at h
  · rename_i htype
    cases h
    exact ⟨.refl p, .inl ⟨by simp [takesText, htype], rfl⟩⟩
  · rename_i htype
    cases h
    exact ⟨reads_setInt hopt hnamed hvalue _, .inl ⟨by simp [takesText, htype], rfl⟩⟩
  · rename_i htype
    cases h
    exact ⟨reads_setInt hopt hnamed hvalue _, .inl ⟨by simp [takesText, htype], rfl⟩⟩
  · obtain ⟨⟨s, q⟩, htext, hq⟩ := MainConfig.bind_eq_ok h
    cases hq
    have hread : Reads options named p q ∧ q.optvalue = none := reads_text htext
    exact ⟨hread.1.trans (reads_setStr hopt hnamed hvalue s), .inr hread.2⟩
  · obtain ⟨⟨s, q⟩, htext, hq⟩ := MainConfig.bind_eq_ok h
    have hread : Reads options named p q ∧ q.optvalue = none := reads_text htext
    dsimp only at hq
    split at hq
    · cases hq
    split at hq
    · cases hq
    · cases hq
      exact ⟨hread.1.trans (reads_setInt hopt hnamed hvalue _), .inr hread.2⟩

theorem reads_getvalue {unset long : Bool} (hopt : opt ∈ options) (hnamed : named opt)
    (h : p.getvalue opt unset long = .ok p') :
    Reads options named p p' ∧
      (takesText opt = false ∧ p'.optvalue = p.optvalue ∨ p'.optvalue = none) := by
  obtain ⟨q, hq, h⟩ := MainConfig.bind_eq_ok h
  split at h
  · cases h
  · cases h
    exact reads_store hopt hnamed hq

/-- A short option is the first of the table with the first letter of what is left of the argument,
and leaves the other letters unless it takes a text. -/
theorem reads_shortOpt (hnamed : ∀ opt, options.find? (·.short_name = s.val.headD 0) = some opt →
      named opt)
    {table : List (ArgparseOption κ)} (htable : ∀ opt ∈ table, opt ∈ options)
    (hfind : table.find? (·.short_name = s.val.headD 0) =
      options.find? (·.short_name = s.val.headD 0))
    (h : p.shortOpt s table = .ok (some p')) :
    Reads options named p p' ∧ ∃ opt, options.find? (·.short_name = s.val.headD 0) = some opt ∧
      ∀ s', p'.optvalue = some s' → takesText opt = false ∧ tailOf s = some s' := by
  induction table with
  | nil => cases h
  | cons opt table ih =>
      rw [shortOpt] at h
      split at h
      · rename_i hname
        rw [List.find?_cons_of_pos (by simpa using hname)] at hfind
        obtain ⟨q, hq, h⟩ := MainConfig.bind_eq_ok h
        cases h
        have hopt := htable opt List.mem_cons_self
        have hread := reads_getvalue hopt (hnamed opt hfind.symm) hq
        refine ⟨(Reads.optvalue p _).trans hread.1, opt, hfind.symm, fun s' hs' => ?_⟩
        rcases hread.2 with ⟨hflag, hsame⟩ | hnone
        · exact ⟨hflag, hsame.symm.trans hs'⟩
        · rw [hnone] at hs'
          cases hs'
      · rename_i hname
        rw [List.find?_cons_of_neg (by simpa using hname)] at hfind
        exact ih (fun opt hmem => htable opt (List.mem_cons_of_mem _ hmem)) hfind h

/-- The short options that are read are those of the letters. -/
theorem reads_shortOpts (hnamed : ∀ opt ∈ letters options s.val, named opt) (hs : s.val ≠ [])
    {fuel : Nat} {known : Bool} (h : shortOpts options fuel p s = .ok (known, p')) :
    Reads options named p p' := by
  induction fuel generalizing p s with
  | zero =>
      cases h
      exact .refl _
  | succ fuel ih =>
      rw [shortOpts] at h
      obtain ⟨found, hfound, h⟩ := MainConfig.bind_eq_ok h
      cases found with
      | none =>
          cases h
          exact .optvalue p _
      | some q =>
          obtain ⟨c, t, hct⟩ := List.exists_cons_of_ne_nil hs
          have hletters : ∀ opt, options.find? (·.short_name = s.val.headD 0) = some opt →
              letters options s.val = opt :: if takesText opt then [] else letters options t := by
            intro opt hfind
            rw [hct, List.headD_cons] at hfind
            rw [hct, letters, hfind]
          obtain ⟨hread, opt, hfind, hleft⟩ := reads_shortOpt
            (fun opt hfind => hnamed opt (hletters opt hfind ▸ List.mem_cons_self)) (fun _ => id)
            rfl hfound
          dsimp only at h
          split at h
          · cases h
            exact hread
          · rename_i s' hs'
            obtain ⟨hflag, htail⟩ := hleft s' hs'
            obtain ⟨hdrop, hne⟩ := tailOf_eq htail
            rw [hct, List.drop_one, List.tail_cons] at hdrop
            refine hread.trans (ih (fun opt' hopt' => hnamed opt' ?_) hne h)
            rw [hletters opt hfind, if_neg (by simp [hflag]), ← hdrop]
            exact List.mem_cons_of_mem _ hopt'

theorem reads_longOpt {body : CStr} (hnamed : ∀ opt ∈ options, Spells body.val opt → named opt)
    {table : List (ArgparseOption κ)} (htable : ∀ opt ∈ table, opt ∈ options)
    (h : p.longOpt body table = .ok (some p')) : Reads options named p p' := by
  induction table with
  | nil => cases h
  | cons opt table ih =>
      have hopt := htable opt List.mem_cons_self
      have hnext := ih fun opt hmem => htable opt (List.mem_cons_of_mem _ hmem)
      rw [longOpt] at h
      split at h
      · exact hnext h
      · rename_i unset rest hrest
        obtain ⟨name, hname, hrest⟩ := Option.bind_eq_some_iff.mp hrest
        split at h
        · rename_i hend
          have hnames := hnamed opt hopt (spells_of_longRest hname hrest (.inl hend))
          obtain ⟨q, hq, h⟩ := MainConfig.bind_eq_ok h
          cases h
          exact (reads_getvalue hopt hnames hq).1
        · rename_i hend
          have hnames := hnamed opt hopt (spells_of_longRest hname hrest (.inr hend))
          obtain ⟨q, hq, h⟩ := MainConfig.bind_eq_ok h
          cases h
          exact (Reads.optvalue p _).trans (reads_getvalue hopt hnames hq).1
        · exact hnext h

/-! ### The loop -/

variable {flags : ArgparseFlags} {args : List CStr}

/-- What the parser has done of the arguments `args` when it has come from `p` to `p'`. -/
structure Parsed (options : List (ArgparseOption κ)) (args : List CStr) (p p' : Argparse κ)
    (kept rest kept' rest' : List CStr) : Prop where
  view : View p' kept' rest'
  left : (kept' ++ rest').Sublist (kept ++ rest)
  out : p'.out.length = p.out.length
  values : ∀ k, (∀ opt ∈ options, ∀ arg ∈ args, Names options arg opt → opt.value ≠ some k) →
    p'.values.int k = p.values.int k ∧ p'.values.str k = p.values.str k

theorem parsed_round (view : View p kept (s :: rest)) (hargs : s ∈ args)
    {r : Argparse κ ⊕ Argparse κ} (h : round options flags p = .ok r) :
    ∃ p' kept' rest', Parsed options args p p' kept (s :: rest) kept' rest' ∧
      (r = .inr p' ∨ r = .inl p' ∧ rest' <:+ rest) := by
  have hsame : ∀ k, (∀ opt ∈ options, ∀ arg ∈ args, Names options arg opt → opt.value ≠ some k) →
      p.values.int k = p.values.int k ∧ p.values.str k = p.values.str k := fun _ _ => ⟨rfl, rfl⟩
  -- An option has been read: what is left begins with its last argument.
  have hoption : ∀ p', Reads options (Names options s) p p' → ∃ rest',
      Parsed options args p p'.next kept (s :: rest) kept rest' ∧ rest' <:+ rest := by
    intro p' hread
    obtain ⟨rest', hview, hsuffix, hne⟩ := hread.view view (List.cons_ne_nil _ _)
    obtain ⟨s', rest', rfl⟩ := List.exists_cons_of_ne_nil hne
    have htail : rest' <:+ rest := by
      rcases List.suffix_cons_iff.mp hsuffix with heq | hlater
      · exact (List.cons.inj heq).2 ▸ List.suffix_refl _
      · exact (List.suffix_cons s' rest').trans hlater
    refine ⟨rest', ⟨hview.next, ?_, congrArg List.length hread.out, fun k hk => ?_⟩, htail⟩
    · exact (htail.sublist.cons s).append_left kept
    · exact hread.values k fun opt hopt hname => hk opt hopt s hargs hname
  -- An unknown one is passed over.
  have hunknown : ∀ p', Reads options (Names options s) p p' → p'.unknown flags = .ok r →
      ∃ p' kept' rest', Parsed options args p p' kept (s :: rest) kept' rest' ∧
        (r = .inr p' ∨ r = .inl p' ∧ rest' <:+ rest) := by
    intro p' hread h
    rw [unknown] at h
    split at h
    · cases h
      obtain ⟨rest', hparsed, hsuffix⟩ := hoption p' hread
      exact ⟨_, _, rest', hparsed, .inr ⟨rfl, hsuffix⟩⟩
    · cases h
  rw [round, view.arg_zero] at h
  dsimp only at h
  split at h
  · split at h
    · cases h
      exact ⟨p, kept, s :: rest, ⟨view, List.Sublist.refl _, rfl, hsame⟩, .inl rfl⟩
    · cases h
      refine ⟨_, kept ++ [s], rest, ⟨view.keep, ?_, List.length_set, hsame⟩,
        .inr ⟨rfl, List.suffix_refl _⟩⟩
      rw [List.append_assoc]
      exact List.Sublist.refl _
  rename_i hdash
  rw [not_or, not_not] at hdash
  obtain ⟨hhead, hlen⟩ := hdash
  split at h
  · rename_i hsecond
    obtain ⟨⟨known, p'⟩, hshort, h⟩ := MainConfig.bind_eq_ok h
    have hread : Reads options (Names options s) p p' := by
      refine reads_shortOpts (fun opt hmem => .inl ⟨hhead, hsecond, ?_⟩) ?_ hshort
      · rwa [← List.drop_one]
      · apply List.ne_nil_of_length_pos
        have hpos := List.length_pos_iff.mpr (List.head?_eq_some_iff.mp hhead |>.elim fun t ht =>
          ht ▸ List.cons_ne_nil _ _)
        rw [CStr.drop, List.length_drop]
        omega
    dsimp only at h
    split at h
    · cases h
      obtain ⟨rest', hparsed, hsuffix⟩ := hoption p' hread
      exact ⟨_, _, rest', hparsed, .inr ⟨rfl, hsuffix⟩⟩
    · exact hunknown p' hread h
  split at h
  · cases h
    obtain ⟨rest', hparsed, hsuffix⟩ := hoption p (.refl p)
    exact ⟨_, _, rest', hparsed, .inl rfl⟩
  · rename_i hsecond _
    have hdashes : dashes <+: s.val := by
      obtain ⟨t, ht⟩ := List.head?_eq_some_iff.mp hhead
      rw [not_not, ht, List.getElem?_cons_succ, ← List.head?_eq_getElem?] at hsecond
      obtain ⟨t', ht'⟩ := List.head?_eq_some_iff.mp hsecond
      exact ⟨t', by rw [ht, ht']; rfl⟩
    obtain ⟨found, hlong, h⟩ := MainConfig.bind_eq_ok h
    cases found with
    | none => exact hunknown p (.refl p) h
    | some p' =>
        cases h
        have hread : Reads options (Names options s) p p' :=
          reads_longOpt (fun opt hopt hspells => .inr ⟨hdashes, hopt, hspells⟩) (fun _ => id) hlong
        obtain ⟨rest', hparsed, hsuffix⟩ := hoption p' hread
        exact ⟨_, _, rest', hparsed, .inr ⟨rfl, hsuffix⟩⟩

theorem parsed_loop (view : View p kept rest) (hargs : rest ⊆ args) {fuel : Nat}
    (h : loop options flags fuel p = .ok p') :
    ∃ kept' rest', Parsed options args p p' kept rest kept' rest' := by
  induction fuel generalizing p kept rest with
  | zero =>
      cases h
      exact ⟨kept, rest, view, List.Sublist.refl _, rfl, fun _ _ => ⟨rfl, rfl⟩⟩
  | succ fuel ih =>
      rw [loop] at h
      split at h
      · cases h
        exact ⟨kept, rest, view, List.Sublist.refl _, rfl, fun _ _ => ⟨rfl, rfl⟩⟩
      rename_i hargc
      obtain ⟨s, rest, rfl⟩ : ∃ s rest', rest = s :: rest' := by
        apply List.exists_cons_of_length_pos
        rw [← view.argc]
        omega
      obtain ⟨r, hround, h⟩ := MainConfig.bind_eq_ok h
      obtain ⟨q, kept', rest', hparsed, hr⟩ := parsed_round view (hargs List.mem_cons_self) hround
      rcases hr with rfl | ⟨rfl, hsuffix⟩
      · cases h
        exact ⟨kept', rest', hparsed⟩
      · obtain ⟨kept'', rest'', hlater⟩ := ih hparsed.view
          (fun a ha => hargs (List.mem_cons_of_mem _ (hsuffix.subset ha))) h
        refine ⟨kept'', rest'', hlater.view, hlater.left.trans hparsed.left,
          hlater.out.trans hparsed.out, fun k hk => ?_⟩
        have hfirst := hparsed.values k hk
        have hsecond := hlater.values k hk
        exact ⟨hsecond.1.trans hfirst.1, hsecond.2.trans hfirst.2⟩

/-- A value that no argument names the option of is as it was. -/
theorem parse_values {values values' : ArgparseValues κ} {prog : CStr} {n : Nat}
    {vec : List (Option CStr)}
    (h : parse options flags values (prog :: args) = .ok (n, vec, values')) (k : κ)
    (hk : ∀ opt ∈ options, ∀ arg ∈ args, Names options arg opt → opt.value ≠ some k) :
    values'.int k = values.int k ∧ values'.str k = values.str k := by
  obtain ⟨p', hloop, h⟩ := MainConfig.bind_eq_ok h
  cases h
  obtain ⟨kept, rest, hparsed⟩ :=
    parsed_loop (view_start values prog args) (List.Subset.refl args) hloop
  exact hparsed.values k hk

/-- A command line that is parsed leaves in front of its vector, with their number and a NULL behind
them, some of its arguments, whole and in their order, for all that the parser writes into the
vector it reads. A value that no argument names the option of is as it was. -/
theorem parse_keeps {values values' : ArgparseValues κ} {prog : CStr} {n : Nat}
    {vec : List (Option CStr)}
    (h : parse options flags values (prog :: args) = .ok (n, vec, values')) :
    (∃ kept : List CStr, kept.Sublist args ∧ n = kept.length ∧
      vec.take (n + 1) = kept.map some ++ [none] ∧ vec.length = args.length + 2) ∧
    ∀ k, (∀ opt ∈ options, ∀ arg ∈ args, Names options arg opt → opt.value ≠ some k) →
      values'.int k = values.int k ∧ values'.str k = values.str k := by
  refine ⟨?_, parse_values h⟩
  obtain ⟨p', hloop, h⟩ := MainConfig.bind_eq_ok h
  cases h
  obtain ⟨kept, rest, hparsed⟩ :=
    parsed_loop (view_start values prog args) (List.Subset.refl args) hloop
  have hview := hparsed.view
  have hlen : p'.cpidx + p'.argc = (kept ++ rest).length := by
    rw [hview.length_kept, hview.argc, List.length_append]
  refine ⟨kept ++ rest, hparsed.left, hlen, ?_, ?_⟩
  · rw [hlen]
    exact hview.take_finish
  · rw [hview.length_finish, hparsed.out]
    simp [start]

/-- An option that takes the argument behind it, and an argument that is none. -/
theorem parse_keeps_update :
    let update : ArgparseOption Unit :=
      ⟨.ARGPARSE_OPT_STRING, 0x75, some (CStr.ofAscii "update"), some (), false, 0, false⟩
    ∃ vec values, parse [update] ⟨false, false⟩ ⟨fun _ => 0, fun _ => none⟩
        (["p", "-u", "fw.bin", "x"].map CStr.ofAscii) = .ok (1, vec, values) ∧
      ∃ kept : List CStr, kept.Sublist (["-u", "fw.bin", "x"].map CStr.ofAscii) ∧
        vec.take 2 = kept.map some ++ [none] := by
  intro update
  obtain ⟨vec, values, h⟩ : ∃ vec values, parse [update] ⟨false, false⟩ ⟨fun _ => 0, fun _ => none⟩
      (["p", "-u", "fw.bin", "x"].map CStr.ofAscii) = .ok (1, vec, values) := ⟨_, _, rfl⟩
  obtain ⟨⟨kept, hkept, -, hvec, -⟩, -⟩ := parse_keeps h
  exact ⟨vec, values, h, kept, hkept, hvec⟩

end Argparse

end McuRegWr
