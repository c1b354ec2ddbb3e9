import Mathlib.Logic.Function.Basic
import McuRegWr.Base.Strtol

/-!
# Options

`argparse.c`, which takes the options out of the command line and leaves the other arguments in
front of the vector they came in.
-/

namespace McuRegWr

open Base

/-- `enum argparse_option_type`. The end of a table is the end of its list. -/
inductive ArgparseOptionType where
  | ARGPARSE_OPT_GROUP
  | ARGPARSE_OPT_BOOLEAN
  | ARGPARSE_OPT_BIT
  | ARGPARSE_OPT_INTEGER
  | ARGPARSE_OPT_STRING
  deriving DecidableEq, Repr

/-- `struct argparse_option`. The places that `value` points to are of the type `κ`, and the only
`callback` is `argparse_help_cb`. -/
structure ArgparseOption (κ : Type) where
  type : ArgparseOptionType
  short_name : UInt8
  long_name : Option CStr
  value : Option κ
  callback : Bool
  data : Int
  /-- `flags & OPT_NONEG` -/
  noneg : Bool
  deriving DecidableEq

/-- `enum argparse_flag` -/
structure ArgparseFlags where
  ARGPARSE_STOP_AT_NON_OPTION : Bool
  ARGPARSE_IGNORE_UNKNOWN_ARGS : Bool

/-- The `int` and the `const char *` at every place. -/
structure ArgparseValues (κ : Type) where
  int : κ → Int
  str : κ → Option CStr

/-- Why a process ends while its options are parsed. -/
inductive ArgparseExit where
  /-- `argparse_help_cb` -/
  | help
  /-- `argparse_error`, by a long name or a short one. -/
  | option (name : CStr ⊕ UInt8) (reason : String)
  | unknown (arg : CStr)
  deriving DecidableEq

/-- The status of the process. -/
def ArgparseExit.status : ArgparseExit → Int
  | .help => 0
  | _ => 1

/-- The internal context of `struct argparse`, with `argv` as an index into the vector that `out`
points to, and the values that the options point to. -/
structure Argparse (κ : Type) where
  argc : Nat
  argv : Nat
  out : List (Option CStr)
  cpidx : Nat
  optvalue : Option CStr
  values : ArgparseValues κ

namespace ArgparseValues

variable {κ : Type} [DecidableEq κ]

def setInt (values : ArgparseValues κ) (place : κ) (v : Int) : ArgparseValues κ :=
  { values with int := Function.update values.int place v }

def setStr (values : ArgparseValues κ) (place : κ) (s : CStr) : ArgparseValues κ :=
  { values with str := Function.update values.str place (some s) }

end ArgparseValues

/-- `prefix_skip` -/
def prefixSkip (str pre : CStr) : Option CStr :=
  if str.val.take pre.val.length = pre.val then some (CStr.drop str pre.val.length) else none

namespace Argparse

variable {κ : Type}

/-- `self->argv[i]`. The parser reads strings only, and not the NULL behind them. -/
def arg (self : Argparse κ) (i : Nat) : CStr :=
  (self.out.getD (self.argv + i) none).getD ⟨[], List.not_mem_nil⟩

/-- `self->argc--, self->argv++` -/
def next (self : Argparse κ) : Argparse κ :=
  { self with argc := self.argc - 1, argv := self.argv + 1 }

/-- `argparse_error` -/
def error {α : Type} (opt : ArgparseOption κ) (long : Bool) (reason : String) :
    Except ArgparseExit α :=
  .error (.option (if long then .inl (opt.long_name.getD ⟨[], List.not_mem_nil⟩)
    else .inr opt.short_name) reason)

/-- The text of an option with a value: what is left of its argument, or else the next argument. -/
def text (self : Argparse κ) (opt : ArgparseOption κ) (long : Bool) :
    Except ArgparseExit (CStr × Argparse κ) :=
  match self.optvalue with
  | some s => .ok (s, { self with optvalue := none })
  | none =>
      if self.argc > 1 then .ok (self.arg 1, self.next)
      else error opt long "requires a value"

/-- The context before the first argument, of an `argv` that begins with the name of the program. -/
def start (values : ArgparseValues κ) (argv : List CStr) : Argparse κ :=
  ⟨argv.length - 1, 1, argv.map some ++ [none], 0, none, values⟩

/-- An `int` that `strtol` has returned to. -/
def toInt32 (n : Int) : Int := (BitVec.ofInt 32 n).toInt

variable [DecidableEq κ]

def setInt (self : Argparse κ) (place : κ) (v : Int) : Argparse κ :=
  { self with values := self.values.setInt place v }

def setStr (self : Argparse κ) (place : κ) (s : CStr) : Argparse κ :=
  { self with values := self.values.setStr place s }

/-- The `switch` of `argparse_getvalue`. A group has no value, and the `assert(0)` is out of reach.
-/
def store (self : Argparse κ) (opt : ArgparseOption κ) (unset long : Bool) :
    Except ArgparseExit (Argparse κ) :=
  match opt.value with
  | none => .ok self
  | some place =>
      match opt.type with
      | .ARGPARSE_OPT_GROUP => .ok self
      | .ARGPARSE_OPT_BOOLEAN =>
          let v := if unset then self.values.int place - 1 else self.values.int place + 1
          .ok (self.setInt place (if v < 0 then 0 else v))
      | .ARGPARSE_OPT_BIT =>
          let v := BitVec.ofInt 32 (self.values.int place)
          let data := BitVec.ofInt 32 opt.data
          .ok (self.setInt place (if unset then v &&& ~~~data else v ||| data).toInt)
      | .ARGPARSE_OPT_STRING => do
          let (s, self) ← self.text opt long
          return self.setStr place s
      | .ARGPARSE_OPT_INTEGER => do
          let (s, self) ← self.text opt long
          if CStr.strtolErange s.val 0 then error opt long "numerical result out of range"
          else if CStr.strtolRest s.val 0 ≠ [] then error opt long "expects an integer value"
          else return self.setInt place (toInt32 (CStr.strtol s.val 0).1)

/-- `argparse_getvalue` -/
def getvalue (self : Argparse κ) (opt : ArgparseOption κ) (unset long : Bool) :
    Except ArgparseExit (Argparse κ) := do
  let self ← self.store opt unset long
  if opt.callback then .error .help else return self

/-- `self->optvalue[1] ? self->optvalue + 1 : NULL` -/
def tailOf (s : CStr) : Option CStr := if s.val.length > 1 then some (CStr.drop s 1) else none

/-- `argparse_short_opt`, with what is left of the argument in `optvalue`. Nothing when the option
is unknown. -/
def shortOpt (self : Argparse κ) (optvalue : CStr) :
    List (ArgparseOption κ) → Except ArgparseExit (Option (Argparse κ))
  | [] => .ok none
  | opt :: options =>
      if opt.short_name = optvalue.val.headD 0 then do
        let self ← getvalue { self with optvalue := tailOf optvalue } opt false false
        return some self
      else shortOpt self optvalue options

/-- What stands behind the name of an option in `arg`, and whether `no-` stands before it. -/
def longRest (opt : ArgparseOption κ) (name arg : CStr) : Option (Bool × CStr) :=
  match prefixSkip arg name with
  | some rest => some (false, rest)
  | none =>
      if opt.noneg then none
      else if opt.type ≠ .ARGPARSE_OPT_BOOLEAN ∧ opt.type ≠ .ARGPARSE_OPT_BIT then none
      else
        match prefixSkip arg (CStr.ofAscii "no-") with
        | none => none
        | some arg => (prefixSkip arg name).map (true, ·)

/-- `argparse_long_opt` of `arg`, which is `self->argv[0] + 2`. Nothing when the option is unknown.
-/
def longOpt (self : Argparse κ) (arg : CStr) :
    List (ArgparseOption κ) → Except ArgparseExit (Option (Argparse κ))
  | [] => .ok none
  | opt :: options =>
      match opt.long_name.bind fun name => longRest opt name arg with
      | none => longOpt self arg options
      | some (unset, rest) =>
          match rest.val.head? with
          | none => do
              let self ← self.getvalue opt unset true
              return some self
          | some 0x3d => do
              let self ← getvalue { self with optvalue := some (CStr.drop rest 1) } opt unset true
              return some self
          | some _ => longOpt self arg options

/-- The loop over a group of short options. Nothing when one is unknown. Every round but the last
shortens `optvalue`, so the fuel is never used up. -/
def shortOpts (options : List (ArgparseOption κ)) :
    Nat → Argparse κ → CStr → Except ArgparseExit (Bool × Argparse κ)
  | 0, self, _ => .ok (true, self)
  | fuel + 1, self, optvalue => do
      match ← self.shortOpt optvalue options with
      | none => return (false, { self with optvalue := some optvalue })
      | some self =>
          match self.optvalue with
          | none => return (true, self)
          | some optvalue => shortOpts options fuel self optvalue

/-- An argument that is no known option. -/
def unknown (self : Argparse κ) (flags : ArgparseFlags) :
    Except ArgparseExit (Argparse κ ⊕ Argparse κ) :=
  if flags.ARGPARSE_IGNORE_UNKNOWN_ARGS then .ok (.inl self.next)
  else .error (.unknown (self.arg 0))

/-- One round of the loop of `argparse_parse`: it goes on, or leaves the loop. -/
def round (options : List (ArgparseOption κ)) (flags : ArgparseFlags) (self : Argparse κ) :
    Except ArgparseExit (Argparse κ ⊕ Argparse κ) :=
  let arg := self.arg 0
  if arg.val.head? ≠ some 0x2d ∨ arg.val.length = 1 then
    if flags.ARGPARSE_STOP_AT_NON_OPTION then .ok (.inr self)
    else .ok (.inl (next { self with
      out := self.out.set self.cpidx (some arg), cpidx := self.cpidx + 1 }))
  else if arg.val[1]? ≠ some 0x2d then do
    let (known, self) ← shortOpts options arg.val.length self (CStr.drop arg 1)
    if known then return .inl self.next
    self.unknown flags
  else if arg.val.length = 2 then .ok (.inr self.next)
  else do
    match ← self.longOpt (CStr.drop arg 2) options with
    | some self => return .inl self.next
    | none => self.unknown flags

/-- The loop of `argparse_parse`. Every round takes an argument, so the fuel is never used up. -/
def loop (options : List (ArgparseOption κ)) (flags : ArgparseFlags) :
    Nat → Argparse κ → Except ArgparseExit (Argparse κ)
  | 0, self => .ok self
  | fuel + 1, self =>
      if self.argc = 0 then .ok self
      else do
        match ← round options flags self with
        | .inl self => loop options flags fuel self
        | .inr self => return self

/-- The `memmove` at the end of `argparse_parse`, and the NULL behind it. -/
def finish (self : Argparse κ) : List (Option CStr) :=
  (self.out.take self.cpidx ++ (self.out.drop self.argv).take self.argc ++
    self.out.drop (self.cpidx + self.argc)).set (self.cpidx + self.argc) none

/-- `argparse_parse` after `argparse_init`: the result, the vector and the values it leaves. -/
def parse (options : List (ArgparseOption κ)) (flags : ArgparseFlags) (values : ArgparseValues κ)
    (argv : List CStr) : Except ArgparseExit (Nat × List (Option CStr) × ArgparseValues κ) := do
  let self ← loop options flags (argv.length - 1) (start values argv)
  return (self.cpidx + self.argc, self.finish, self.values)

end Argparse

end McuRegWr
