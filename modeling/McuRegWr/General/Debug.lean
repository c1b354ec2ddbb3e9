/-!
# Debug lines

What a call of a print macro of `debug.h` asks for, before `debug_printf` formats it.
-/

namespace McuRegWr

/-- `DBG_LEVEL` -/
inductive DbgLevel where
  | DBG_ERR
  | DBG_WARNING
  | DBG_SYS
  | DBG_INFO
  | DBG_DEBUG
  deriving DecidableEq, Repr

/-- The macro under a call: `DBG_print` ends the line, `DBG_print_fl` also names the place, and
`DBG_printf_raw` prints neither the time nor a line end. -/
inductive DbgForm where
  | print
  | printFl (function : String) (line : Nat)
  | printfRaw
  deriving DecidableEq, Repr

/-- An argument of a format. A `double` is its expression in exact arithmetic. -/
inductive DbgArg where
  | int (n : Int)
  | str (s : String)
  | real (x : Rat)
  deriving DecidableEq, Repr

/-- A call of a print macro. -/
structure DbgLine where
  level : DbgLevel
  form : DbgForm
  s : String
  args : List DbgArg
  deriving DecidableEq, Repr

def dbgInfoln (s : String) (args : List DbgArg) : DbgLine := ⟨.DBG_INFO, .print, s, args⟩

def dbgInforaw (s : String) (args : List DbgArg) : DbgLine := ⟨.DBG_INFO, .printfRaw, s, args⟩

def dbgErrfl (function : String) (line : Nat) (s : String) (args : List DbgArg) : DbgLine :=
  ⟨.DBG_ERR, .printFl function line, s, args⟩

end McuRegWr
