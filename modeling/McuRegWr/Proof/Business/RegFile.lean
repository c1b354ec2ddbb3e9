import McuRegWr.RearviewMcu

/-!
# Plain registers

Registers that hold what was last written to them. Every access succeeds and is one step.
-/

namespace McuRegWr

open Base Prog

abbrev RegFile : Type := UInt16 → UInt8

namespace RegFile

def load (m : RegFile) (addr : UInt16) (n : Nat) : List UInt8 :=
  (List.range n).map fun i => m (addr + UInt16.ofNat i)

def store (m : RegFile) (addr : UInt16) (bytes : List UInt8) : RegFile := fun a =>
  if (a - addr).toNat < bytes.length then bytes.getD (a - addr).toNat 0 else m a

def answer (m : RegFile) : (o : RegOp) → Option (RegOp.Ans o × RegFile)
  | .readReg addr cnt _ => some (.ok ⟨m.load addr cnt.toNat, by simp [load]⟩, m)
  | .writeReg addr data _ => some (.ok (), m.store addr data)
  | _ => none

def world : World RegI RegFile := fun m o r m' => m.answer o = some (r, m')

variable {m m' : RegFile} {addr : UInt16} {timeout : UInt32}

theorem length_load (m : RegFile) (addr : UInt16) (n : Nat) : (m.load addr n).length = n := by
  simp [load]

theorem load_one (m : RegFile) (addr : UInt16) : m.load addr 1 = [m addr] := by
  simp [load]

theorem store_self (m : RegFile) (addr : UInt16) (b : UInt8) : m.store addr [b] addr = b := by
  simp [store]

theorem store_of_le (m : RegFile) {addr a : UInt16} {bytes : List UInt8}
    (h : bytes.length ≤ (a - addr).toNat) : m.store addr bytes a = m a :=
  if_neg (by omega)

theorem load_store {bytes : List UInt8} (h : bytes.length ≤ 65536) :
    (m.store addr bytes).load addr bytes.length = bytes := by
  apply List.ext_getElem
  · exact length_load _ _ _
  · intro i hi hi'
    have hoff : (addr + UInt16.ofNat i - addr).toNat = i := by
      rw [UInt16.add_comm, UInt16.add_sub_cancel, UInt16.toNat_ofNat']
      omega
    simp only [load, store, List.getElem_map, List.getElem_range, hoff, if_pos hi']
    rw [List.getD_eq_getElem?_getD, List.getElem?_eq_getElem hi', Option.getD_some]

theorem load_store_of_disjoint {addr' : UInt16} {bytes : List UInt8} {n : Nat}
    (h : ∀ i < n, bytes.length ≤ (addr' + UInt16.ofNat i - addr).toNat) :
    (m.store addr bytes).load addr' n = m.load addr' n := by
  apply List.map_congr_left
  intro i hi
  exact store_of_le m (h i (List.mem_range.mp hi))

/-! ### One access -/

theorem exec_readReg {data data' : List UInt8} {cnt : UInt16} {ret : Int} :
    Exec world (RVMcu.readReg addr data cnt timeout) m (ret, data') m' ↔
      ret = 0 ∧ data' = storeAt data 0 (m.load addr cnt.toNat) ∧ m' = m := by
  simp only [RVMcu.readReg, req_eq, ask_bind, done_bind]
  constructor
  · intro h
    obtain ⟨r, s', answer, rest⟩ := exec_ask.mp h
    obtain ⟨rfl, rfl⟩ := Prod.mk.inj (Option.some.inj answer)
    obtain ⟨heq, rfl⟩ := exec_done.mp rest
    obtain ⟨rfl, rfl⟩ := Prod.mk.inj heq
    exact ⟨rfl, rfl, rfl⟩
  · rintro ⟨rfl, rfl, rfl⟩
    exact exec_ask.mpr ⟨_, _, rfl, .refl _ _⟩

theorem exec_writeReg {data : List UInt8} {cnt : UInt16} {ret : Int} :
    Exec world (RVMcu.writeReg addr data cnt timeout) m ret m' ↔
      ret = 0 ∧ m' = m.store addr (data.take cnt.toNat) := by
  simp only [RVMcu.writeReg, req_eq, ask_bind, done_bind]
  constructor
  · intro h
    obtain ⟨r, s', answer, rest⟩ := exec_ask.mp h
    obtain ⟨rfl, rfl⟩ := Prod.mk.inj (Option.some.inj answer)
    exact exec_done.mp rest
  · rintro ⟨rfl, rfl⟩
    exact exec_ask.mpr ⟨_, _, rfl, .refl _ _⟩

theorem exec_readReg_one {b : UInt8} {data' : List UInt8} {ret : Int} :
    Exec world (RVMcu.readReg addr [b] 1 timeout) m (ret, data') m' ↔
      ret = 0 ∧ data' = [m addr] ∧ m' = m := by
  rw [exec_readReg, show (1 : UInt16).toNat = 1 from rfl, load_one]
  rfl

theorem exec_writeReg_one {b : UInt8} {ret : Int} :
    Exec world (RVMcu.writeReg addr [b] 1 timeout) m ret m' ↔ ret = 0 ∧ m' = m.store addr [b] :=
  exec_writeReg

end RegFile

end McuRegWr
