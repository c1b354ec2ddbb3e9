import Mathlib.Logic.Relation
import McuRegWr.Base.World

/-!
# Clients that share a world

Any number of clients, each of which makes calls one after the other. A call is a program, and the
operations of all programs interleave: every operation is one step of the pool, and so is everything
the environment does between them. A call returns with the answer to its last operation.
-/

namespace Base

open Prog

/-- A client at work: its call, what it has asked and been answered so far, and what is left. -/
structure Client (I : Iface) (Call α : Type) where
  call : Call
  trace : List I.Event
  rest : Prog I α

/-- A call that has returned. -/
structure Return (I : Iface) (ι Call α : Type) where
  client : ι
  call : Call
  trace : List I.Event
  result : α

structure Pool (I : Iface) (ι Call α σ : Type) where
  shared : σ
  clients : ι → Option (Client I Call α)
  /-- All operations in the order they were answered. -/
  history : List (ι × I.Event)
  log : List (Return I ι Call α)

namespace Pool

variable {I : Iface} {ι Call α σ : Type} [DecidableEq ι] (W : World I σ) (env : σ → σ → Prop)
  (code : Call → Prog I α) (may : ι → Call → Prop)

inductive Step : Pool I ι Call α σ → Pool I ι Call α σ → Prop where
  | start {p : Pool I ι Call α σ} {i : ι} {c : Call} (idle : p.clients i = none) (hmay : may i c) :
      Step p { p with clients := Function.update p.clients i (some ⟨c, [], code c⟩) }
  | work {p : Pool I ι Call α σ} {i : ι} {c : Call} {t : List I.Event} {o : I.Op}
      {next : I.Ans o → Prog I α} {r : I.Ans o} {s' : σ}
      (busy : p.clients i = some ⟨c, t, .ask o next⟩) (answer : W p.shared o r s')
      (more : ∀ a, next r ≠ .done a) :
      Step p ⟨s', Function.update p.clients i (some ⟨c, t ++ [⟨o, r⟩], next r⟩),
        p.history ++ [(i, ⟨o, r⟩)], p.log⟩
  | finish {p : Pool I ι Call α σ} {i : ι} {c : Call} {t : List I.Event} {o : I.Op}
      {next : I.Ans o → Prog I α} {r : I.Ans o} {s' : σ} {a : α}
      (busy : p.clients i = some ⟨c, t, .ask o next⟩) (answer : W p.shared o r s')
      (last : next r = .done a) :
      Step p ⟨s', Function.update p.clients i none, p.history ++ [(i, ⟨o, r⟩)],
        p.log ++ [⟨i, c, t ++ [⟨o, r⟩], a⟩]⟩
  | env {p : Pool I ι Call α σ} {s' : σ} (henv : env p.shared s') :
      Step p { p with shared := s' }

/-- The pools that can be reached. -/
abbrev Reachable : Pool I ι Call α σ → Pool I ι Call α σ → Prop :=
  Relation.ReflTransGen (Step W env code may)

variable {W env code may}

theorem Reachable.invariant {Inv : Pool I ι Call α σ → Prop}
    (hstep : ∀ p q, Inv p → Step W env code may p q → Inv q) {p q : Pool I ι Call α σ}
    (h : Reachable W env code may p q) (hp : Inv p) : Inv q := by
  induction h with
  | refl => exact hp
  | tail _ step ih => exact hstep _ _ ih step

theorem forall_update {P : ι → Client I Call α → Prop} {clients : ι → Option (Client I Call α)}
    {i : ι} {new : Option (Client I Call α)} (hnew : ∀ cl, new = some cl → P i cl)
    (hold : ∀ j ≠ i, ∀ cl, clients j = some cl → P j cl) :
    ∀ j cl, Function.update clients i new j = some cl → P j cl := by
  intro j cl hj
  by_cases hij : j = i
  · subst hij
    rw [Function.update_self] at hj
    exact hnew cl hj
  · rw [Function.update_of_ne hij] at hj
    exact hold j hij cl hj

/-! ### What each call has done -/

/-- Every running call got to where it is by its trace, and every call that returned ran by its
trace. -/
structure Traced (code : Call → Prog I α) (p : Pool I ι Call α σ) : Prop where
  running : ∀ i cl, p.clients i = some cl → Reach (code cl.call) cl.trace cl.rest
  returned : ∀ e ∈ p.log, Runs (code e.call) e.trace e.result

theorem Traced.step {p q : Pool I ι Call α σ} (h : Traced code p)
    (hstep : Step W env code may p q) : Traced code q := by
  cases hstep with
  | start idle hmay =>
      refine ⟨forall_update (fun cl hcl => ?_) fun j _ => h.running j, h.returned⟩
      obtain rfl := Option.some.inj hcl
      exact .refl _
  | @work i c t o next r s' busy answer more =>
      refine ⟨forall_update (fun cl hcl => ?_) fun j _ => h.running j, h.returned⟩
      obtain rfl := Option.some.inj hcl
      exact (h.running _ _ busy).snoc r
  | @finish i c t o next r s' a busy answer last =>
      refine ⟨forall_update (fun cl hcl => by simp at hcl) fun j _ => h.running j, fun e he => ?_⟩
      rcases List.mem_append.mp he with he | he
      · exact h.returned e he
      · have hreach := (h.running _ _ busy).snoc r
        rw [last] at hreach
        rw [List.mem_singleton.mp he]
        exact hreach
  | env henv => exact ⟨h.running, h.returned⟩

/-! ### The invariant rule -/

/-- What a call does to an invariant of the shared state and the log: each of its operations keeps
it, and the last one keeps it with the call's return entered. -/
def Keeps (W : World I σ) (Inv : σ → List (Return I ι Call α) → Prop) (i : ι) (c : Call) :
    Prog I α → List I.Event → Prop
  | .done _, _ => True
  | .spin, _ => True
  | .ask o next, t => ∀ s log r s', Inv s log → W s o r s' →
      (∀ a, next r = .done a → Inv s' (log ++ [⟨i, c, t ++ [⟨o, r⟩], a⟩])) ∧
      ((∀ a, next r ≠ .done a) → Inv s' log) ∧
      Keeps W Inv i c (next r) (t ++ [⟨o, r⟩])

/-- An invariant that every call and the environment keep, with every client keeping it in what it
has left to do. -/
structure Kept (W : World I σ) (Inv : σ → List (Return I ι Call α) → Prop)
    (p : Pool I ι Call α σ) : Prop where
  inv : Inv p.shared p.log
  running : ∀ i cl, p.clients i = some cl → Keeps W Inv i cl.call cl.rest cl.trace

theorem Kept.step {Inv : σ → List (Return I ι Call α) → Prop}
    (hcode : ∀ i c, may i c → Keeps W Inv i c (code c) [])
    (henv : ∀ s s' log, Inv s log → env s s' → Inv s' log) {p q : Pool I ι Call α σ}
    (h : Kept W Inv p) (hstep : Step W env code may p q) : Kept W Inv q := by
  cases hstep with
  | @start i c idle hmay =>
      refine ⟨h.inv, forall_update (fun cl hcl => ?_) fun j _ => h.running j⟩
      obtain rfl := Option.some.inj hcl
      exact hcode i c hmay
  | @work i c t o next r s' busy answer more =>
      obtain ⟨-, hmore, hrest⟩ := h.running _ _ busy _ _ _ _ h.inv answer
      refine ⟨hmore more, forall_update (fun cl hcl => ?_) fun j _ => h.running j⟩
      obtain rfl := Option.some.inj hcl
      exact hrest
  | @finish i c t o next r s' a busy answer last =>
      obtain ⟨hlast, -, -⟩ := h.running _ _ busy _ _ _ _ h.inv answer
      exact ⟨hlast a last, forall_update (fun cl hcl => by simp at hcl) fun j _ => h.running j⟩
  | env hmove => exact ⟨henv _ _ _ h.inv hmove, h.running⟩

/-- Nothing is asked of the other clients: an invariant of the shared state and the log that the
calls and the environment keep holds in every reachable pool. -/
theorem Reachable.keeps {Inv : σ → List (Return I ι Call α) → Prop}
    (hcode : ∀ i c, may i c → Keeps W Inv i c (code c) [])
    (henv : ∀ s s' log, Inv s log → env s s' → Inv s' log) {p q : Pool I ι Call α σ}
    (h : Reachable W env code may p q) (hidle : ∀ i, p.clients i = none)
    (hp : Inv p.shared p.log) : Inv q.shared q.log := by
  have hstart : Kept W Inv p := ⟨hp, fun i cl hi => by rw [hidle i] at hi; simp at hi⟩
  exact (Reachable.invariant (fun _ _ hkept hstep => hkept.step hcode henv hstep) h hstart).inv

/-! ### Schedules

A device that computes its answers turns a list of clients, each to make one operation, into a run.
-/

/-- Let a client begin a call. -/
def begin (code : Call → Prog I α) (p : Pool I ι Call α σ) (i : ι) (c : Call) : Pool I ι Call α σ :=
  { p with clients := Function.update p.clients i (some ⟨c, [], code c⟩) }

/-- Let a client make one operation. -/
def advance (dev : σ → (o : I.Op) → Option (I.Ans o × σ)) (p : Pool I ι Call α σ) (i : ι) :
    Pool I ι Call α σ :=
  match p.clients i with
  | some ⟨c, t, .ask o next⟩ =>
      match dev p.shared o with
      | some (r, s') =>
          match next r with
          | .done a => ⟨s', Function.update p.clients i none, p.history ++ [(i, ⟨o, r⟩)],
              p.log ++ [⟨i, c, t ++ [⟨o, r⟩], a⟩]⟩
          | rest => ⟨s', Function.update p.clients i (some ⟨c, t ++ [⟨o, r⟩], rest⟩),
              p.history ++ [(i, ⟨o, r⟩)], p.log⟩
      | none => p
  | _ => p

variable {dev : σ → (o : I.Op) → Option (I.Ans o × σ)}

theorem reachable_begin {p : Pool I ι Call α σ} {i : ι} {c : Call} (hidle : p.clients i = none)
    (hmay : may i c) : Reachable W env code may p (p.begin code i c) :=
  .single (.start hidle hmay)

theorem reachable_advance (hdev : ∀ s o r s', dev s o = some (r, s') → W s o r s')
    (p : Pool I ι Call α σ) (i : ι) : Reachable W env code may p (p.advance dev i) := by
  rw [advance]
  split
  · rename_i c t o next hbusy
    split
    · rename_i r s' hanswer
      split
      · rename_i a hlast
        exact .single (.finish hbusy (hdev _ _ _ _ hanswer) hlast)
      · rename_i hmore
        exact .single (.work hbusy (hdev _ _ _ _ hanswer) hmore)
    · exact .refl
  · exact .refl

theorem reachable_schedule (hdev : ∀ s o r s', dev s o = some (r, s') → W s o r s')
    (sched : List ι) (p : Pool I ι Call α σ) :
    Reachable W env code may p (sched.foldl (advance dev) p) := by
  induction sched generalizing p with
  | nil => exact .refl
  | cons i sched ih => exact (reachable_advance hdev p i).trans (ih _)

end Pool

end Base
