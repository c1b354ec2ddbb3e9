import Mathlib.Data.List.Forall2
import McuRegWr.Base.World

/-!
# Histories

A world that remembers the operations and answers so far, whatever they are, and so turns a
statement about every point of every run into a guard. `InOrder` says that certain events are in a
history, one after the other.
-/

namespace Base

namespace Prog

variable {I : Iface} {α : Type}

/-- Every answer is possible, and the state is the history. -/
def recording : World I (List I.Event) := fun h o r h' => h' = h ++ [⟨o, r⟩]

theorem steps_recording {p q : Prog I α} {t : List I.Event} (run : Reach p t q)
    (h : List I.Event) : Steps recording p h q (h ++ t) := by
  induction run generalizing h with
  | refl =>
      rw [List.append_nil]
      exact .refl _ _
  | @ask o next r t q _ ih =>
      rw [List.append_cons]
      exact Steps.ask (r := r) rfl (ih _)

theorem Reach.exists_ask {p q : Prog I α} {t u : List I.Event} {e : I.Event}
    (run : Reach p (t ++ e :: u) q) : ∃ next, Reach p t (.ask e.1 next) := by
  induction t generalizing p with
  | nil =>
      cases run with
      | ask _ => exact ⟨_, .refl _⟩
  | cons f t ih =>
      cases run with
      | ask rest =>
          obtain ⟨next, hnext⟩ := ih rest
          exact ⟨next, .ask hnext⟩

variable {G : List I.Event → I.Op → Prop} {Q : α → List I.Event → Prop} {h : List I.Event}

/-- What is guarded in every history holds of every event of a run, by the events before it. -/
theorem wlp_event {p q : Prog I α} (hp : p.wlp recording G Q []) {t u : List I.Event} {e : I.Event}
    (run : Reach p (t ++ e :: u) q) : G t e.1 := by
  obtain ⟨next, hnext⟩ := run.exists_ask
  exact wlp_guard hp (steps_recording hnext [])

theorem wlp_recording {o : I.Op} {next : I.Ans o → Prog I α} (hG : G h o)
    (hnext : ∀ r, (next r).wlp recording G Q (h ++ [⟨o, r⟩])) :
    (Prog.ask o next).wlp recording G Q h := by
  refine ⟨hG, fun r h' hh => ?_⟩
  obtain rfl := hh
  exact hnext r

/-- Every answer is possible, and the state is what a monitor makes of the events. -/
def watching {σ : Type} (after : σ → I.Event → σ) : World I σ := fun s o r s' => s' = after s ⟨o, r⟩

section

variable {σ : Type} {after : σ → I.Event → σ} {G : σ → I.Op → Prop} {Q : α → σ → Prop} {s : σ}

theorem steps_watching {p q : Prog I α} {t : List I.Event} (run : Reach p t q) (s : σ) :
    Steps (watching after) p s q (t.foldl after s) := by
  induction run generalizing s with
  | refl => exact .refl _ _
  | @ask o next r t q _ ih => exact Steps.ask (r := r) rfl (ih _)

/-- What is guarded in every state of the monitor holds of every event of a run. -/
theorem wlp_watched {p q : Prog I α} (hp : p.wlp (watching after) G Q s) {t u : List I.Event}
    {e : I.Event} (run : Reach p (t ++ e :: u) q) : G (t.foldl after s) e.1 := by
  obtain ⟨next, hnext⟩ := run.exists_ask
  exact wlp_guard hp (steps_watching hnext s)

theorem wlp_watching {o : I.Op} {next : I.Ans o → Prog I α} (hG : G s o)
    (hnext : ∀ r, (next r).wlp (watching after) G Q (after s ⟨o, r⟩)) :
    (Prog.ask o next).wlp (watching after) G Q s := by
  refine ⟨hG, fun r s' hs => ?_⟩
  obtain rfl := hs
  exact hnext r

theorem Asks.wlp_watching {P : I.Op → Prop} {p : Prog I α} (hp : p.Asks P) (hG : ∀ o, P o → G s o)
    (hkeep : ∀ o r, P o → after s ⟨o, r⟩ = s) (hQ : ∀ a, Q a s) :
    p.wlp (watching after) G Q s := by
  induction p with
  | done a => exact hQ a
  | spin => trivial
  | ask o next ih =>
      refine Prog.wlp_watching (hG o hp.1) fun r => ?_
      rw [hkeep o r hp.1]
      exact ih r (hp.2 r)

end

/-- A program whose operations all keep `K` and meet the guard where `K` holds. -/
theorem Asks.wlp_recording {P : I.Op → Prop} {K : List I.Event → Prop} {p : Prog I α}
    (hp : p.Asks P) (hG : ∀ h o, K h → P o → G h o)
    (hK : ∀ h o r, K h → P o → K (h ++ [⟨o, r⟩])) (hh : K h) :
    p.wlp recording G (fun _ t => K t) h := by
  induction p generalizing h with
  | done a => exact hh
  | spin => trivial
  | ask o next ih =>
      exact Prog.wlp_recording (hG h o hh hp.1) fun r => ih r (hp.2 r) (hK h o r hh hp.1)

end Prog

/-! ### Order -/

variable {α : Type} {Ps : List (α → Prop)} {h : List α}

/-- Elements that meet the predicates `Ps` are in `h`, in this order. -/
def InOrder (Ps : List (α → Prop)) (h : List α) : Prop :=
  ∃ es, es.Sublist h ∧ List.Forall₂ (fun P e => P e) Ps es

theorem InOrder.nil (h : List α) : InOrder [] h := ⟨[], List.nil_sublist _, .nil⟩

theorem InOrder.append (hP : InOrder Ps h) (t : List α) : InOrder Ps (h ++ t) := by
  obtain ⟨es, hes, hall⟩ := hP
  exact ⟨es, hes.trans (List.sublist_append_left _ _), hall⟩

/-- What comes last comes after everything before. -/
theorem InOrder.snoc (hP : InOrder Ps h) {P : α → Prop} {e : α} (he : P e) :
    InOrder (Ps ++ [P]) (h ++ [e]) := by
  obtain ⟨es, hes, hall⟩ := hP
  exact ⟨es ++ [e], hes.append (List.Sublist.refl _), List.rel_append hall (.cons he .nil)⟩

end Base
