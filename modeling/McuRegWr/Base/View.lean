import McuRegWr.Base.Lower
import McuRegWr.Base.Total

/-!
# Refinement by a view

A program below refines one above, through a view of the state below, if whatever the one above is
sure to come to, the one below comes to. Both worlds leave their answers open, and the one above
says how far.
-/

namespace Base

namespace Prog

variable {I J K : Iface} {α β γ σ τ υ : Type} {W : World I σ} {V : World J τ} {view : σ → τ}

def Refines (W : World I σ) (V : World J τ) (view : σ → τ) (p : Prog I α) (q : Prog J α) : Prop :=
  ∀ s Q, q.Ends V (view s) Q → p.Ends W s fun a s' => Q a (view s')

variable {p : Prog I α} {q : Prog J α}

theorem refines_pure (a : α) : (pure a : Prog I α).Refines W V view (pure a) :=
  fun _ _ h => h

theorem Refines.bind {f : α → Prog I β} {g : α → Prog J β} (h : p.Refines W V view q)
    (hf : ∀ a, (f a).Refines W V view (g a)) : (p >>= f).Refines W V view (q >>= g) := by
  intro s Q hends
  have hq := ends_of_bind hends
  exact (h s _ hq).bind fun a s' hg => hf a s' Q hg

theorem refines_mapM {f : γ → Prog I β} {g : γ → Prog J β} {l : List γ}
    (h : ∀ c ∈ l, (f c).Refines W V view (g c)) : (l.mapM f).Refines W V view (l.mapM g) := by
  induction l with
  | nil => exact refines_pure []
  | cons c l ih =>
      rw [List.mapM_cons, List.mapM_cons]
      have htail := ih fun d hd => h d (List.mem_cons_of_mem c hd)
      exact (h c List.mem_cons_self).bind fun b => htail.bind fun bs => refines_pure _

theorem Refines.trans {U : World K υ} {view' : τ → υ} {r : Prog K α} (h : p.Refines W V view q)
    (h' : q.Refines V U view' r) : p.Refines W U (fun s => view' (view s)) r :=
  fun s Q hends => h s _ (h' (view s) Q hends)

theorem Refines.lower {impl : (o : K.Op) → Prog I (K.Ans o)} {impl' : (o : K.Op) → Prog J (K.Ans o)}
    (h : ∀ o, (impl o).Refines W V view (impl' o)) (r : Prog K α) :
    (r.lower impl).Refines W V view (r.lower impl') := by
  induction r with
  | done a => exact refines_pure a
  | spin => exact fun _ _ hends => hends
  | ask o next ih => exact (h o).bind ih

/-- What the operations of a program come to on top of a world, the program does too. -/
theorem refines_lower {impl : (o : J.Op) → Prog I (J.Ans o)} {P : J.Op → Prop}
    (himpl : ∀ s o, P o → (∃ r t, V (view s) o r t) →
      (impl o).Ends W s fun r s' => V (view s) o r (view s'))
    (hq : q.Asks P) : (q.lower impl).Refines W V view q := by
  induction q with
  | done a => exact refines_pure a
  | spin => exact fun _ _ hends => hends
  | ask o next ih =>
      intro s Q hends
      exact (himpl s o hq.1 hends.1).bind fun r s' answer => ih r (hq.2 r) s' Q (hends.2 r _ answer)

end Prog

end Base
