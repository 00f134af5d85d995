import Praefectus.Program.Histories

/-!
# Programs in a setting with a state

The answers of a setting depend on its state, and some questions change it. What holds of a
program from a state holds after every history that the setting admits.
-/

namespace Prog

variable {I : Interface} {α β ε σ : Type}

/-- The answers that a state admits, and the state after each. -/
structure Setting (I : Interface) (σ : Type) where
  admits : σ → Event I → Prop
  after : σ → Event I → σ

namespace Setting

variable (w : Setting I σ)

/-- A history is admitted answer by answer. -/
def Admitted : σ → List (Event I) → Prop
  | _, [] => True
  | s, e :: trace => w.admits s e ∧ Admitted (w.after s e) trace

def afterAll (s : σ) (trace : List (Event I)) : σ := trace.foldl w.after s

/-- From a state, whatever the admitted answers, the last state and the result satisfy `Q`. -/
def Leads (Q : σ → α → Prop) : Prog I α → σ → Prop
  | .ret value, s => Q s value
  | .ask op next, s => ∀ ans, w.admits s ⟨op, ans⟩ → Leads Q (next ans) (w.after s ⟨op, ans⟩)

variable {w} {Q R : σ → α → Prop} {s : σ}

theorem leads_mono {p : Prog I α} (leads : w.Leads Q p s) (weaker : ∀ s a, Q s a → R s a) :
    w.Leads R p s := by
  induction p generalizing s with
  | ret value => exact weaker s value leads
  | ask op next ih => exact fun ans admitted => ih ans (leads ans admitted)

theorem leads_always (p : Prog I α) (s : σ) : w.Leads (fun _ _ => True) p s := by
  induction p generalizing s with
  | ret value => trivial
  | ask op next ih => exact fun ans _ => ih ans _

theorem leads_bind {p : Prog I α} {f : α → Prog I β} {Q : σ → β → Prop}
    (leads : w.Leads (fun s a => w.Leads Q (f a) s) p s) : w.Leads Q (p >>= f) s := by
  induction p generalizing s with
  | ret value => exact leads
  | ask op next ih => exact fun ans admitted => ih ans (leads ans admitted)

/-- A step that may fail, and the rest if it does not. -/
theorem leads_try {x : ExceptT ε (Prog I) α} {f : α → ExceptT ε (Prog I) β}
    {Q : σ → Except ε β → Prop}
    (leads : w.Leads (fun s result => match result with
      | .ok a => w.Leads Q (f a).run s
      | .error e => Q s (.error e)) x.run s) : w.Leads Q (x >>= f).run s := by
  apply leads_bind (leads_mono leads _)
  rintro s (e | a) known
  · exact known
  · exact known

/-- A completed run. -/
theorem leads_run {p : Prog I α} {trace : List (Event I)} {value : α} (leads : w.Leads Q p s)
    (run : Steps p trace (.ret value)) (admitted : w.Admitted s trace) :
    Q (w.afterAll s trace) value := by
  induction trace generalizing p s with
  | nil =>
    cases run
    exact leads
  | cons e trace ih =>
    cases run with
    | step ans run => exact ih (leads ans admitted.1) run admitted.2

end Setting

end Prog
