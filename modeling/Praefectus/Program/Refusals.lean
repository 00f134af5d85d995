import Praefectus.Program.Served
import Praefectus.Program.Verdicts

/-!
# Programs that refuse

A program refuses when no run of it asks a question that has an effect and no run of it
returns a value. A single history that gets as far as an effect shows that it does not.
-/

namespace Prog

variable {I : Interface} {α β ε : Type} {effect : I.Op → Prop}

/-- Whatever the answers, nothing with an effect is asked for and no value is returned. -/
def Refuses (effect : I.Op → Prop) (x : ExceptT ε (Prog I) α) : Prop :=
  ∀ trace p, Steps x.run trace p → (∀ e ∈ trace, ¬ effect e.op) ∧ ∀ value, p ≠ .ret (.ok value)

/-- Some history of the program has an effect. -/
def Attempts (effect : I.Op → Prop) (x : ExceptT ε (Prog I) α) : Prop :=
  ∃ trace p, Steps x.run trace p ∧ ∃ e ∈ trace, effect e.op

/-- Some history of the program ends with a value that satisfies `Q`. -/
abbrev Completes (Q : α → Prop) (x : ExceptT ε (Prog I) α) : Prop :=
  Succeeds (fun _ => True) Q x

theorem attempts_not_refuses {x : ExceptT ε (Prog I) α} (attempts : Attempts effect x) :
    ¬ Refuses effect x := by
  intro refuses
  obtain ⟨trace, p, run, e, member, effective⟩ := attempts
  exact (refuses trace p run).1 e member effective

/-! ### Refusing -/

/-- Forbids every question that has an effect. -/
def idle (effect : I.Op → Prop) : Monitor I Unit where
  learn _ _ := ()
  allows _ op := ¬ effect op

theorem refuses_of_judged {x : ExceptT ε (Prog I) α}
    (judged : Judged (idle effect) (fun _ _ => False) (fun _ _ => True) x ()) :
    Refuses effect x := by
  intro trace p run
  constructor
  · intro e member
    obtain ⟨before, after, rfl⟩ := List.append_of_mem member
    exact judged_asks judged run
  · intro value ended
    rw [ended] at run
    exact judged_run judged run

theorem refuses_throw {e : ε} : Refuses effect (throw e : ExceptT ε (Prog I) α) :=
  refuses_of_judged (judged_throw trivial)

/-- A question without an effect, after which every branch refuses. -/
theorem judged_idle_ask {op : I.Op} {err : ε → Unit → Prop} {ok : β → Unit → Prop}
    {f : I.Ans op → ExceptT ε (Prog I) β} (harmless : ¬ effect op)
    (rest : ∀ ans, Judged (idle effect) ok err (f ans) ()) :
    Judged (idle effect) ok err
      ((monadLift (perform op : Prog I (I.Ans op)) : ExceptT ε (Prog I) (I.Ans op)) >>= f) () :=
  judged_bind (judged_ask harmless rest)

/-- What would follow a program that refuses is never asked for. -/
theorem judged_idle_first {x : ExceptT ε (Prog I) α} {f : α → ExceptT ε (Prog I) β}
    (refuses : Judged (idle effect) (fun _ _ => False) (fun _ _ => True) x ()) :
    Judged (idle effect) (fun _ _ => False) (fun _ _ => True) (x >>= f) () :=
  judged_bind (judged_mono refuses (fun _ _ never => never.elim) fun _ _ => id)

/-- No run of a program that refuses ends with a value. -/
theorem Refuses.never {x : ExceptT ε (Prog I) α} (refuses : Refuses effect x)
    {trace : List (Event I)} {value : α} (run : Steps x.run trace (.ret (.ok value))) : False :=
  (refuses trace _ run).2 value rfl

/-! ### Getting as far as an effect -/

theorem steps_bind_left {p q : Prog I α} {trace : List (Event I)} (f : α → Prog I β)
    (run : Steps p trace q) : Steps (p >>= f) trace (q >>= f) := by
  induction run with
  | refl => exact .refl _
  | step ans _ ih => exact .step ans ih

/-- Whatever follows, the history of the first program is one of both. -/
theorem steps_try_left {x : ExceptT ε (Prog I) α} {p : Prog I (Except ε α)}
    {trace : List (Event I)} (f : α → ExceptT ε (Prog I) β) (run : Steps x.run trace p) :
    ∃ q, Steps (x >>= f).run trace q := by
  rw [run_bind]
  exact ⟨_, steps_bind_left _ run⟩

theorem steps_trans {p q r : Prog I α} {before after : List (Event I)} (first : Steps p before q)
    (second : Steps q after r) : Steps p (before ++ after) r := by
  induction first with
  | refl => exact second
  | step ans _ ih => exact .step ans (ih second)

theorem attempts_ask {op : I.Op} {next : I.Ans op → Prog I (Except ε α)} (ans : I.Ans op)
    (effective : effect op) : Attempts effect (ExceptT.mk (.ask op next)) :=
  ⟨[⟨op, ans⟩], next ans, .step ans (.refl _), ⟨op, ans⟩, List.mem_cons_self, effective⟩

theorem attempts_first {x : ExceptT ε (Prog I) α} {f : α → ExceptT ε (Prog I) β}
    (attempts : Attempts effect x) : Attempts effect (x >>= f) := by
  obtain ⟨trace, p, run, effective⟩ := attempts
  obtain ⟨q, onward⟩ := steps_try_left f run
  exact ⟨trace, q, onward, effective⟩

theorem attempts_bind {Q : α → Prop} {x : ExceptT ε (Prog I) α} {f : α → ExceptT ε (Prog I) β}
    (completes : Completes Q x) (rest : ∀ a, Q a → Attempts effect (f a)) :
    Attempts effect (x >>= f) := by
  obtain ⟨before, a, _, whole, holds⟩ := completes
  obtain ⟨after, p, run, e, member, effective⟩ := rest a holds
  refine ⟨before ++ after, p, ?_, e, List.mem_append_right _ member, effective⟩
  rw [run_bind]
  exact steps_trans (steps_bind_left _ whole) run

/-- A program whose result is not looked at. -/
theorem attempts_lift {x : ExceptT ε (Prog I) α} {f : Except ε α → ExceptT ε (Prog I) β}
    (attempts : Attempts effect x) :
    Attempts effect ((monadLift x.run : ExceptT ε (Prog I) (Except ε α)) >>= f) := by
  obtain ⟨trace, p, run, effective⟩ := attempts
  exact attempts_first ⟨trace, _, steps_bind_left _ run, effective⟩

theorem attempts_forM {f : α → ExceptT ε (Prog I) PUnit} {items : List α} (some : items ≠ [])
    (each : ∀ item ∈ items, Attempts effect (f item)) : Attempts effect (items.forM f) := by
  cases items with
  | nil => exact absurd rfl some
  | cons item items => exact attempts_first (each item List.mem_cons_self)

theorem completes_ask {Q : α → Prop} {op : I.Op} {next : I.Ans op → Prog I (Except ε α)}
    (ans : I.Ans op) (rest : Completes Q (ExceptT.mk (next ans))) :
    Completes Q (ExceptT.mk (.ask op next)) :=
  succeeds_ask ans trivial rest

end Prog
