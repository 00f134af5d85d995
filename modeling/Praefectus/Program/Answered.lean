import Praefectus.Program.Served

/-!
# Programs whose questions are answered alike

Where every question has one answer, whenever it is asked, a program comes to one result,
which is computed by rewriting.
-/

namespace Prog

variable {I : Interface} {α β ε : Type} (respond : (op : I.Op) → I.Ans op)

def answered : Prog I α → α
  | .ret value => value
  | .ask op next => (next (respond op)).answered

/-- A run with these answers. -/
theorem steps_answered {serves : Event I → Prop} (right : ∀ op, serves ⟨op, respond op⟩)
    (p : Prog I α) :
    ∃ trace, (∀ e ∈ trace, serves e) ∧ Steps p trace (.ret (p.answered respond)) := by
  induction p with
  | ret value => exact ⟨[], List.forall_mem_nil _, .refl _⟩
  | ask op next ih =>
    obtain ⟨trace, served, run⟩ := ih (respond op)
    exact ⟨⟨op, respond op⟩ :: trace, List.forall_mem_cons.mpr ⟨right op, served⟩, .step _ run⟩

/-- A run whose answers are these comes to that result. -/
theorem answered_of_steps {p : Prog I α} {trace : List (Event I)} {value : α}
    (run : Steps p trace (.ret value)) (told : ∀ e ∈ trace, e.ans = respond e.op) :
    p.answered respond = value := by
  generalize ended : Prog.ret value = q at run
  induction run with
  | refl =>
    subst ended
    rfl
  | @step op next _ _ ans _ ih =>
    obtain ⟨first, rest⟩ := List.forall_mem_cons.mp told
    obtain rfl : ans = respond op := first
    exact ih rest ended

theorem answered_bind (p : Prog I α) (f : α → Prog I β) :
    (p >>= f).answered respond = (f (p.answered respond)).answered respond := by
  induction p with
  | ret value => rfl
  | ask op next ih => exact ih (respond op)

/-! ### Programs that may fail -/

/-- The value or the error that a program comes to. -/
def attempt (x : ExceptT ε (Prog I) α) : Except ε α := x.run.answered respond

@[simp] theorem attempt_pure (value : α) :
    attempt respond (pure value : ExceptT ε (Prog I) α) = .ok value := rfl

@[simp] theorem attempt_throw (e : ε) :
    attempt respond (throw e : ExceptT ε (Prog I) α) = .error e := rfl

@[simp] theorem attempt_perform (op : I.Op) :
    attempt respond (monadLift (perform op : Prog I (I.Ans op)) : ExceptT ε (Prog I) (I.Ans op)) =
      .ok (respond op) := rfl

theorem attempt_bind (x : ExceptT ε (Prog I) α) (f : α → ExceptT ε (Prog I) β) :
    attempt respond (x >>= f) =
      match attempt respond x with
      | .ok value => attempt respond (f value)
      | .error e => .error e := by
  simp only [attempt, run_bind, answered_bind]
  cases x.run.answered respond <;> rfl

/-- A program that goes on with a value. -/
theorem attempt_then {x : ExceptT ε (Prog I) α} {f : α → ExceptT ε (Prog I) β} {value : α}
    (first : attempt respond x = .ok value) :
    attempt respond (x >>= f) = attempt respond (f value) := by
  rw [attempt_bind, first]

@[simp] theorem attempt_ite {c : Prop} [Decidable c] (x y : ExceptT ε (Prog I) α) :
    attempt respond (if c then x else y) =
      if c then attempt respond x else attempt respond y := by
  split <;> rfl

/-- A run that ends with the value. -/
theorem succeeds_attempt {serves : Event I → Prop} (right : ∀ op, serves ⟨op, respond op⟩)
    {x : ExceptT ε (Prog I) α} {value : α} (found : attempt respond x = .ok value) :
    Succeeds serves (· = value) x := by
  obtain ⟨trace, served, run⟩ := steps_answered respond right x.run
  rw [attempt] at found
  rw [found] at run
  exact ⟨trace, value, served, run, rfl⟩

end Prog
