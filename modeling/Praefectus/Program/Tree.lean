/-!
# Programs that ask their environment

A program is a tree of questions: it either returns, or asks one question and
continues with whatever answer the environment gives. Nothing is assumed about
the answers here. A later layer says which answers a given environment gives.
-/

/-- The questions a program may ask, and the answers each of them admits. -/
structure Interface where
  Op : Type
  Ans : Op → Type

/-- A question together with the answer it received. -/
structure Event (I : Interface) where
  op : I.Op
  ans : I.Ans op

inductive Prog (I : Interface) (α : Type) : Type where
  | ret (value : α)
  | ask (op : I.Op) (next : I.Ans op → Prog I α)

namespace Prog

variable {I : Interface} {α β γ : Type}

def bind : Prog I α → (α → Prog I β) → Prog I β
  | .ret value, f => f value
  | .ask op next, f => .ask op fun ans => (next ans).bind f

instance : Monad (Prog I) where
  pure := .ret
  bind := bind

/-- Runs a program only under a condition. -/
def when {m : Type → Type} [Monad m] (c : Prop) [Decidable c] (body : m PUnit) : m PUnit :=
  if c then body else pure ⟨⟩

/-- One question whose answer is the result. -/
def perform (op : I.Op) : Prog I (I.Ans op) := .ask op .ret

@[simp] theorem pure_eq (value : α) : (pure value : Prog I α) = .ret value := rfl

@[simp] theorem ret_bind (value : α) (f : α → Prog I β) : (Prog.ret value >>= f) = f value := rfl

@[simp] theorem ask_bind (op : I.Op) (next : I.Ans op → Prog I α) (f : α → Prog I β) :
    (Prog.ask op next >>= f) = .ask op fun ans => next ans >>= f := rfl

@[simp] theorem perform_bind (op : I.Op) (f : I.Ans op → Prog I β) :
    (perform op >>= f) = .ask op f := rfl

theorem bind_ret (p : Prog I α) : p >>= Prog.ret = p := by
  induction p with
  | ret value => rfl
  | ask op next ih =>
    rw [ask_bind]
    exact congrArg (Prog.ask op) (funext ih)

theorem bind_assoc (p : Prog I α) (f : α → Prog I β) (g : β → Prog I γ) :
    (p >>= f) >>= g = p >>= fun value => f value >>= g := by
  induction p with
  | ret value => rfl
  | ask op next ih =>
    simp only [ask_bind]
    exact congrArg (Prog.ask op) (funext ih)

instance : LawfulMonad (Prog I) :=
  LawfulMonad.mk' (Prog I) bind_ret (fun _ _ => rfl) bind_assoc

/-! ### Histories -/

/-- `Steps p trace q`: having received the answers of `trace`, the program `p` has
become `q`. -/
inductive Steps : Prog I α → List (Event I) → Prog I α → Prop where
  | refl (p : Prog I α) : Steps p [] p
  | step {op : I.Op} {next : I.Ans op → Prog I α} {trace : List (Event I)} {q : Prog I α}
      (ans : I.Ans op) : Steps (next ans) trace q → Steps (.ask op next) (⟨op, ans⟩ :: trace) q

/-- Whatever the answers, the history and the result of a completed run satisfy `Q`. -/
def Ensures (Q : List (Event I) → α → Prop) : Prog I α → List (Event I) → Prop
  | .ret value, past => Q past value
  | .ask op next, past => ∀ ans, Ensures Q (next ans) (past ++ [⟨op, ans⟩])

theorem ensures_run {Q : List (Event I) → α → Prop} {p : Prog I α} {past : List (Event I)}
    (ensured : p.Ensures Q past) {trace : List (Event I)} {value : α}
    (run : Steps p trace (.ret value)) : Q (past ++ trace) value := by
  generalize ended : Prog.ret value = q at run
  induction run generalizing past with
  | refl p =>
    subst ended
    rw [List.append_nil]
    exact ensured
  | step ans _ ih =>
    have rest := ih (ensured ans) ended
    simpa only [List.append_assoc, List.singleton_append] using rest

theorem ensures_bind {Q : List (Event I) → β → Prop} {p : Prog I α} {f : α → Prog I β}
    {past : List (Event I)}
    (first : p.Ensures (fun now value => (f value).Ensures Q now) past) :
    (p >>= f).Ensures Q past := by
  induction p generalizing past with
  | ret value => exact first
  | ask op next ih => exact fun ans => ih ans (first ans)

theorem ensures_mono {Q R : List (Event I) → α → Prop} {p : Prog I α} {past : List (Event I)}
    (ensured : p.Ensures Q past)
    (weaker : ∀ now value, past <+: now → Q now value → R now value) : p.Ensures R past := by
  induction p generalizing past with
  | ret value => exact weaker past value (List.prefix_refl _) ensured
  | ask op next ih =>
    intro ans
    refine ih ans (ensured ans) fun now value grown holds => weaker now value ?_ holds
    exact (List.prefix_append _ _).trans grown

/-! ### Automata over events -/

variable {Φ : Type}

/-- The automaton `Δ` accepts every run of the program from `φ`, and a completed run
leaves it in a state related to the result by `Q`. The program chooses the
questions, the environment the answers, the automaton its next state. -/
def Follows (Δ : Φ → Event I → Φ → Prop) (Q : α → Φ → Prop) : Prog I α → Φ → Prop
  | .ret value, φ => Q value φ
  | .ask op next, φ => ∀ ans, ∃ φ', Δ φ ⟨op, ans⟩ φ' ∧ Follows Δ Q (next ans) φ'

variable {Δ : Φ → Event I → Φ → Prop}

theorem follows_bind {Q : β → Φ → Prop} {p : Prog I α} {f : α → Prog I β} {φ : Φ}
    (first : p.Follows Δ (fun value φ' => (f value).Follows Δ Q φ') φ) :
    (p >>= f).Follows Δ Q φ := by
  induction p generalizing φ with
  | ret value => exact first
  | ask op next ih =>
    intro ans
    obtain ⟨φ', moved, rest⟩ := first ans
    exact ⟨φ', moved, ih ans rest⟩

theorem follows_mono {Q R : α → Φ → Prop} {p : Prog I α} {φ : Φ} (follows : p.Follows Δ Q φ)
    (weaker : ∀ value φ', Q value φ' → R value φ') : p.Follows Δ R φ := by
  induction p generalizing φ with
  | ret value => exact weaker value φ follows
  | ask op next ih =>
    intro ans
    obtain ⟨φ', moved, rest⟩ := follows ans
    exact ⟨φ', moved, ih ans rest⟩

/-! ### Runs against a state, with crashes -/

variable {σ : Type}

/-- What an environment with state `σ` may answer, and what it may have done when the
program stops for good while a question is pending. -/
structure Effects (I : Interface) (σ : Type) where
  answer : Event I → σ → σ → Prop
  abandon : I.Op → σ → σ → Prop

inductive Runs (eff : Effects I σ) : Prog I α → σ → α → σ → Prop where
  | ret (value : α) (s : σ) : Runs eff (.ret value) s value s
  | ask {op : I.Op} {next : I.Ans op → Prog I α} {s s' s'' : σ} {value : α} (ans : I.Ans op) :
      eff.answer ⟨op, ans⟩ s s' → Runs eff (next ans) s' value s'' →
      Runs eff (.ask op next) s value s''

/-- The program was stopped while one of its questions was pending. -/
inductive Stops (eff : Effects I σ) : Prog I α → σ → σ → Prop where
  | here {op : I.Op} {next : I.Ans op → Prog I α} {s s' : σ} :
      eff.abandon op s s' → Stops eff (.ask op next) s s'
  | later {op : I.Op} {next : I.Ans op → Prog I α} {s s' s'' : σ} (ans : I.Ans op) :
      eff.answer ⟨op, ans⟩ s s' → Stops eff (next ans) s' s'' → Stops eff (.ask op next) s s''

/-- A triple with a crash condition: every completed run ends in `Q`, every stopped
run in `C`. -/
def Safe (eff : Effects I σ) (Q : α → σ → Prop) (C : σ → Prop) : Prog I α → σ → Prop
  | .ret value, s => Q value s
  | .ask op next, s => (∀ s', eff.abandon op s s' → C s') ∧
      ∀ ans s', eff.answer ⟨op, ans⟩ s s' → Safe eff Q C (next ans) s'

variable {eff : Effects I σ} {C : σ → Prop}

theorem safe_run {Q : α → σ → Prop} {p : Prog I α} {s s' : σ} {value : α}
    (safe : p.Safe eff Q C s) (run : Runs eff p s value s') : Q value s' := by
  induction run with
  | ret value s => exact safe
  | ask ans answered _ ih => exact ih (safe.2 ans _ answered)

theorem safe_stop {Q : α → σ → Prop} {p : Prog I α} {s s' : σ}
    (safe : p.Safe eff Q C s) (stopped : Stops eff p s s') : C s' := by
  induction stopped with
  | here abandoned => exact safe.1 _ abandoned
  | later ans answered _ ih => exact ih (safe.2 ans _ answered)

theorem runs_bind {p : Prog I α} {f : α → Prog I β} {s s' s'' : σ} {a : α} {b : β}
    (first : Runs eff p s a s') (second : Runs eff (f a) s' b s'') :
    Runs eff (p >>= f) s b s'' := by
  induction first with
  | ret value s => exact second
  | ask ans answered _ ih => exact .ask ans answered (ih second)

/-- The answers of a history lead from a state to another. -/
inductive Effects.Along (eff : Effects I σ) : List (Event I) → σ → σ → Prop where
  | nil (s : σ) : eff.Along [] s s
  | cons {e : Event I} {history : List (Event I)} {s s' s'' : σ} : eff.answer e s s' →
      eff.Along history s' s'' → eff.Along (e :: history) s s''

/-- The environment, where it gives no other answers than those of a history. -/
def Effects.within (eff : Effects I σ) (history : List (Event I)) : Effects I σ where
  answer e s s' := e ∈ history ∧ eff.answer e s s'
  abandon := eff.abandon

theorem runs_along {p : Prog I α} {history whole : List (Event I)} {s s' : σ} {value : α}
    (along : eff.Along history s s') (inside : history ⊆ whole)
    (run : Steps p history (.ret value)) : Runs (eff.within whole) p s value s' := by
  induction along generalizing p with
  | nil s =>
    cases run with
    | refl => exact .ret value s
  | cons answered _ ih =>
    obtain ⟨member, rest⟩ := List.cons_subset.mp inside
    cases run with
    | step ans later => exact .ask ans ⟨member, answered⟩ (ih rest later)

end Prog
