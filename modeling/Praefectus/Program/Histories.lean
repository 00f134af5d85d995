import Praefectus.Program.Tree

/-!
# Histories of composed programs

A history of a sequence of programs is cut where the first of them returned. With
errors, the rest is run only if the first returned a value.
-/

namespace Prog

variable {I : Interface} {α β ε : Type}

theorem steps_ask {op : I.Op} {trace : List (Event I)} {ans : I.Ans op} :
    Steps (.ask op .ret : Prog I (I.Ans op)) trace (.ret ans) ↔ trace = [⟨op, ans⟩] := by
  constructor
  · intro run
    cases run with
    | step _ rest =>
      cases rest
      rfl
  · rintro rfl
    exact .step ans (.refl _)

theorem steps_ret {value value' : α} {trace : List (Event I)} :
    Steps (.ret value : Prog I α) trace (.ret value') ↔ trace = [] ∧ value = value' := by
  constructor
  · intro run
    cases run
    exact ⟨rfl, rfl⟩
  · rintro ⟨rfl, rfl⟩
    exact .refl _

theorem steps_bind {p : Prog I α} {f : α → Prog I β} {trace : List (Event I)} {value : β} :
    Steps (p >>= f) trace (.ret value) ↔
      ∃ first a rest, trace = first ++ rest ∧ Steps p first (.ret a) ∧
        Steps (f a) rest (.ret value) := by
  constructor
  · intro run
    induction p generalizing trace with
    | ret a => exact ⟨[], a, trace, rfl, .refl _, run⟩
    | ask op next ih =>
      rw [ask_bind] at run
      cases run with
      | step ans run =>
        obtain ⟨first, a, rest, rfl, whole, tail⟩ := ih ans run
        exact ⟨⟨op, ans⟩ :: first, a, rest, rfl, .step ans whole, tail⟩
  · rintro ⟨first, a, rest, rfl, whole, tail⟩
    generalize ended : Prog.ret a = q at whole
    induction whole with
    | refl p =>
      subst ended
      exact tail
    | step ans _ ih => exact .step ans (ih ended)

/-- A question is asked by the first program or by the second. -/
theorem steps_bind_ask {p : Prog I α} {f : α → Prog I β} {trace : List (Event I)} {op : I.Op}
    {next : I.Ans op → Prog I β} (run : Steps (p >>= f) trace (.ask op next)) :
    (∃ next', Steps p trace (.ask op next')) ∨
      ∃ first a rest, trace = first ++ rest ∧ Steps p first (.ret a) ∧
        Steps (f a) rest (.ask op next) := by
  induction p generalizing trace with
  | ret a => exact .inr ⟨[], a, trace, rfl, .refl _, run⟩
  | ask op' next' ih =>
    rw [ask_bind] at run
    cases run with
    | refl => exact .inl ⟨_, .refl _⟩
    | step ans run =>
      rcases ih ans run with ⟨next'', inside⟩ | ⟨first, a, rest, rfl, whole, tail⟩
      · exact .inl ⟨next'', .step ans inside⟩
      · exact .inr ⟨⟨op', ans⟩ :: first, a, rest, rfl, .step ans whole, tail⟩

/-! ### Programs that may fail -/

theorem run_bind (x : ExceptT ε (Prog I) α) (f : α → ExceptT ε (Prog I) β) :
    (x >>= f).run = x.run >>= fun result =>
      match result with
      | .ok a => (f a).run
      | .error e => .ret (.error e) := by
  refine congrArg (x.run >>= ·) (funext fun result => ?_)
  cases result <;> rfl

@[simp] theorem run_pure (a : α) : (pure a : ExceptT ε (Prog I) α).run = .ret (.ok a) := rfl

@[simp] theorem run_throw (e : ε) : (throw e : ExceptT ε (Prog I) α).run = .ret (.error e) := rfl

@[simp] theorem run_mk (p : Prog I (Except ε α)) : (ExceptT.mk p).run = p := rfl

@[simp] theorem run_lift (p : Prog I α) :
    (ExceptT.lift p : ExceptT ε (Prog I) α).run = p >>= fun a => .ret (.ok a) := rfl

@[simp] theorem run_monadLift (p : Prog I α) :
    (monadLift p : ExceptT ε (Prog I) α).run = p >>= fun a => .ret (.ok a) := rfl

theorem steps_try {x : ExceptT ε (Prog I) α} {f : α → ExceptT ε (Prog I) β}
    {trace : List (Event I)} {result : Except ε β} :
    Steps (x >>= f).run trace (.ret result) ↔
      (∃ e, Steps x.run trace (.ret (.error e)) ∧ result = .error e) ∨
      ∃ first a rest, trace = first ++ rest ∧ Steps x.run first (.ret (.ok a)) ∧
        Steps (f a).run rest (.ret result) := by
  rw [run_bind, steps_bind]
  constructor
  · rintro ⟨first, answer, rest, rfl, whole, tail⟩
    cases answer with
    | ok a => exact .inr ⟨first, a, rest, rfl, whole, tail⟩
    | error e =>
      obtain ⟨rfl, rfl⟩ := steps_ret.mp tail
      rw [List.append_nil]
      exact .inl ⟨e, whole, rfl⟩
  · rintro (⟨e, whole, rfl⟩ | ⟨first, a, rest, rfl, whole, tail⟩)
    · exact ⟨trace, .error e, [], (List.append_nil _).symm, whole, .refl _⟩
    · exact ⟨first, .ok a, rest, rfl, whole, tail⟩

theorem steps_lift {p : Prog I α} {trace : List (Event I)} {result : Except ε α} :
    Steps (monadLift p : ExceptT ε (Prog I) α).run trace (.ret result) ↔
      ∃ a, Steps p trace (.ret a) ∧ result = .ok a := by
  rw [run_monadLift, steps_bind]
  constructor
  · rintro ⟨first, a, rest, rfl, whole, tail⟩
    obtain ⟨rfl, rfl⟩ := steps_ret.mp tail
    rw [List.append_nil]
    exact ⟨a, whole, rfl⟩
  · rintro ⟨a, whole, rfl⟩
    exact ⟨trace, a, [], (List.append_nil _).symm, whole, .refl _⟩

/-- A program that cannot fail, and the rest with its value. -/
theorem steps_after {p : Prog I α} {f : α → ExceptT ε (Prog I) β} {trace : List (Event I)}
    {result : Except ε β}
    (run : Steps ((monadLift p : ExceptT ε (Prog I) α) >>= f).run trace (.ret result)) :
    ∃ first a rest, trace = first ++ rest ∧ Steps p first (.ret a) ∧
      Steps (f a).run rest (.ret result) := by
  rcases steps_try.mp run with ⟨e, whole, rfl⟩ | ⟨first, a, rest, rfl, whole, tail⟩
  · obtain ⟨_, _, failed⟩ := steps_lift.mp whole
    cases failed
  · obtain ⟨a', whole, same⟩ := steps_lift.mp whole
    obtain rfl := Except.ok.inj same
    exact ⟨first, a, rest, rfl, whole, tail⟩

theorem steps_try_ok {x : ExceptT ε (Prog I) α} {f : α → ExceptT ε (Prog I) β}
    {trace : List (Event I)} {b : β} (run : Steps (x >>= f).run trace (.ret (.ok b))) :
    ∃ first a rest, trace = first ++ rest ∧ Steps x.run first (.ret (.ok a)) ∧
      Steps (f a).run rest (.ret (.ok b)) := by
  rcases steps_try.mp run with ⟨_, _, failed⟩ | found
  · contradiction
  · exact found

theorem steps_try_ask {x : ExceptT ε (Prog I) α} {f : α → ExceptT ε (Prog I) β}
    {trace : List (Event I)} {op : I.Op} {next : I.Ans op → Prog I (Except ε β)}
    (run : Steps (x >>= f).run trace (.ask op next)) :
    (∃ next', Steps x.run trace (.ask op next')) ∨
      ∃ first a rest, trace = first ++ rest ∧ Steps x.run first (.ret (.ok a)) ∧
        Steps (f a).run rest (.ask op next) := by
  rw [run_bind] at run
  rcases steps_bind_ask run with inside | ⟨first, result, rest, rfl, whole, tail⟩
  · exact .inl inside
  · cases result with
    | ok a => exact .inr ⟨first, a, rest, rfl, whole, tail⟩
    | error e => nomatch tail

/-! ### Programs that ask only some questions -/

/-- Every question the program may come to satisfies `P`. -/
def Only (P : I.Op → Prop) : Prog I α → Prop
  | .ret _ => True
  | .ask op next => P op ∧ ∀ ans, Only P (next ans)

variable {P : I.Op → Prop}

theorem only_bind {p : Prog I α} {f : α → Prog I β} (first : p.Only P)
    (rest : ∀ a, (f a).Only P) : (p >>= f).Only P := by
  induction p with
  | ret a => exact rest a
  | ask op next ih => exact ⟨first.1, fun ans => ih ans (first.2 ans)⟩

theorem only_try {x : ExceptT ε (Prog I) α} {f : α → ExceptT ε (Prog I) β}
    (first : x.run.Only P) (rest : ∀ a, (f a).run.Only P) : (x >>= f).run.Only P := by
  rw [run_bind]
  refine only_bind first fun result => ?_
  cases result with
  | ok a => exact rest a
  | error e => trivial

theorem only_lift {p : Prog I α} (only : p.Only P) :
    (monadLift p : ExceptT ε (Prog I) α).run.Only P := by
  rw [run_monadLift]
  exact only_bind only fun _ => trivial

/-- A result that is known, and the rest if it is no error. -/
theorem only_known {result : Except ε α} {f : α → ExceptT ε (Prog I) β}
    (rest : ∀ a, result = .ok a → (f a).run.Only P) :
    ((ExceptT.mk (pure result) : ExceptT ε (Prog I) α) >>= f).run.Only P := by
  cases result with
  | ok a => exact rest a rfl
  | error e => trivial

theorem only_steps {p q : Prog I α} {trace : List (Event I)} (only : p.Only P)
    (run : Steps p trace q) : ∀ e ∈ trace, P e.op := by
  induction run with
  | refl => exact List.forall_mem_nil _
  | step ans _ ih => exact List.forall_mem_cons.mpr ⟨only.1, ih (only.2 ans)⟩

theorem only_pending {p : Prog I α} {trace : List (Event I)} {op : I.Op}
    {next : I.Ans op → Prog I α} (only : p.Only P) (run : Steps p trace (.ask op next)) : P op := by
  generalize pending : Prog.ask op next = q at run
  induction run with
  | refl =>
    subst pending
    exact only.1
  | step ans _ ih => exact ih (only.2 ans) pending

theorem only_mono {R : I.Op → Prop} {p : Prog I α} (only : p.Only P) (weaker : ∀ op, P op → R op) :
    p.Only R := by
  induction p with
  | ret => trivial
  | ask op next ih => exact ⟨weaker op only.1, fun ans => ih ans (only.2 ans)⟩

/-! ### Automata and programs that may fail -/

variable {Φ : Type} {Δ : Φ → Event I → Φ → Prop}

/-- A program that only asks questions the automaton ignores where it is leaves it there. -/
theorem only_follows_at {φ : Φ} (still : ∀ op ans, P op → Δ φ ⟨op, ans⟩ φ) {p : Prog I α}
    (only : p.Only P) : p.Follows Δ (fun _ φ' => φ' = φ) φ := by
  induction p with
  | ret value => rfl
  | ask op next ih => exact fun ans => ⟨φ, still op ans only.1, ih ans (only.2 ans)⟩

/-- A program that only asks questions the automaton ignores leaves it where it was. -/
theorem only_follows (still : ∀ φ op ans, P op → Δ φ ⟨op, ans⟩ φ) {p : Prog I α} (only : p.Only P)
    (φ : Φ) : p.Follows Δ (fun _ φ' => φ' = φ) φ := only_follows_at (still φ) only

theorem follows_ret {Q : α → Φ → Prop} {value : α} {φ : Φ} :
    (Prog.ret value : Prog I α).Follows Δ Q φ ↔ Q value φ := Iff.rfl

theorem follows_try {Q : Except ε β → Φ → Prop} {x : ExceptT ε (Prog I) α}
    {f : α → ExceptT ε (Prog I) β} {φ : Φ}
    (first : x.run.Follows Δ (fun result φ' =>
      match result with
      | .ok a => (f a).run.Follows Δ Q φ'
      | .error e => Q (.error e) φ') φ) : (x >>= f).run.Follows Δ Q φ := by
  rw [run_bind]
  refine follows_bind (follows_mono first fun result φ' holds => ?_)
  cases result <;> exact holds

/-- An ignored program is followed by the rest from where the automaton was. -/
theorem follows_after {Q : Except ε β → Φ → Prop} {p : Prog I α} {f : α → ExceptT ε (Prog I) β}
    {φ : Φ} (still : ∀ φ op ans, P op → Δ φ ⟨op, ans⟩ φ) (only : p.Only P)
    (rest : ∀ a, (f a).run.Follows Δ Q φ) :
    ((monadLift p : ExceptT ε (Prog I) α) >>= f).run.Follows Δ Q φ := by
  refine follows_try ?_
  rw [run_monadLift]
  refine follows_bind (follows_mono (only_follows still only φ) ?_)
  rintro a _ rfl
  exact rest a

end Prog
