import Praefectus.Program.Histories

/-!
# Programs under a monitor

A monitor reads the history of a program and forbids some questions. The triples here say
that a program asks nothing forbidden, and relate what the monitor knows at the end to the
value or to the error.
-/

namespace Prog

variable {I : Interface} {α β ε Φ : Type}

/-- What is learned from each answer, and what may be asked. -/
structure Monitor (I : Interface) (Φ : Type) where
  learn : Φ → Event I → Φ
  allows : Φ → I.Op → Prop

namespace Monitor

variable (m : Monitor I Φ)

def Move (φ : Φ) (e : Event I) (φ' : Φ) : Prop := m.allows φ e.op ∧ φ' = m.learn φ e

/-- What is known after a history. -/
def after (φ : Φ) (trace : List (Event I)) : Φ := trace.foldl m.learn φ

end Monitor

def Verdict (ok : α → Φ → Prop) (err : ε → Φ → Prop) : Except ε α → Φ → Prop
  | .ok a, φ => ok a φ
  | .error e, φ => err e φ

/-- Whatever the answers, the program asks what the monitor allows, and the monitor ends in
`ok` of the value or in `err` of the error. -/
def Judged (m : Monitor I Φ) (ok : α → Φ → Prop) (err : ε → Φ → Prop) (x : ExceptT ε (Prog I) α)
    (φ : Φ) : Prop :=
  x.run.Follows m.Move (Verdict ok err) φ

variable {m : Monitor I Φ} {ok ok' : α → Φ → Prop} {err err' : ε → Φ → Prop} {φ : Φ}

/-! ### Runs -/

theorem follows_steps {Q : α → Φ → Prop} {p q : Prog I α} {trace : List (Event I)}
    (follows : p.Follows m.Move Q φ) (run : Steps p trace q) :
    q.Follows m.Move Q (m.after φ trace) := by
  induction run generalizing φ with
  | refl => exact follows
  | step ans _ ih =>
    obtain ⟨_, ⟨_, rfl⟩, rest⟩ := follows ans
    exact ih rest

/-- A completed run ends as the triple says. -/
theorem judged_run {x : ExceptT ε (Prog I) α} (judged : Judged m ok err x φ)
    {trace : List (Event I)} {result : Except ε α} (run : Steps x.run trace (.ret result)) :
    Verdict ok err result (m.after φ trace) :=
  follows_steps judged run

theorem follows_asks {Q : α → Φ → Prop} {p q : Prog I α} {before after : List (Event I)}
    {e : Event I} (follows : p.Follows m.Move Q φ) (run : Steps p (before ++ e :: after) q) :
    m.allows (m.after φ before) e.op := by
  induction before generalizing φ p with
  | nil =>
    cases run with
    | step ans _ =>
      obtain ⟨_, moved, _⟩ := follows ans
      exact moved.1
  | cons first before ih =>
    cases run with
    | step ans rest =>
      obtain ⟨_, ⟨_, rfl⟩, later⟩ := follows ans
      exact ih later rest

/-- Whatever is asked at any time is allowed then. -/
theorem judged_asks {x : ExceptT ε (Prog I) α} (judged : Judged m ok err x φ)
    {before after : List (Event I)} {e : Event I} {q : Prog I (Except ε α)}
    (run : Steps x.run (before ++ e :: after) q) : m.allows (m.after φ before) e.op :=
  follows_asks judged run

/-! ### Rules -/

theorem judged_pure {value : α} (holds : ok value φ) :
    Judged m ok err (pure value : ExceptT ε (Prog I) α) φ := holds

theorem judged_throw {e : ε} (holds : err e φ) :
    Judged m ok err (throw e : ExceptT ε (Prog I) α) φ := holds

theorem judged_mono {x : ExceptT ε (Prog I) α} (judged : Judged m ok err x φ)
    (weaker : ∀ a φ', ok a φ' → ok' a φ') (weaker' : ∀ e φ', err e φ' → err' e φ') :
    Judged m ok' err' x φ := by
  refine follows_mono judged fun result φ' holds => ?_
  cases result with
  | ok a => exact weaker a φ' holds
  | error e => exact weaker' e φ' holds

theorem judged_bind {ok : β → Φ → Prop} {x : ExceptT ε (Prog I) α} {f : α → ExceptT ε (Prog I) β}
    (first : Judged m (fun a φ' => Judged m ok err (f a) φ') err x φ) :
    Judged m ok err (x >>= f) φ := by
  refine follows_try (follows_mono first fun result φ' holds => ?_)
  cases result <;> exact holds

/-- A question and the rest, from what is learned of the answer. -/
theorem judged_ask {op : I.Op} {ok : I.Ans op → Φ → Prop} (allowed : m.allows φ op)
    (each : ∀ ans, ok ans (m.learn φ ⟨op, ans⟩)) :
    Judged m ok err (monadLift (perform op : Prog I (I.Ans op)) : ExceptT ε (Prog I) (I.Ans op)) φ :=
  fun ans => ⟨_, ⟨allowed, rfl⟩, each ans⟩

theorem judged_when {ok : PUnit → Φ → Prop} {c : Prop} [Decidable c]
    {x : ExceptT ε (Prog I) PUnit} (body : c → Judged m ok err x φ) (skipped : ¬ c → ok ⟨⟩ φ) :
    Judged m ok err (when c x) φ := by
  by_cases h : c
  · simpa only [when, h, if_true] using body h
  · simpa only [when, h, if_false] using judged_pure (skipped h)

/-- A loop, by an invariant of the items done. -/
theorem judged_forM {f : α → ExceptT ε (Prog I) PUnit} (R : List α → Φ → Prop)
    {done items : List α} (initial : R done φ)
    (each : ∀ done item φ, item ∈ items → R done φ →
      Judged m (fun _ => R (done ++ [item])) err (f item) φ) :
    Judged m (fun _ => R (done ++ items)) err (items.forM f) φ := by
  induction items generalizing done φ with
  | nil =>
    refine judged_pure ?_
    simpa only [List.append_nil] using initial
  | cons item items ih =>
    refine judged_bind (judged_mono (each done item φ List.mem_cons_self initial) ?_ fun _ _ => id)
    intro _ φ' holds
    have rest := ih holds fun done item φ member => each done item φ (List.mem_cons_of_mem _ member)
    simpa only [List.append_assoc, List.singleton_append] using rest

/-- A program whose result is not looked at. -/
theorem judged_ignored {R : Φ → Prop} {x : ExceptT ε (Prog I) α}
    (judged : Judged m (fun _ => R) (fun _ => R) x φ) :
    Judged m (fun _ => R) err (do
      let _ ← (monadLift x.run : ExceptT ε (Prog I) (Except ε α))) φ := by
  refine judged_bind ?_
  rw [Judged, run_monadLift]
  refine follows_bind (follows_mono judged fun result φ' holds => ?_)
  cases result <;> exact holds

end Prog
