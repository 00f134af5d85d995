import Praefectus.Program.Histories

/-!
# Pairs of runs

A pairing says which answers to one question count as alike, as far as two runs have come. Two
programs are twins where alike answers lead them through the same questions to results that
are related; against alike answers a program that is its own twin then ends with one result.
-/

namespace Prog

variable {I : Interface} {α β γ δ ε Φ : Type}

/-- Which answers are alike, and what is learned from a pair of them. -/
structure Pairing (I : Interface) (Φ : Type) where
  alike : Φ → (op : I.Op) → I.Ans op → I.Ans op → Prop
  learn : Φ → (op : I.Op) → I.Ans op → I.Ans op → Φ

/-- Two histories with the same questions and alike answers. -/
inductive Pairing.Related (m : Pairing I Φ) : Φ → List (Event I) → List (Event I) → Prop where
  | nil (φ : Φ) : Related m φ [] []
  | cons {φ : Φ} {op : I.Op} {ans ans' : I.Ans op} {trace trace' : List (Event I)} :
      m.alike φ op ans ans' → Related m (m.learn φ op ans ans') trace trace' →
      Related m φ (⟨op, ans⟩ :: trace) (⟨op, ans'⟩ :: trace')

/-- Alike answers lead both programs through the same questions to results related by `Q`. -/
def Twin (m : Pairing I Φ) (Q : Φ → α → β → Prop) : Φ → Prog I α → Prog I β → Prop
  | φ, .ret a, q => ∃ b, q = .ret b ∧ Q φ a b
  | φ, .ask op next, q => ∃ next', q = .ask op next' ∧
    ∀ ans ans', m.alike φ op ans ans' → Twin m Q (m.learn φ op ans ans') (next ans) (next' ans')

variable {m : Pairing I Φ} {φ : Φ}

theorem twin_ret {Q : Φ → α → β → Prop} {a : α} {b : β} (related : Q φ a b) :
    Twin m Q φ (.ret a) (.ret b) :=
  ⟨b, rfl, related⟩

theorem twin_ask {Q : Φ → α → β → Prop} {op : I.Op} {next : I.Ans op → Prog I α}
    {next' : I.Ans op → Prog I β}
    (each : ∀ ans ans', m.alike φ op ans ans' →
      Twin m Q (m.learn φ op ans ans') (next ans) (next' ans')) :
    Twin m Q φ (.ask op next) (.ask op next') :=
  ⟨next', rfl, each⟩

theorem twin_mono {Q R : Φ → α → β → Prop} {p : Prog I α} {q : Prog I β} (twin : Twin m Q φ p q)
    (weaker : ∀ φ' a b, Q φ' a b → R φ' a b) : Twin m R φ p q := by
  induction p generalizing φ q with
  | ret a =>
    obtain ⟨b, rfl, related⟩ := twin
    exact twin_ret (weaker φ a b related)
  | ask op next ih =>
    obtain ⟨next', rfl, each⟩ := twin
    exact twin_ask fun ans ans' alike => ih ans (each ans ans' alike)

theorem twin_bind {Q : Φ → γ → δ → Prop} {p : Prog I α} {q : Prog I β} {f : α → Prog I γ}
    {g : β → Prog I δ} (first : Twin m (fun φ' a b => Twin m Q φ' (f a) (g b)) φ p q) :
    Twin m Q φ (p >>= f) (q >>= g) := by
  induction p generalizing φ q with
  | ret a =>
    obtain ⟨b, rfl, rest⟩ := first
    exact rest
  | ask op next ih =>
    obtain ⟨next', rfl, each⟩ := first
    exact twin_ask fun ans ans' alike => ih ans (each ans ans' alike)

/-- What one of two twins comes to, the other comes to against alike answers. -/
theorem twin_run {p q : Prog I α} (twin : Twin m (fun _ a b => a = b) φ p q)
    {trace trace' : List (Event I)} {a : α} (run : Steps p trace (.ret a))
    (related : m.Related φ trace trace') : Steps q trace' (.ret a) := by
  generalize ended : Prog.ret a = r at run
  induction run generalizing φ q trace' with
  | refl p =>
    subst ended
    obtain ⟨b, rfl, rfl⟩ := twin
    cases related
    exact .refl _
  | step ans _ ih =>
    obtain ⟨next', rfl, each⟩ := twin
    cases related with
    | cons alike rest => exact .step _ (ih (each _ _ alike) rest ended)

/-- Two environments whose answers are alike as long as something holds that is kept. -/
theorem related_answers {respond respond' : (op : I.Op) → I.Ans op} {kept : Φ → Prop}
    (each : ∀ φ op, kept φ → m.alike φ op (respond op) (respond' op) ∧
      kept (m.learn φ op (respond op) (respond' op))) {trace : List (Event I)}
    (told : ∀ e ∈ trace, e.ans = respond e.op) (start : kept φ) :
    m.Related φ trace (trace.map fun e => ⟨e.op, respond' e.op⟩) := by
  induction trace generalizing φ with
  | nil => exact .nil φ
  | cons e trace ih =>
    obtain ⟨op, ans⟩ := e
    obtain ⟨first, rest⟩ := List.forall_mem_cons.mp told
    obtain rfl : ans = respond op := first
    obtain ⟨alike, start'⟩ := each φ op start
    exact .cons alike (ih rest start')

/-- Alike answers to the question are equal. -/
def Pairing.Agreed (m : Pairing I Φ) (op : I.Op) : Prop :=
  ∀ φ ans ans', m.alike φ op ans ans' → ans = ans'

/-- They are, and nothing is learned from them. -/
def Pairing.Plain (m : Pairing I Φ) (op : I.Op) : Prop :=
  ∀ φ ans ans', m.alike φ op ans ans' → ans = ans' ∧ m.learn φ op ans ans' = φ

theorem twin_plain {p : Prog I α} (only : p.Only m.Plain) :
    Twin m (fun φ' a b => φ' = φ ∧ a = b) φ p p := by
  induction p with
  | ret a => exact twin_ret ⟨rfl, rfl⟩
  | ask op next ih =>
    obtain ⟨asked, rest⟩ := only
    refine twin_ask fun ans ans' alike => ?_
    obtain ⟨rfl, same⟩ := asked φ ans ans' alike
    rw [same]
    exact ih ans (rest ans)

theorem twin_agreed {p : Prog I α} (only : p.Only m.Agreed) :
    Twin m (fun _ a b => a = b) φ p p := by
  induction p generalizing φ with
  | ret a => exact twin_ret rfl
  | ask op next ih =>
    obtain ⟨asked, rest⟩ := only
    refine twin_ask fun ans ans' alike => ?_
    obtain rfl := asked φ ans ans' alike
    exact ih ans (rest ans)

/-! ### Programs that may fail -/

/-- Related values, or the same error. -/
def Paired (Q : Φ → α → β → Prop) (φ : Φ) : Except ε α → Except ε β → Prop
  | .ok a, .ok b => Q φ a b
  | .error e, .error e' => e = e'
  | _, _ => False

def Twins (m : Pairing I Φ) (Q : Φ → α → β → Prop) (φ : Φ) (x : ExceptT ε (Prog I) α)
    (y : ExceptT ε (Prog I) β) : Prop :=
  Twin m (Paired Q) φ x.run y.run

theorem twins_pure {Q : Φ → α → β → Prop} {a : α} {b : β} (related : Q φ a b) :
    Twins m Q φ (pure a : ExceptT ε (Prog I) α) (pure b) :=
  twin_ret related

theorem twins_throw {Q : Φ → α → β → Prop} {e : ε} :
    Twins m Q φ (throw e : ExceptT ε (Prog I) α) (throw e) :=
  twin_ret rfl

theorem twins_bind {Q : Φ → α → β → Prop} {R : Φ → γ → δ → Prop} {x : ExceptT ε (Prog I) α}
    {y : ExceptT ε (Prog I) β} {f : α → ExceptT ε (Prog I) γ} {g : β → ExceptT ε (Prog I) δ}
    (first : Twins m Q φ x y) (rest : ∀ φ' a b, Q φ' a b → Twins m R φ' (f a) (g b)) :
    Twins m R φ (x >>= f) (y >>= g) := by
  rw [Twins, run_bind, run_bind]
  refine twin_bind (twin_mono first fun φ' result result' paired => ?_)
  cases result with
  | ok a =>
    cases result' with
    | ok b => exact rest φ' a b paired
    | error => exact paired.elim
  | error e =>
    cases result' with
    | ok => exact paired.elim
    | error e' =>
      cases paired
      exact twin_ret rfl

/-- A question that cannot fail. -/
theorem twins_lift {op : I.Op} {Q : Φ → I.Ans op → I.Ans op → Prop}
    (each : ∀ ans ans', m.alike φ op ans ans' → Q (m.learn φ op ans ans') ans ans') :
    Twins m Q φ (monadLift (perform op : Prog I (I.Ans op)) : ExceptT ε (Prog I) (I.Ans op))
      (monadLift (perform op : Prog I (I.Ans op))) :=
  twin_ask fun ans ans' alike => twin_ret (each ans ans' alike)

theorem twins_plain {x : ExceptT ε (Prog I) α} (only : x.run.Only m.Plain) :
    Twins m (fun φ' a b => φ' = φ ∧ a = b) φ x x := by
  refine twin_mono (twin_plain only) ?_
  rintro φ' result _ ⟨rfl, rfl⟩
  cases result with
  | ok => exact ⟨rfl, rfl⟩
  | error => rfl

/-- What is asked first makes no difference between the two. -/
theorem twins_after {Q : Φ → γ → δ → Prop} {x : ExceptT ε (Prog I) α}
    {f : α → ExceptT ε (Prog I) γ} {g : α → ExceptT ε (Prog I) δ} (only : x.run.Only m.Plain)
    (rest : ∀ a, Twins m Q φ (f a) (g a)) : Twins m Q φ (x >>= f) (x >>= g) := by
  refine twins_bind (twins_plain only) ?_
  rintro φ' a _ ⟨rfl, rfl⟩
  exact rest a

theorem twins_agreed {x : ExceptT ε (Prog I) α} (only : x.run.Only m.Agreed) :
    Twins m (fun _ a b => a = b) φ x x := by
  refine twin_mono (twin_agreed only) ?_
  rintro φ' result _ rfl
  cases result with
  | ok => exact rfl
  | error => rfl

/-- A program whose error is looked at later. -/
theorem twins_attempt {Q : Φ → α → β → Prop} {x : ExceptT ε (Prog I) α} {y : ExceptT ε (Prog I) β}
    (twins : Twins m Q φ x y) : Twins m (Paired Q) φ
      (monadLift x.run : ExceptT ε (Prog I) (Except ε α)) (monadLift y.run) := by
  rw [Twins, run_monadLift, run_monadLift]
  exact twin_bind (twin_mono twins fun _ _ _ paired => twin_ret paired)

theorem paired_eq {result result' : Except ε α} (paired : Paired (fun _ a b => a = b) φ result result') :
    result = result' := by
  cases result with
  | ok a =>
    cases result' with
    | ok b => exact congrArg Except.ok paired
    | error => exact paired.elim
  | error e =>
    cases result' with
    | ok => exact paired.elim
    | error e' => exact congrArg Except.error paired

/-- Programs with equal values end with one result. -/
theorem twins_run {x y : ExceptT ε (Prog I) α} (twins : Twins m (fun _ a b => a = b) φ x y)
    {trace trace' : List (Event I)} {result : Except ε α} (run : Steps x.run trace (.ret result))
    (related : m.Related φ trace trace') : Steps y.run trace' (.ret result) :=
  twin_run (twin_mono twins fun _ _ _ paired => paired_eq paired) run related

end Prog
