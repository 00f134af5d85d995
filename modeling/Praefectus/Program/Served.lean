import Mathlib.Data.List.Forall2
import Praefectus.Program.Histories

/-!
# Programs in a fixed environment

An environment that serves only some answers allows only some of the histories of a
program. The triples here say what every history it allows comes to, with a value or with
an error.
-/

namespace Prog

variable {I : Interface} {α β ε : Type} {serves : Event I → Prop}

/-- Every run whose answers are all served ends with a result that satisfies `Q`. -/
def Served (serves : Event I → Prop) (Q : α → Prop) : Prog I α → Prop
  | .ret value => Q value
  | .ask op next => ∀ ans, serves ⟨op, ans⟩ → (next ans).Served serves Q

theorem served_run {Q : α → Prop} {p : Prog I α} (served : p.Served serves Q)
    {trace : List (Event I)} {value : α} (answers : ∀ e ∈ trace, serves e)
    (run : Steps p trace (.ret value)) : Q value := by
  generalize ended : Prog.ret value = q at run
  induction run with
  | refl p =>
    subst ended
    exact served
  | step ans _ ih =>
    obtain ⟨first, rest⟩ := List.forall_mem_cons.mp answers
    exact ih (served ans first) rest ended

theorem served_mono {Q R : α → Prop} {p : Prog I α} (served : p.Served serves Q)
    (weaker : ∀ value, Q value → R value) : p.Served serves R := by
  induction p with
  | ret value => exact weaker value served
  | ask op next ih => exact fun ans answered => ih ans (served ans answered)

theorem served_bind {Q : β → Prop} {p : Prog I α} {f : α → Prog I β}
    (first : p.Served serves fun value => (f value).Served serves Q) :
    (p >>= f).Served serves Q := by
  induction p with
  | ret value => exact first
  | ask op next ih => exact fun ans answered => ih ans (first ans answered)

theorem served_trivial (p : Prog I α) : p.Served serves fun _ => True := by
  induction p with
  | ret value => trivial
  | ask op next ih => exact fun ans _ => ih ans

/-! ### Programs that may fail -/

/-- A value or an error, as the two conditions say. -/
def Outcome (ok : α → Prop) (err : ε → Prop) : Except ε α → Prop
  | .ok value => ok value
  | .error e => err e

/-- Every run whose answers are all served ends in `ok` of the value or in `err` of the
error. -/
def Finds (serves : Event I → Prop) (ok : α → Prop) (err : ε → Prop) (x : ExceptT ε (Prog I) α) :
    Prop :=
  x.run.Served serves (Outcome ok err)

variable {ok ok' : α → Prop} {err err' : ε → Prop}

theorem finds_run {x : ExceptT ε (Prog I) α} (finds : Finds serves ok err x)
    {trace : List (Event I)} {result : Except ε α} (answers : ∀ e ∈ trace, serves e)
    (run : Steps x.run trace (.ret result)) : Outcome ok err result :=
  served_run finds answers run

theorem finds_pure {value : α} (holds : ok value) :
    Finds serves ok err (pure value : ExceptT ε (Prog I) α) := holds

theorem finds_throw {e : ε} (holds : err e) :
    Finds serves ok err (throw e : ExceptT ε (Prog I) α) := holds

theorem finds_mono {x : ExceptT ε (Prog I) α} (finds : Finds serves ok err x)
    (weaker : ∀ value, ok value → ok' value) (weaker' : ∀ e, err e → err' e) :
    Finds serves ok' err' x := by
  refine served_mono finds fun result holds => ?_
  cases result with
  | ok value => exact weaker value holds
  | error e => exact weaker' e holds

theorem finds_bind {ok : β → Prop} {x : ExceptT ε (Prog I) α} {f : α → ExceptT ε (Prog I) β}
    (first : Finds serves (fun value => Finds serves ok err (f value)) err x) :
    Finds serves ok err (x >>= f) := by
  rw [Finds, run_bind]
  refine served_bind (served_mono first fun result holds => ?_)
  cases result <;> exact holds

/-- Of a program nothing is asked. -/
theorem finds_trivial (x : ExceptT ε (Prog I) α) :
    Finds serves (fun _ => True) (fun _ => True) x := by
  refine served_mono (served_trivial _) fun result _ => ?_
  cases result <;> trivial

/-- A program and the rest, by what the first is known to find. -/
theorem finds_after {P : α → Prop} {ok : β → Prop} {x : ExceptT ε (Prog I) α}
    {f : α → ExceptT ε (Prog I) β} (first : Finds serves P err x)
    (rest : ∀ value, P value → Finds serves ok err (f value)) : Finds serves ok err (x >>= f) :=
  finds_bind (finds_mono first rest fun _ => id)

/-- Of a program whose errors do not matter nothing is used. -/
theorem finds_skip {ok : β → Prop} {x : ExceptT ε (Prog I) α} {f : α → ExceptT ε (Prog I) β}
    (rest : ∀ value, Finds serves ok (fun _ => True) (f value)) :
    Finds serves ok (fun _ => True) (x >>= f) :=
  finds_after (finds_trivial x) fun value _ => rest value

theorem finds_lift {p : Prog I α} (served : p.Served serves ok) :
    Finds serves ok err (monadLift p : ExceptT ε (Prog I) α) := by
  rw [Finds, run_monadLift]
  exact served_bind served

/-- A question that cannot fail. -/
theorem finds_perform {op : I.Op} {ok : I.Ans op → Prop}
    (each : ∀ ans, serves ⟨op, ans⟩ → ok ans) :
    Finds serves ok err (monadLift (perform op : Prog I (I.Ans op)) : ExceptT ε (Prog I) (I.Ans op)) :=
  finds_lift each

theorem finds_ite {c : Prop} [Decidable c] {x y : ExceptT ε (Prog I) α}
    (positive : c → Finds serves ok err x) (negative : ¬ c → Finds serves ok err y) :
    Finds serves ok err (if c then x else y) := by
  by_cases h : c
  · simpa only [h, if_true] using positive h
  · simpa only [h, if_false] using negative h

/-- A loop that collects the values. -/
theorem finds_mapM {f : α → ExceptT ε (Prog I) β} {R : α → β → Prop} {items : List α}
    (each : ∀ item ∈ items, Finds serves (R item) err (f item)) :
    Finds serves (List.Forall₂ R items) err (items.mapM f) := by
  induction items with
  | nil =>
    rw [List.mapM_nil]
    exact finds_pure .nil
  | cons item items ih =>
    rw [List.mapM_cons]
    have rest := ih fun item member => each item (List.mem_cons_of_mem _ member)
    apply finds_after (each item List.mem_cons_self)
    intro b related
    apply finds_after rest
    intro bs all
    exact finds_pure (.cons related all)

/-! ### Runs that succeed -/

/-- Some run whose answers are all served ends with a value that satisfies `Q`. -/
def Succeeds (serves : Event I → Prop) (Q : α → Prop) (x : ExceptT ε (Prog I) α) : Prop :=
  ∃ trace value, (∀ e ∈ trace, serves e) ∧ Steps x.run trace (.ret (.ok value)) ∧ Q value

theorem succeeds_pure {Q : α → Prop} {value : α} (holds : Q value) :
    Succeeds serves Q (pure value : ExceptT ε (Prog I) α) :=
  ⟨[], value, List.forall_mem_nil _, .refl _, holds⟩

theorem succeeds_ask {Q : α → Prop} {op : I.Op} {next : I.Ans op → Prog I (Except ε α)}
    (ans : I.Ans op) (answered : serves ⟨op, ans⟩)
    (rest : Succeeds serves Q (ExceptT.mk (next ans))) :
    Succeeds serves Q (ExceptT.mk (.ask op next)) := by
  obtain ⟨trace, value, served, run, holds⟩ := rest
  exact ⟨⟨op, ans⟩ :: trace, value, List.forall_mem_cons.mpr ⟨answered, served⟩, .step ans run, holds⟩

theorem succeeds_bind {P : α → Prop} {Q : β → Prop} {x : ExceptT ε (Prog I) α}
    {f : α → ExceptT ε (Prog I) β} (first : Succeeds serves P x)
    (rest : ∀ a, P a → Succeeds serves Q (f a)) : Succeeds serves Q (x >>= f) := by
  obtain ⟨before, a, early, whole, holds⟩ := first
  obtain ⟨after, b, late, run, ends⟩ := rest a holds
  exact ⟨before ++ after, b, List.forall_mem_append.mpr ⟨early, late⟩,
    steps_try.mpr (.inr ⟨before, a, after, rfl, whole, run⟩), ends⟩

theorem succeeds_when {c : Prop} [Decidable c] {x : ExceptT ε (Prog I) PUnit}
    (body : Succeeds serves (fun _ => True) x) : Succeeds serves (fun _ => True) (when c x) := by
  by_cases h : c
  · simpa only [when, h, if_true] using body
  · simpa only [when, h, if_false] using succeeds_pure trivial

theorem succeeds_mapM {f : α → ExceptT ε (Prog I) β} {items : List α}
    (each : ∀ item ∈ items, Succeeds serves (fun _ => True) (f item)) :
    Succeeds serves (fun values => values.length = items.length) (items.mapM f) := by
  induction items with
  | nil =>
    rw [List.mapM_nil]
    exact succeeds_pure rfl
  | cons item items ih =>
    rw [List.mapM_cons]
    have rest := ih fun item member => each item (List.mem_cons_of_mem _ member)
    refine succeeds_bind (each item List.mem_cons_self) fun b _ => ?_
    refine succeeds_bind rest fun bs long => succeeds_pure ?_
    simp [long]

end Prog
