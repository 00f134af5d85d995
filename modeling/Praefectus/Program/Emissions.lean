import Mathlib.Data.List.Forall2
import Praefectus.Program.Histories

/-!
# What programs emit

Some answered questions emit events to the outside. The triples here say what every run
emits that ends with a value, against environments that serve only some answers.
-/

namespace Prog

variable {I : Interface} {α β ε κ : Type}

/-- The answers an environment serves, and what they emit. -/
structure Emitter (I : Interface) (κ : Type) where
  serves : Event I → Prop
  emit : Event I → List κ

/-- What a history emits. -/
def Emitter.events (env : Emitter I κ) (trace : List (Event I)) : List κ := trace.flatMap env.emit

/-- Every served run that ends with a value emits events that satisfy `Q`. -/
def Yields (env : Emitter I κ) (Q : List κ → α → Prop) (x : ExceptT ε (Prog I) α) : Prop :=
  ∀ trace value, (∀ e ∈ trace, env.serves e) → Steps x.run trace (.ret (.ok value)) →
    Q (env.events trace) value

variable {env : Emitter I κ}

theorem yields_mono {Q R : List κ → α → Prop} {x : ExceptT ε (Prog I) α} (yields : Yields env Q x)
    (weaker : ∀ events value, Q events value → R events value) : Yields env R x :=
  fun trace value served run => weaker _ _ (yields trace value served run)

theorem yields_pure {Q : List κ → α → Prop} {value : α} (holds : Q [] value) :
    Yields env Q (pure value : ExceptT ε (Prog I) α) := by
  intro trace value' _ run
  obtain ⟨rfl, same⟩ := steps_ret.mp run
  cases same
  exact holds

theorem yields_throw {Q : List κ → α → Prop} {e : ε} :
    Yields env Q (throw e : ExceptT ε (Prog I) α) := by
  intro trace value _ run
  obtain ⟨_, same⟩ := steps_ret.mp run
  contradiction

theorem yields_bind {Q : List κ → β → Prop} {x : ExceptT ε (Prog I) α}
    {f : α → ExceptT ε (Prog I) β}
    (first : Yields env (fun events a => Yields env (fun more b => Q (events ++ more) b) (f a)) x) :
    Yields env Q (x >>= f) := by
  intro trace value served run
  obtain ⟨before, a, after, rfl, whole, rest⟩ := steps_try_ok run
  obtain ⟨early, late⟩ := List.forall_mem_append.mp served
  have both := first before a early whole after value late rest
  rw [Emitter.events, List.flatMap_append]
  exact both

theorem yields_when {c : Prop} [Decidable c] {Q : List κ → PUnit → Prop}
    {x : ExceptT ε (Prog I) PUnit} (body : c → Yields env Q x) (skipped : ¬ c → Q [] ⟨⟩) :
    Yields env Q (when c x) := by
  by_cases h : c
  · simpa only [when, h, if_true] using body h
  · simpa only [when, h, if_false] using yields_pure (skipped h)

/-- A question that cannot fail. -/
theorem yields_lift {op : I.Op} {Q : List κ → I.Ans op → Prop}
    (each : ∀ ans, env.serves ⟨op, ans⟩ → Q (env.emit ⟨op, ans⟩) ans) :
    Yields env Q (monadLift (perform op : Prog I (I.Ans op)) : ExceptT ε (Prog I) (I.Ans op)) := by
  intro trace value served run
  obtain ⟨ans, asked, same⟩ := steps_lift.mp run
  cases same
  obtain rfl := steps_ask.mp asked
  simpa [Emitter.events] using each value (served _ List.mem_cons_self)

/-- A loop, with an invariant of the items done and what they emitted. -/
theorem yields_forM {f : α → ExceptT ε (Prog I) PUnit} (R : List α → List κ → Prop)
    {done items : List α} {past : List κ} (initial : R done past)
    (each : ∀ done item past, item ∈ items → R done past →
      Yields env (fun events _ => R (done ++ [item]) (past ++ events)) (f item)) :
    Yields env (fun events _ => R (done ++ items) (past ++ events)) (items.forM f) := by
  induction items generalizing done past with
  | nil =>
    refine yields_pure ?_
    simpa only [List.append_nil] using initial
  | cons item items ih =>
    refine yields_bind (yields_mono (each done item past List.mem_cons_self initial) ?_)
    intro events _ holds
    have rest := ih holds fun done item past member => each done item past (List.mem_cons_of_mem _ member)
    simpa only [List.append_assoc, List.singleton_append] using rest

/-- A loop with an accumulator. -/
theorem yields_foldlM {f : β → α → ExceptT ε (Prog I) β} (R : List α → β → List κ → Prop)
    {done items : List α} {b : β} {past : List κ} (initial : R done b past)
    (each : ∀ done b item past, item ∈ items → R done b past →
      Yields env (fun events b' => R (done ++ [item]) b' (past ++ events)) (f b item)) :
    Yields env (fun events b' => R (done ++ items) b' (past ++ events)) (items.foldlM f b) := by
  induction items generalizing done b past with
  | nil =>
    refine yields_pure ?_
    simpa only [List.append_nil] using initial
  | cons item items ih =>
    rw [List.foldlM_cons]
    refine yields_bind (yields_mono (each done b item past List.mem_cons_self initial) ?_)
    intro events _ holds
    have rest := ih holds fun done b item past member =>
      each done b item past (List.mem_cons_of_mem _ member)
    simpa only [List.append_assoc, List.singleton_append] using rest

/-- A loop that emits nothing and collects the values. -/
theorem yields_mapM {f : α → ExceptT ε (Prog I) β} {R : α → β → Prop} {items : List α}
    (each : ∀ item ∈ items, Yields env (fun events b => events = [] ∧ R item b) (f item)) :
    Yields env (fun events values => events = [] ∧ List.Forall₂ R items values)
      (items.mapM f) := by
  induction items with
  | nil =>
    rw [List.mapM_nil]
    exact yields_pure ⟨rfl, .nil⟩
  | cons item items ih =>
    rw [List.mapM_cons]
    have rest := ih fun item member => each item (List.mem_cons_of_mem _ member)
    refine yields_bind (yields_mono (each item List.mem_cons_self) ?_)
    rintro _ b ⟨rfl, related⟩
    refine yields_bind (yields_mono rest ?_)
    rintro _ bs ⟨rfl, all⟩
    exact yields_pure ⟨rfl, .cons related all⟩

/-! ### Fixed emissions -/

/-- Every served run that ends with a value emits exactly these events. -/
def Emits (env : Emitter I κ) (emitted : List κ) (x : ExceptT ε (Prog I) α) : Prop :=
  Yields env (fun events _ => events = emitted) x

theorem emits_pure {value : α} : Emits env [] (pure value : ExceptT ε (Prog I) α) :=
  yields_pure rfl

theorem emits_bind {first second : List κ} {x : ExceptT ε (Prog I) α}
    {f : α → ExceptT ε (Prog I) β} (before : Emits env first x)
    (after : ∀ a, Emits env second (f a)) : Emits env (first ++ second) (x >>= f) := by
  refine yields_bind (yields_mono before ?_)
  rintro _ a rfl
  exact yields_mono (after a) fun more b emitted => by rw [emitted]

/-- A question that emits nothing, and what its value is known to satisfy. -/
theorem emits_after {R : α → Prop} {emitted : List κ} {x : ExceptT ε (Prog I) α}
    {f : α → ExceptT ε (Prog I) β} (before : Yields env (fun events a => events = [] ∧ R a) x)
    (after : ∀ a, R a → Emits env emitted (f a)) : Emits env emitted (x >>= f) := by
  refine yields_bind (yields_mono before ?_)
  rintro _ a ⟨rfl, holds⟩
  exact yields_mono (after a holds) fun more b emitted => by rw [emitted, List.nil_append]

theorem emits_when {c : Prop} [Decidable c] {emitted : List κ} {x : ExceptT ε (Prog I) PUnit}
    (body : c → Emits env emitted x) : Emits env (if c then emitted else []) (when c x) := by
  refine yields_when (fun h => ?_) fun h => ?_
  · simp only [h, if_true]
    exact body h
  · simp only [h, if_false]

/-- What emits nothing may as well be left out. -/
theorem emits_when_nil {c : Prop} [Decidable c] {x : ExceptT ε (Prog I) PUnit}
    (body : Emits env [] x) : Emits env [] (when c x) := by
  have either := emits_when fun _ : c => body
  rwa [ite_self] at either

/-- A loop whose items emit a fixed list each. -/
theorem emits_forM {f : α → ExceptT ε (Prog I) PUnit} {g : α → List κ} {items : List α}
    (each : ∀ item ∈ items, Emits env (g item) (f item)) :
    Emits env (items.flatMap g) (items.forM f) := by
  have loop := @yields_forM I α ε κ env f (fun done past => past = done.flatMap g) [] items [] rfl
    fun done item past member same => yields_mono (each item member) fun events _ emitted => by
      rw [same, emitted, List.flatMap_append, List.flatMap_singleton]
  exact loop

/-! ### Programs that fail with their questions -/

/-- A run that ends with a value has only seen good events. -/
def Strict (good : Event I → Prop) (x : ExceptT ε (Prog I) α) : Prop :=
  ∀ trace value, Steps x.run trace (.ret (.ok value)) → ∀ e ∈ trace, good e

section

variable {good : Event I → Prop}

theorem strict_pure {value : α} : Strict good (pure value : ExceptT ε (Prog I) α) := by
  intro trace value' run
  obtain ⟨rfl, _⟩ := steps_ret.mp run
  exact List.forall_mem_nil _

theorem strict_throw {e : ε} : Strict good (throw e : ExceptT ε (Prog I) α) := by
  intro trace value run
  obtain ⟨_, same⟩ := steps_ret.mp run
  contradiction

theorem strict_bind {x : ExceptT ε (Prog I) α} {f : α → ExceptT ε (Prog I) β}
    (first : Strict good x) (rest : ∀ a, Strict good (f a)) : Strict good (x >>= f) := by
  intro trace value run
  obtain ⟨before, a, after, rfl, whole, later⟩ := steps_try_ok run
  exact List.forall_mem_append.mpr ⟨first before a whole, rest a after value later⟩

theorem strict_ite {c : Prop} [Decidable c] {x y : ExceptT ε (Prog I) α} (positive : Strict good x)
    (negative : Strict good y) : Strict good (if c then x else y) := by
  split
  · exact positive
  · exact negative

theorem strict_when {c : Prop} [Decidable c] {x : ExceptT ε (Prog I) PUnit}
    (body : Strict good x) : Strict good (when c x) :=
  strict_ite body strict_pure

theorem strict_forM {f : α → ExceptT ε (Prog I) PUnit} {items : List α}
    (each : ∀ item, Strict good (f item)) : Strict good (items.forM f) := by
  induction items with
  | nil => exact strict_pure
  | cons item items ih => exact strict_bind (each item) fun _ => ih

theorem strict_mapM {f : α → ExceptT ε (Prog I) β} {items : List α}
    (each : ∀ item, Strict good (f item)) : Strict good (items.mapM f) := by
  induction items with
  | nil =>
    rw [List.mapM_nil]
    exact strict_pure
  | cons item items ih =>
    rw [List.mapM_cons]
    exact strict_bind (each item) fun _ => strict_bind ih fun _ => strict_pure

/-- A question that is good whatever is answered. -/
theorem strict_lift {op : I.Op} (each : ∀ ans, good ⟨op, ans⟩) :
    Strict good (monadLift (perform op : Prog I (I.Ans op)) : ExceptT ε (Prog I) (I.Ans op)) := by
  intro trace value run
  obtain ⟨ans, asked, _⟩ := steps_lift.mp run
  obtain rfl := steps_ask.mp asked
  exact List.forall_mem_singleton.mpr (each ans)

end

end Prog
