import Praefectus.Program.Tree
import Mathlib.Logic.Function.Basic
import Praefectus.Program.Traces

/-!
# Concurrent calls on a shared state

Any number of calls run side by side. Each one is a thread that asks questions of
the shared state; a move of the system is one answered question, the start or the
end of a call, the death of a call with a question pending, or an outside event
that strikes when no call is alive. The log of a run lists its moves in order.

Threads are abstract: they may be programs or states of an automaton, and
`simulate` carries the runs of one kind of threads over to another.
-/

variable {I : Interface} {Id Cmd : Type}

structure Threads (I : Interface) (Cmd : Type) where
  State : Type
  start : Cmd → State → Prop
  asks : State → I.Op → Prop
  step : State → Event I → State → Prop
  done : State → Prop

/-- A shared state: what it may answer to a call, what a call that dies leaves behind,
and what may happen to it while no call is alive. -/
structure Shared (I : Interface) (Id : Type) where
  State : Type
  init : State
  answer : Id → Event I → State → State → Prop
  abandon : Id → I.Op → State → State → Prop
  outside : State → State → Prop

inductive Entry (I : Interface) (Id Cmd : Type) where
  | started (id : Id) (cmd : Cmd)
  | did (id : Id) (event : Event I)
  | died (id : Id) (op : I.Op)
  | ended (id : Id)
  | outside

/-- An identity is used for one call only. -/
inductive Life (θ : Type) where
  | unborn
  | live (state : θ)
  | over

structure Config (T : Threads I Cmd) (S : Shared I Id) where
  shared : S.State
  thread : Id → Life T.State

/-- What is alive after the stage of one call changed. -/
theorem live_update {θ : Type} [DecidableEq Id] {thread : Id → Life θ} {id id' : Id}
    {stage : Life θ} {state : θ} (live : Function.update thread id stage id' = .live state) :
    (id' = id ∧ stage = .live state) ∨ (id' ≠ id ∧ thread id' = .live state) := by
  by_cases same : id' = id
  · subst same
    rw [Function.update_self] at live
    exact .inl ⟨rfl, live⟩
  · rw [Function.update_of_ne same] at live
    exact .inr ⟨same, live⟩

namespace Config

variable {T : Threads I Cmd} {S : Shared I Id} [DecidableEq Id]

def init : Config T S := ⟨S.init, fun _ => .unborn⟩

inductive Move : Config T S → Entry I Id Cmd → Config T S → Prop where
  | start {c : Config T S} {id : Id} {cmd : Cmd} {θ : T.State} :
      c.thread id = .unborn → T.start cmd θ →
      Move c (.started id cmd) ⟨c.shared, Function.update c.thread id (.live θ)⟩
  | answer {c : Config T S} {id : Id} {θ θ' : T.State} {e : Event I} {s : S.State} :
      c.thread id = .live θ → T.step θ e θ' → S.answer id e c.shared s →
      Move c (.did id e) ⟨s, Function.update c.thread id (.live θ')⟩
  | die {c : Config T S} {id : Id} {θ : T.State} {op : I.Op} {s : S.State} :
      c.thread id = .live θ → T.asks θ op → S.abandon id op c.shared s →
      Move c (.died id op) ⟨s, Function.update c.thread id .over⟩
  | finish {c : Config T S} {id : Id} {θ : T.State} :
      c.thread id = .live θ → T.done θ →
      Move c (.ended id) ⟨c.shared, Function.update c.thread id .over⟩
  | outside {c : Config T S} {s : S.State} :
      (∀ id θ, c.thread id ≠ .live θ) → S.outside c.shared s →
      Move c .outside ⟨s, c.thread⟩

/-- The runs of the system. -/
def Run (log : List (Entry I Id Cmd)) (c : Config T S) : Prop := Reaches Move init log c

/-- The call has returned or died. -/
def Finished (log : List (Entry I Id Cmd)) (id : Id) : Prop :=
  .ended id ∈ log ∨ ∃ op, .died id op ∈ log

omit [DecidableEq Id] in
theorem finished_concat {log : List (Entry I Id Cmd)} {entry : Entry I Id Cmd} {id : Id}
    (finished : Finished (log ++ [entry]) id) :
    Finished log id ∨ entry = .ended id ∨ ∃ op, entry = .died id op := by
  rcases finished with ended | ⟨op, died⟩
  · rcases List.mem_append.mp ended with earlier | last
    · exact .inl (.inl earlier)
    · exact .inr (.inl (List.mem_singleton.mp last).symm)
  · rcases List.mem_append.mp died with earlier | last
    · exact .inl (.inr ⟨op, earlier⟩)
    · exact .inr (.inr ⟨op, (List.mem_singleton.mp last).symm⟩)

/-- A call that has returned or died does nothing any more. -/
theorem over_of_finished {log : List (Entry I Id Cmd)} {c : Config T S} {id : Id}
    (run : Config.Run log c) (finished : Finished log id) : c.thread id = .over := by
  have ends := Reaches.invariant
    (fun log (c : Config T S) => ∀ id, Finished log id → c.thread id = .over) ?_ ?_ run
  · exact ends id finished
  · rintro id (none | ⟨_, none⟩) <;> exact absurd none List.not_mem_nil
  · intro log c entry c' _ ih move id finished
    -- a call that moves was not over
    have kept {id' : Id} {stage stage' : Life T.State} (alive : c.thread id' = stage)
        (other : stage ≠ .over) (earlier : Finished log id) :
        Function.update c.thread id' stage' id = .over := by
      have distinct : id ≠ id' := by
        rintro rfl
        exact other (alive.symm.trans (ih id earlier))
      rw [Function.update_of_ne distinct]
      exact ih id earlier
    rcases finished_concat finished with earlier | rfl | ⟨op, rfl⟩
    · cases move with
      | start unborn => exact kept unborn nofun earlier
      | answer alive => exact kept alive nofun earlier
      | die alive => exact kept alive nofun earlier
      | finish alive => exact kept alive nofun earlier
      | outside => exact ih id earlier
    · cases move with
      | finish => exact Function.update_self ..
    · cases move with
      | die => exact Function.update_self ..

end Config

/-! ### Threads that simulate threads -/

/-- Two calls are at the same stage, and alive in related states. -/
inductive Life.Rel {θ θ' : Type} (R : θ → θ' → Prop) : Life θ → Life θ' → Prop where
  | unborn : Rel R .unborn .unborn
  | live {p : θ} {q : θ'} : R p q → Rel R (.live p) (.live q)
  | over : Rel R .over .over

structure Simulation (T T' : Threads I Cmd) (R : T.State → T'.State → Prop) : Prop where
  start : ∀ cmd p, T.start cmd p → ∃ q, T'.start cmd q ∧ R p q
  asks : ∀ p q op, R p q → T.asks p op → T'.asks q op
  step : ∀ p q e p', R p q → T.step p e p' → ∃ q', T'.step q e q' ∧ R p' q'
  done : ∀ p q, R p q → T.done p → T'.done q

section

variable {T T' : Threads I Cmd} {S : Shared I Id} {R : T.State → T'.State → Prop} [DecidableEq Id]

private theorem update_related {f : Id → Life T.State} {g : Id → Life T'.State}
    (related : ∀ id, Life.Rel R (f id) (g id)) {a : Life T.State} {b : Life T'.State}
    (both : Life.Rel R a b) (id id' : Id) :
    Life.Rel R (Function.update f id a id') (Function.update g id b id') := by
  by_cases same : id' = id
  · subst same
    simpa only [Function.update_self] using both
  · simpa only [Function.update_of_ne same] using related id'

private theorem unborn_related {f : Life T.State} {g : Life T'.State}
    (related : Life.Rel R f g) (fresh : f = .unborn) : g = .unborn := by
  subst fresh
  cases related
  rfl

private theorem live_related {f : Life T.State} {g : Life T'.State} {p : T.State}
    (related : Life.Rel R f g) (live : f = .live p) : ∃ q, g = .live q ∧ R p q := by
  subst live
  cases related with
  | live both => exact ⟨_, rfl, both⟩

/-- The same shared state, and calls that are related one by one. -/
structure Config.Related (R : T.State → T'.State → Prop) (c : Config T S) (d : Config T' S) :
    Prop where
  shared : d.shared = c.shared
  threads : ∀ id, Life.Rel R (c.thread id) (d.thread id)

omit [DecidableEq Id] in
theorem related_init : Config.Related R (Config.init : Config T S) Config.init := ⟨rfl, fun _ => .unborn⟩

/-- Each move of the simulated threads is one of the simulating ones. -/
theorem simulate_move (sim : Simulation T T' R) {c u : Config T S} {d : Config T' S}
    {e : Entry I Id Cmd} (related : c.Related R d) (move : Config.Move c e u) :
    ∃ v, Config.Move d e v ∧ u.Related R v := by
  obtain ⟨shared, related⟩ := related
  cases move with
  | @start id cmd p fresh started =>
    obtain ⟨q, started', both⟩ := sim.start cmd p started
    have fresh' : d.thread id = .unborn := unborn_related (related id) fresh
    exact ⟨_, .start fresh' started', shared, update_related related (.live both) id⟩
  | @answer id p p' e s alive stepped answered =>
    obtain ⟨q, alive', both⟩ := live_related (related id) alive
    obtain ⟨q', stepped', both'⟩ := sim.step p q e p' both stepped
    rw [← shared] at answered
    exact ⟨_, .answer alive' stepped' answered, rfl, update_related related (.live both') id⟩
  | @die id p op s alive asked abandoned =>
    obtain ⟨q, alive', both⟩ := live_related (related id) alive
    rw [← shared] at abandoned
    exact ⟨_, .die alive' (sim.asks p q op both asked) abandoned, rfl,
      update_related related .over id⟩
  | @finish id p alive finished =>
    obtain ⟨q, alive', both⟩ := live_related (related id) alive
    exact ⟨_, .finish alive' (sim.done p q both finished), shared, update_related related .over id⟩
  | @outside s dead struck =>
    rw [← shared] at struck
    refine ⟨_, .outside ?_ struck, rfl, related⟩
    intro id q alive
    have both := related id
    rw [alive] at both
    generalize stage : Config.thread _ id = life at both
    cases both with
    | live => exact dead id _ stage

/-- Every run of the simulated threads is a run of the simulating ones, with the same
log and the same shared state, from wherever they are related. -/
theorem simulate_from (sim : Simulation T T' R) {log : List (Entry I Id Cmd)} {c u : Config T S}
    {d : Config T' S} (related : c.Related R d) (run : Reaches Config.Move c log u) :
    ∃ v, Reaches Config.Move d log v ∧ u.Related R v :=
  @Reaches.simulate _ _ _ _ _ _ Config.Move (Config.Related R) _ related
    (fun _ _ _ _ related move => simulate_move sim related move) _ run

theorem simulate (sim : Simulation T T' R) {log : List (Entry I Id Cmd)} {c : Config T S}
    (run : Config.Run log c) : ∃ c' : Config T' S, Config.Run log c' ∧ c.Related R c' :=
  simulate_from sim related_init run

end

/-! ### Shared states that refine shared states -/

structure Refines (S S' : Shared I Id) (R : S.State → S'.State → Prop) : Prop where
  init : R S.init S'.init
  answer : ∀ id e s s' t, R s t → S.answer id e s s' → ∃ t', S'.answer id e t t' ∧ R s' t'
  abandon : ∀ id op s s' t, R s t → S.abandon id op s s' → ∃ t', S'.abandon id op t t' ∧ R s' t'
  outside : ∀ s s' t, R s t → S.outside s s' → ∃ t', S'.outside t t' ∧ R s' t'

section

variable {T : Threads I Cmd} {S S' : Shared I Id} {R : S.State → S'.State → Prop} [DecidableEq Id]

/-- Every run on a shared state is a run of the same threads, with the same log, on the
state it refines. -/
theorem refine_run (refines : Refines S S' R) {log : List (Entry I Id Cmd)} {c : Config T S}
    (run : Config.Run log c) :
    ∃ c' : Config T S', Config.Run log c' ∧ c'.thread = c.thread ∧ R c.shared c'.shared := by
  refine Reaches.simulate (fun (c : Config T S) (d : Config T S') => d.thread = c.thread ∧
    R c.shared d.shared) ⟨rfl, refines.init⟩ ?_ run
  rintro c d e u ⟨threads, related⟩ move
  cases move with
  | @start id cmd θ fresh started =>
    rw [← threads] at fresh ⊢
    exact ⟨_, .start fresh started, rfl, related⟩
  | @answer id θ θ' e s alive stepped answered =>
    obtain ⟨t, answered', related'⟩ := refines.answer id e _ s _ related answered
    rw [← threads] at alive ⊢
    exact ⟨_, .answer alive stepped answered', rfl, related'⟩
  | @die id θ op s alive asked abandoned =>
    obtain ⟨t, abandoned', related'⟩ := refines.abandon id op _ s _ related abandoned
    rw [← threads] at alive ⊢
    exact ⟨_, .die alive asked abandoned', rfl, related'⟩
  | @finish id θ alive finished =>
    rw [← threads] at alive ⊢
    exact ⟨_, .finish alive finished, rfl, related⟩
  | @outside s dead struck =>
    obtain ⟨t, struck', related'⟩ := refines.outside _ s _ related struck
    rw [← threads] at dead ⊢
    exact ⟨_, .outside dead struck', rfl, related'⟩

end

/-! ### Programs and automata as threads -/

/-- Each command runs a program. -/
def programs {ρ : Type} (body : Cmd → Prog I ρ) : Threads I Cmd where
  State := Cmd × Prog I ρ
  start cmd θ := θ = (cmd, body cmd)
  asks θ op := ∃ next, θ.2 = .ask op next
  step θ e θ' := ∃ next, θ.2 = .ask e.op next ∧ θ' = (θ.1, next e.ans)
  done θ := ∃ value, θ.2 = .ret value

/-- Each command runs an automaton, which may depend on the command. -/
def automata {Φ : Type} (Δ : Cmd → Φ → Event I → Φ → Prop) (initial : Φ) (final : Φ → Prop) :
    Threads I Cmd where
  State := Cmd × Φ
  start cmd θ := θ = (cmd, initial)
  asks θ op := ∃ ans φ, Δ θ.1 θ.2 ⟨op, ans⟩ φ
  step θ e θ' := θ'.1 = θ.1 ∧ Δ θ.1 θ.2 e θ'.2
  done θ := final θ.2

/-- Programs that follow an automaton, and end where it may, can be replaced by it. -/
theorem programs_follow_to [∀ op, Nonempty (I.Ans op)] {ρ Φ : Type} {body : Cmd → Prog I ρ}
    {Δ : Cmd → Φ → Event I → Φ → Prop} {initial : Φ} {final : Φ → Prop} {Q : ρ → Φ → Prop}
    (ends : ∀ value φ, Q value φ → final φ)
    (follows : ∀ cmd, (body cmd).Follows (Δ cmd) Q initial) :
    Simulation (programs body) (automata Δ initial final) fun p q =>
      p.1 = q.1 ∧ p.2.Follows (Δ p.1) Q q.2 where
  start := by
    rintro cmd _ rfl
    exact ⟨(cmd, initial), rfl, rfl, follows cmd⟩
  asks := by
    rintro ⟨cmd, p⟩ ⟨_, φ⟩ op ⟨rfl, followed⟩ ⟨next, rfl⟩
    obtain ⟨ans⟩ : Nonempty (I.Ans op) := inferInstance
    obtain ⟨φ', moved, _⟩ := followed ans
    exact ⟨ans, φ', moved⟩
  step := by
    rintro ⟨cmd, p⟩ ⟨_, φ⟩ ⟨op, ans⟩ _ ⟨rfl, followed⟩ ⟨next, rfl, rfl⟩
    obtain ⟨φ', moved, rest⟩ := followed ans
    exact ⟨(cmd, φ'), ⟨rfl, moved⟩, rfl, rest⟩
  done := by
    rintro ⟨cmd, p⟩ ⟨_, φ⟩ ⟨rfl, followed⟩ ⟨value, rfl⟩
    exact ends value φ followed

theorem programs_follow [∀ op, Nonempty (I.Ans op)] {ρ Φ : Type} {body : Cmd → Prog I ρ}
    {Δ : Cmd → Φ → Event I → Φ → Prop} {initial : Φ} {final : Φ → Prop}
    (follows : ∀ cmd, (body cmd).Follows (Δ cmd) (fun _ φ => final φ) initial) :
    Simulation (programs body) (automata Δ initial final) fun p q =>
      p.1 = q.1 ∧ p.2.Follows (Δ p.1) (fun _ φ => final φ) q.2 :=
  programs_follow_to (fun _ _ ended => ended) follows
