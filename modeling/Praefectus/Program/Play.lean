import Praefectus.Program.Concurrent

/-!
# Environments that answer by a function

Against an environment whose answers are a function of its state a program has one
run, which can be computed; so has a schedule of calls that run one after the other,
each to its end or to its death.
-/

variable {I : Interface} {α σ : Type}

namespace Prog

/-- The first answers a program receives, what it has become, and the state it leaves. -/
def play (respond : (op : I.Op) → σ → I.Ans op × σ) :
    Nat → Prog I α → σ → List (Event I) × Prog I α × σ
  | fuel + 1, .ask op next, s =>
    let answered := respond op s
    let rest := play respond fuel (next answered.1) answered.2
    (⟨op, answered.1⟩ :: rest.1, rest.2)
  | _, p, s => ([], p, s)

def returned? : Prog I α → Option α
  | .ret value => some value
  | .ask .. => none

theorem returned_ret {p : Prog I α} {value : α} (returned : p.returned? = some value) :
    p = .ret value := by
  cases p with
  | ret => exact congrArg Prog.ret (Option.some.inj returned)
  | ask => contradiction

theorem steps_play (respond : (op : I.Op) → σ → I.Ans op × σ) (fuel : Nat) (p : Prog I α) (s : σ) :
    Steps p (play respond fuel p s).1 (play respond fuel p s).2.1 := by
  induction fuel generalizing p s with
  | zero => cases p <;> exact .refl _
  | succ fuel ih =>
    cases p with
    | ret => exact .refl _
    | ask op next => exact .step _ (ih _ _)

theorem play_answers {respond : (op : I.Op) → σ → I.Ans op × σ} {P : Event I → Prop}
    (answers : ∀ op s, P ⟨op, (respond op s).1⟩) (fuel : Nat) (p : Prog I α) (s : σ) :
    ∀ e ∈ (play respond fuel p s).1, P e := by
  induction fuel generalizing p s with
  | zero => cases p <;> exact fun _ none => absurd none List.not_mem_nil
  | succ fuel ih =>
    cases p with
    | ret => exact fun _ none => absurd none List.not_mem_nil
    | ask op next =>
      refine List.forall_mem_cons.mpr ⟨answers op s, ?_⟩
      exact ih _ _

/-- A played run that returned a value with some property. -/
theorem steps_returned {respond : (op : I.Op) → σ → I.Ans op × σ} {fuel : Nat} {p : Prog I α} {s : σ}
    {check : α → Bool} (checked : (play respond fuel p s).2.1.returned?.any check = true) :
    ∃ value, check value = true ∧ Steps p (play respond fuel p s).1 (.ret value) := by
  cases returned : (play respond fuel p s).2.1.returned? with
  | none =>
    rw [returned] at checked
    contradiction
  | some value =>
    rw [returned] at checked
    exact ⟨value, checked, returned_ret returned ▸ steps_play respond fuel p s⟩

/-- A played run that succeeded. -/
theorem steps_succeeded {ε : Type} {respond : (op : I.Op) → σ → I.Ans op × σ} {fuel : Nat}
    {p : Prog I (Except ε α)} {s : σ}
    (checked : (play respond fuel p s).2.1.returned?.any Except.isOk = true) :
    ∃ value, Steps p (play respond fuel p s).1 (.ret (.ok value)) := by
  obtain ⟨result, succeeded, run⟩ := steps_returned checked
  cases result with
  | error => cases succeeded
  | ok value => exact ⟨value, run⟩

def asked? : Prog I α → Option I.Op
  | .ret _ => none
  | .ask op _ => some op

/-- A played run that came to a question with some property. -/
theorem steps_asked {respond : (op : I.Op) → σ → I.Ans op × σ} {fuel : Nat} {p : Prog I α} {s : σ}
    {check : I.Op → Bool} (checked : (play respond fuel p s).2.1.asked?.any check = true) :
    ∃ op next, check op = true ∧ Steps p (play respond fuel p s).1 (.ask op next) := by
  have run := steps_play respond fuel p s
  cases reached : (play respond fuel p s).2.1 with
  | ret =>
    rw [reached] at checked
    exact absurd checked Bool.false_ne_true
  | ask op next =>
    rw [reached] at checked run
    exact ⟨op, next, checked, run⟩

/-- Where each answer is a move of a system that keeps up, the run leads through the system. -/
theorem play_moves {τ : Type} (move : τ → Event I → τ → Prop) {R : σ → τ → Prop}
    (respond : (op : I.Op) → σ → I.Ans op × σ)
    (each : ∀ op s t, R s t → ∃ t', move t ⟨op, (respond op s).1⟩ t' ∧ R (respond op s).2 t')
    (fuel : Nat) (p : Prog I α) {s : σ} {t : τ} (related : R s t) :
    ∃ t', Reaches move t (play respond fuel p s).1 t' ∧ R (play respond fuel p s).2.2 t' := by
  induction fuel generalizing p s t with
  | zero => cases p <;> exact ⟨t, .nil, related⟩
  | succ fuel ih =>
    cases p with
    | ret => exact ⟨t, .nil, related⟩
    | ask op next =>
      obtain ⟨t', moved, related'⟩ := each op s t related
      obtain ⟨t'', rest, ended⟩ := ih (next (respond op s).1) related'
      exact ⟨t'', .cons moved rest, ended⟩

end Prog

/-! ### Schedules -/

open Prog

variable {Cmd ρ : Type}

/-- An environment of calls: its answers, and what it does when a call dies. -/
structure Environment (I : Interface) (σ : Type) where
  respond : Nat → (op : I.Op) → σ → I.Ans op × σ
  bury : Nat → I.Op → σ → σ

/-- The moves of a call that runs alone and dies when its fuel is used up. -/
def Environment.serve (env : Environment I σ) (body : Cmd → Prog I ρ) (id : Nat) (cmd : Cmd)
    (fuel : Nat) (s : σ) : List (Entry I Nat Cmd) × σ :=
  let played := play (env.respond id) fuel (body cmd) s
  match played.2 with
  | (.ret _, s') => (.started id cmd :: played.1.map (.did id) ++ [.ended id], s')
  | (.ask op _, s') => (.started id cmd :: played.1.map (.did id) ++ [.died id op], env.bury id op s')

/-- The moves of calls that run one after the other. -/
def Environment.serveAll (env : Environment I σ) (body : Cmd → Prog I ρ) :
    Nat → List (Cmd × Nat) → σ → List (Entry I Nat Cmd) × σ
  | _, [], s => ([], s)
  | id, (cmd, fuel) :: calls, s =>
    let served := env.serve body id cmd fuel s
    let rest := env.serveAll body (id + 1) calls served.2
    (served.1 ++ rest.1, rest.2)

/-- The environment does what the shared state may do. -/
structure Environment.Realizes (env : Environment I σ) (S : Shared I Nat) (R : σ → S.State → Prop) :
    Prop where
  respond : ∀ id op s w, R s w →
    ∃ w', S.answer id ⟨op, (env.respond id op s).1⟩ w w' ∧ R (env.respond id op s).2 w'
  bury : ∀ id op s w, R s w → ∃ w', S.abandon id op w w' ∧ R (env.bury id op s) w'

/-- An answer as a move of the shared state. -/
def Shared.Served {Id : Type} (S : Shared I Id) (id : Id) (s : S.State) (e : Event I)
    (s' : S.State) : Prop := S.answer id e s s'

/-- A history of a call whose events are answered by the shared state is a run of the system. -/
theorem steps_reaches {Id : Type} [DecidableEq Id] {S : Shared I Id} {body : Cmd → Prog I ρ}
    {id : Id} {cmd : Cmd} {p q : Prog I ρ} {trace : List (Event I)} (steps : Steps p trace q)
    {c : Config (programs body) S} {s : S.State} (live : c.thread id = .live (cmd, p))
    (answered : Reaches (S.Served id) c.shared trace s) :
    Reaches Config.Move c (trace.map (.did id))
      ⟨s, Function.update c.thread id (.live (cmd, q))⟩ := by
  induction steps generalizing c with
  | refl p =>
    generalize none : ([] : List (Event I)) = trace at answered
    cases answered with
    | nil =>
      rw [← live, Function.update_eq_self]
      exact .nil
    | snoc => simp at none
  | @step op next trace q ans _ ih =>
    have whole : Reaches (S.Served id) c.shared ([⟨op, ans⟩] ++ trace) s := answered
    obtain ⟨t, first, rest⟩ := whole.split
    have first : Reaches (S.Served id) c.shared ([] ++ [⟨op, ans⟩]) t := first
    obtain ⟨t', none, answered⟩ := first.last
    generalize empty : ([] : List (Event I)) = before at none
    cases none with
    | nil =>
      have moved : Config.Move c (.did id ⟨op, ans⟩)
          (⟨t, Function.update c.thread id (.live (cmd, next ans))⟩ : Config (programs body) S) :=
        .answer live ⟨next, rfl, rfl⟩ answered
      have reached := @ih ⟨t, Function.update c.thread id (.live (cmd, next ans))⟩
        (Function.update_self ..) rest
      rw [Function.update_idem] at reached
      exact .cons moved reached
    | snoc => simp at empty

section

variable {env : Environment I σ} {S : Shared I Nat} {R : σ → S.State → Prop}
  {body : Cmd → Prog I ρ}

theorem play_reaches (realizes : env.Realizes S R) {id : Nat} {cmd : Cmd} (fuel : Nat)
    {p : Prog I ρ} {s : σ} {c : Config (programs body) S} (live : c.thread id = .live (cmd, p))
    (related : R s c.shared) :
    ∃ w, Reaches Config.Move c ((play (env.respond id) fuel p s).1.map (.did id))
        ⟨w, Function.update c.thread id (.live (cmd, (play (env.respond id) fuel p s).2.1))⟩ ∧
      R (play (env.respond id) fuel p s).2.2 w := by
  have still {s : σ} {p : Prog I ρ} {c : Config (programs body) S}
      (live : c.thread id = .live (cmd, p)) (related : R s c.shared) :
      ∃ w, Reaches Config.Move c [] ⟨w, Function.update c.thread id (.live (cmd, p))⟩ ∧ R s w := by
    refine ⟨c.shared, ?_, related⟩
    rw [← live, Function.update_eq_self]
    exact .nil
  induction fuel generalizing p s c with
  | zero => cases p <;> exact still live related
  | succ fuel ih =>
    cases p with
    | ret => exact still live related
    | ask op next =>
      obtain ⟨w, answered, related⟩ := realizes.respond id op s _ related
      have moved : Config.Move c (.did id ⟨op, (env.respond id op s).1⟩)
          ⟨w, Function.update c.thread id (.live (cmd, next (env.respond id op s).1))⟩ :=
        .answer live ⟨next, rfl, rfl⟩ answered
      obtain ⟨w', reached, related⟩ :=
        @ih _ _ ⟨w, Function.update c.thread id (.live (cmd, _))⟩ (Function.update_self ..) related
      rw [Function.update_idem] at reached
      exact ⟨w', .cons moved reached, related⟩

theorem serve_reaches (realizes : env.Realizes S R) {id : Nat} (cmd : Cmd) (fuel : Nat)
    {s : σ} {c : Config (programs body) S} (unborn : c.thread id = .unborn)
    (related : R s c.shared) :
    ∃ w, Reaches Config.Move c (env.serve body id cmd fuel s).1
        ⟨w, Function.update c.thread id .over⟩ ∧ R (env.serve body id cmd fuel s).2 w := by
  have started : Config.Move c (.started id cmd)
      ⟨c.shared, Function.update c.thread id (.live (cmd, body cmd))⟩ := .start unborn rfl
  obtain ⟨w, reached, related⟩ :=
    @play_reaches _ _ _ _ _ _ _ _ realizes id cmd fuel (body cmd) s
      ⟨c.shared, Function.update c.thread id (.live (cmd, body cmd))⟩
      (Function.update_self ..) related
  have begun := Reaches.cons started reached
  rw [Function.update_idem] at begun
  unfold Environment.serve
  generalize play (env.respond id) fuel (body cmd) s = played at begun related
  obtain ⟨trace, rest, s'⟩ := played
  cases rest with
  | ret value =>
    have ended : Config.Move ⟨w, Function.update c.thread id (.live (cmd, .ret value))⟩ (.ended id)
        (⟨w, Function.update (Function.update c.thread id (.live (cmd, .ret value))) id .over⟩ :
          Config (programs body) S) := .finish (Function.update_self ..) ⟨value, rfl⟩
    rw [Function.update_idem] at ended
    exact ⟨w, begun.trans (.single ended), related⟩
  | ask op next =>
    obtain ⟨w', buried, related⟩ := realizes.bury id op s' w related
    have died : Config.Move ⟨w, Function.update c.thread id (.live (cmd, .ask op next))⟩
        (.died id op)
        (⟨w', Function.update (Function.update c.thread id (.live (cmd, .ask op next))) id .over⟩ :
          Config (programs body) S) := .die (Function.update_self ..) ⟨next, rfl⟩ buried
    rw [Function.update_idem] at died
    exact ⟨w', begun.trans (.single died), related⟩

/-- A schedule is a run. -/
theorem serveAll_reaches (realizes : env.Realizes S R) (calls : List (Cmd × Nat)) {first : Nat}
    {s : σ} {c : Config (programs body) S} (unborn : ∀ id, first ≤ id → c.thread id = .unborn)
    (related : R s c.shared) :
    ∃ c', Reaches Config.Move c (env.serveAll body first calls s).1 c' ∧
      R (env.serveAll body first calls s).2 c'.shared := by
  induction calls generalizing first s c with
  | nil => exact ⟨c, .nil, related⟩
  | cons call calls ih =>
    obtain ⟨cmd, fuel⟩ := call
    obtain ⟨w, reached, related⟩ := serve_reaches realizes cmd fuel (unborn first (Nat.le_refl _)) related
    have later (id : Nat) (above : first + 1 ≤ id) :
        Function.update c.thread first Life.over id = .unborn := by
      rw [Function.update_of_ne (Nat.ne_of_gt above)]
      exact unborn id (Nat.le_of_succ_le above)
    obtain ⟨c', reached', related⟩ := @ih (first + 1) _ ⟨w, _⟩ later related
    exact ⟨c', reached.trans reached', related⟩

theorem serveAll_run (realizes : env.Realizes S R) (calls : List (Cmd × Nat)) {s : σ}
    (related : R s S.init) :
    ∃ c : Config (programs body) S, Config.Run (env.serveAll body 0 calls s).1 c ∧
      R (env.serveAll body 0 calls s).2 c.shared :=
  serveAll_reaches realizes calls (fun _ _ => rfl) related

end
