import Praefectus.Program.Concurrent
import Praefectus.Program.Verdicts

/-!
# Contracts of concurrent calls

A contract says which answers a program may rely on, and what it may ask as long as it got
such answers. Where every call honours the contract, and the system gives such answers as
long as nothing forbidden was asked before, neither is broken in any run.
-/

namespace Prog

variable {I : Interface} {α β ε Φ : Type}

/-- A monitor, and the answers a program relies on. -/
structure Contract (I : Interface) (Φ : Type) extends Monitor I Φ where
  relies : Φ → Event I → Prop

/-- As long as the answers can be relied on, the program asks what is allowed, and ends with
`Q` of its value. -/
def Honours (k : Contract I Φ) (Q : α → Φ → Prop) : Prog I α → Φ → Prop
  | .ret value, φ => Q value φ
  | .ask op next, φ => k.allows φ op ∧
    ∀ ans, k.relies φ ⟨op, ans⟩ → Honours k Q (next ans) (k.learn φ ⟨op, ans⟩)

variable {k : Contract I Φ} {φ : Φ}

/-! ### Rules -/

theorem honours_ret {Q : α → Φ → Prop} {value : α} (holds : Q value φ) :
    (Prog.ret value : Prog I α).Honours k Q φ := holds

theorem honours_mono {Q R : α → Φ → Prop} {p : Prog I α} (honours : p.Honours k Q φ)
    (weaker : ∀ value φ', Q value φ' → R value φ') : p.Honours k R φ := by
  induction p generalizing φ with
  | ret value => exact weaker value φ honours
  | ask op next ih => exact ⟨honours.1, fun ans relied => ih ans (honours.2 ans relied)⟩

theorem honours_bind {Q : β → Φ → Prop} {p : Prog I α} {f : α → Prog I β}
    (first : p.Honours k (fun value φ' => (f value).Honours k Q φ') φ) :
    (p >>= f).Honours k Q φ := by
  induction p generalizing φ with
  | ret value => exact first
  | ask op next ih => exact ⟨first.1, fun ans relied => ih ans (first.2 ans relied)⟩

/-- A program that may fail, and the rest if it does not. -/
theorem honours_try {Q : Except ε β → Φ → Prop} {x : ExceptT ε (Prog I) α}
    {f : α → ExceptT ε (Prog I) β}
    (first : x.run.Honours k (fun result φ' =>
      match result with
      | .ok value => (f value).run.Honours k Q φ'
      | .error e => Q (.error e) φ') φ) : (x >>= f).run.Honours k Q φ := by
  rw [run_bind]
  refine honours_bind (honours_mono first fun result φ' holds => ?_)
  cases result <;> exact holds

section Only

variable {P : I.Op → Prop}

/-- Questions that are always allowed, and of which nothing is learned. -/
theorem honours_only (allowed : ∀ op, P op → k.allows φ op)
    (still : ∀ op ans, P op → k.learn φ ⟨op, ans⟩ = φ) {p : Prog I α} (only : p.Only P) :
    p.Honours k (fun _ φ' => φ' = φ) φ := by
  induction p with
  | ret value => rfl
  | ask op next ih =>
    refine ⟨allowed op only.1, fun ans _ => ?_⟩
    rw [still op ans only.1]
    exact ih ans (only.2 ans)

/-- Their value is one that a run of the program may return. -/
theorem honours_returned (allowed : ∀ op, P op → k.allows φ op)
    (still : ∀ op ans, P op → k.learn φ ⟨op, ans⟩ = φ) {p : Prog I α} (only : p.Only P) :
    p.Honours k (fun value φ' => φ' = φ ∧ ∃ trace, Steps p trace (.ret value)) φ := by
  induction p with
  | ret value => exact ⟨rfl, [], .refl _⟩
  | ask op next ih =>
    refine ⟨allowed op only.1, fun ans _ => ?_⟩
    rw [still op ans only.1]
    refine honours_mono (ih ans (only.2 ans)) ?_
    rintro value _ ⟨same, trace, run⟩
    exact ⟨same, ⟨op, ans⟩ :: trace, .step ans run⟩

theorem honours_after {Q : Except ε β → Φ → Prop} {p : Prog I α}
    {f : α → ExceptT ε (Prog I) β} (allowed : ∀ op, P op → k.allows φ op)
    (still : ∀ op ans, P op → k.learn φ ⟨op, ans⟩ = φ) (only : p.Only P)
    (rest : ∀ value, (f value).run.Honours k Q φ) :
    ((monadLift p : ExceptT ε (Prog I) α) >>= f).run.Honours k Q φ := by
  refine honours_try ?_
  rw [run_monadLift]
  refine honours_bind (honours_mono (honours_only allowed still only) ?_)
  rintro value _ rfl
  exact rest value

end Only

end Prog

/-! ### Calls that honour a contract -/

section Calls

open Prog

variable {I : Interface} {Id Cmd Φ ρ : Type} [DecidableEq Id]

/-- The questions of one call and their answers. -/
def historyOf (id : Id) (log : List (Entry I Id Cmd)) : List (Event I) :=
  log.filterMap fun
    | .did id' e => if id' = id then some e else none
    | _ => none

theorem historyOf_concat (id : Id) (log : List (Entry I Id Cmd)) (e : Entry I Id Cmd) :
    historyOf id (log ++ [e]) = historyOf id log ++ historyOf id [e] := by
  simp [historyOf]

theorem historyOf_own (id : Id) (log : List (Entry I Id Cmd)) (e : Event I) :
    historyOf id (log ++ [.did id e]) = historyOf id log ++ [e] := by
  simp [historyOf]

theorem historyOf_other {id id' : Id} (differs : id' ≠ id) (log : List (Entry I Id Cmd))
    (e : Event I) : historyOf id' (log ++ [.did id e]) = historyOf id' log := by
  simp [historyOf, Ne.symm differs]

/-- What is unborn after the stage of a call that was born changed. -/
theorem unborn_update {θ : Type} {thread : Id → Life θ} {id id' : Id} {stage : Life θ}
    (unborn : Function.update thread id stage id' = .unborn) (born : stage ≠ .unborn) :
    id' ≠ id ∧ thread id' = .unborn := by
  by_cases same : id' = id
  · subst same
    rw [Function.update_self] at unborn
    exact absurd unborn born
  · rw [Function.update_of_ne same] at unborn
    exact ⟨same, unborn⟩

/-- What a call asks, whether or not it lives to see the answer. -/
def Entry.Asks (id : Id) (op : I.Op) : Entry I Id Cmd → Prop
  | .did id' e => id' = id ∧ e.op = op
  | .died id' op' => id' = id ∧ op' = op
  | _ => False

variable {body : Cmd → Prog I ρ} {S : Shared I Id} {k : Contract I Φ} {φ₀ : Φ}

/-- The calls honour the contract from where their histories have led its monitor. -/
structure Contracted (k : Contract I Φ) (φ₀ : Φ) (log : List (Entry I Id Cmd))
    (c : Config (programs body) S) : Prop where
  fresh : ∀ id, c.thread id = .unborn → historyOf id log = []
  honours : ∀ id cmd p, c.thread id = .live (cmd, p) →
    p.Honours k (fun _ _ => True) (k.after φ₀ (historyOf id log))

section

variable {log : List (Entry I Id Cmd)} {c c' : Config (programs body) S} {e : Entry I Id Cmd}

theorem contracted_init : Contracted k φ₀ [] (Config.init : Config (programs body) S) :=
  ⟨fun _ _ => rfl, fun _ _ _ none => by cases none⟩

/-- An entry that is no answer leaves the histories as they are. -/
theorem contracted_quiet (contracted : Contracted k φ₀ log c) (quiet : ∀ id, historyOf id [e] = [])
    (fresh : ∀ id, c'.thread id = .unborn → c.thread id = .unborn)
    (honours : ∀ id cmd p, c'.thread id = .live (cmd, p) → c.thread id = .live (cmd, p) ∨
      historyOf id log = [] ∧ p.Honours k (fun _ _ => True) φ₀) : Contracted k φ₀ (log ++ [e]) c' where
  fresh id unborn := by
    rw [historyOf_concat, quiet, List.append_nil]
    exact contracted.fresh id (fresh id unborn)
  honours id cmd p live := by
    rw [historyOf_concat, quiet, List.append_nil]
    rcases honours id cmd p live with live | ⟨none, honours⟩
    · exact contracted.honours id cmd p live
    · rw [none]
      exact honours

theorem contracted_move (honours : ∀ cmd, (body cmd).Honours k (fun _ _ => True) φ₀)
    (contracted : Contracted k φ₀ log c) (move : Config.Move c e c')
    (relied : ∀ id e', e = .did id e' → k.relies (k.after φ₀ (historyOf id log)) e') :
    Contracted k φ₀ (log ++ [e]) c' := by
  cases move with
  | @start id cmd θ unborn started =>
    obtain rfl : θ = (cmd, body cmd) := started
    refine contracted_quiet contracted (fun _ => rfl) (fun _ => ?_) fun id' cmd' p live => ?_
    · exact fun unborn' => (unborn_update unborn' nofun).2
    · rcases live_update live with ⟨rfl, same⟩ | ⟨_, live⟩
      · cases same
        exact .inr ⟨contracted.fresh _ unborn, honours cmd⟩
      · exact .inl live
  | @answer id θ θ' e s live stepped answered =>
    obtain ⟨cmd, p⟩ := θ
    obtain ⟨next, rfl, rfl⟩ := stepped
    have asked := contracted.honours id cmd _ live
    constructor
    · intro id' unborn
      obtain ⟨differs, unborn⟩ := unborn_update unborn nofun
      rw [historyOf_other differs]
      exact contracted.fresh id' unborn
    · intro id' cmd' p live'
      rcases live_update live' with ⟨rfl, same⟩ | ⟨differs, live'⟩
      · cases same
        rw [historyOf_own, Monitor.after, List.foldl_append]
        exact asked.2 e.ans (relied id' e rfl)
      · rw [historyOf_other differs]
        exact contracted.honours id' cmd' p live'
  | die | finish =>
    refine contracted_quiet contracted (fun _ => rfl) (fun _ => ?_) fun id' cmd' p live' => ?_
    · exact fun unborn => (unborn_update unborn nofun).2
    · rcases live_update live' with ⟨_, same⟩ | ⟨_, live'⟩
      · contradiction
      · exact .inl live'
  | outside dead struck =>
    exact contracted_quiet contracted (fun _ => rfl) (fun _ unborn => unborn) fun _ _ _ live => .inl live

/-- What a call asks next is allowed. -/
theorem contracted_asks (contracted : Contracted k φ₀ log c) (move : Config.Move c e c') {id : Id} {op : I.Op}
    (asks : e.Asks id op) : k.allows (k.after φ₀ (historyOf id log)) op := by
  cases move with
  | @answer id' θ θ' e s live stepped answered =>
    obtain ⟨rfl, rfl⟩ := asks
    obtain ⟨cmd, p⟩ := θ
    obtain ⟨next, rfl, rfl⟩ := stepped
    exact (contracted.honours _ cmd _ live).1
  | @die id' θ op' s live asked abandoned =>
    obtain ⟨rfl, rfl⟩ := asks
    obtain ⟨cmd, p⟩ := θ
    obtain ⟨next, rfl⟩ := asked
    exact (contracted.honours _ cmd _ live).1
  | _ => exact asks.elim

end

/-- Everything that was asked was allowed when it was asked. -/
def AllAllowed (k : Contract I Φ) (φ₀ : Φ) (log : List (Entry I Id Cmd)) : Prop :=
  ∀ before e after, log = before ++ e :: after → ∀ id op, e.Asks id op →
    k.allows (k.after φ₀ (historyOf id before)) op

/-- Every answer could be relied on when it was given. -/
def AllRelied (k : Contract I Φ) (φ₀ : Φ) (log : List (Entry I Id Cmd)) : Prop :=
  ∀ before id e after, log = before ++ .did id e :: after →
    k.relies (k.after φ₀ (historyOf id before)) e

/-- **Contracts are kept**: where each answer can be relied on if the contract was kept until
then, it is kept throughout. -/
theorem contract_run (honours : ∀ cmd, (body cmd).Honours k (fun _ _ => True) φ₀)
    {log : List (Entry I Id Cmd)} {c : Config (programs body) S} (run : Config.Run log c)
    (right : ∀ before id e after, log = before ++ .did id e :: after →
      AllAllowed k φ₀ (before ++ [.did id e]) → AllRelied k φ₀ before →
      k.relies (k.after φ₀ (historyOf id before)) e) :
    AllAllowed k φ₀ log ∧ AllRelied k φ₀ log := by
  suffices kept : AllAllowed k φ₀ log ∧ AllRelied k φ₀ log ∧ Contracted k φ₀ log c from
    ⟨kept.1, kept.2.1⟩
  induction log using List.reverseRecOn generalizing c with
  | nil =>
    generalize empty : ([] : List (Entry I Id Cmd)) = log at run
    cases run with
    | nil =>
      refine ⟨?_, ?_, contracted_init⟩
      · intro before e after whole
        simp at whole
      · intro before id e after whole
        simp at whole
    | snoc => simp at empty
  | append_singleton log e ih =>
    obtain ⟨b, run, move⟩ := run.last
    obtain ⟨allowed, relied, contracted⟩ := ih run fun before id e' after whole =>
      right before id e' (after ++ [e]) (by simp [whole])
    -- the last entry of a longer log, or one of the log before
    have cut {e' : Entry I Id Cmd} {before after : List (Entry I Id Cmd)}
        (whole : log ++ [e] = before ++ e' :: after) :
        (before = log ∧ e' = e) ∨ ∃ after', log = before ++ e' :: after' := by
      rcases List.eq_nil_or_concat after with rfl | ⟨after, last, rfl⟩
      · obtain ⟨rfl, same⟩ := List.append_inj' whole rfl
        exact .inl ⟨rfl, (List.singleton_inj.mp same).symm⟩
      · rw [List.concat_eq_append, ← List.cons_append, ← List.append_assoc] at whole
        exact .inr ⟨after, (List.append_inj' whole rfl).1⟩
    have allowed' : AllAllowed k φ₀ (log ++ [e]) := by
      intro before e' after whole id op asks
      rcases cut whole with ⟨rfl, rfl⟩ | ⟨after', whole⟩
      · exact contracted_asks contracted move asks
      · exact allowed before e' after' whole id op asks
    have relied' : AllRelied k φ₀ (log ++ [e]) := by
      intro before id e' after whole
      rcases cut whole with ⟨rfl, rfl⟩ | ⟨after', whole⟩
      · exact right _ id e' [] rfl allowed' relied
      · exact relied before id e' after' whole
    refine ⟨allowed', relied', contracted_move honours contracted move ?_⟩
    rintro id e' rfl
    exact relied' log id e' [] rfl

/-- What a call asks is among what its program may ask. -/
theorem asked_only {P : Cmd → I.Op → Prop} (only : ∀ cmd, (body cmd).Only (P cmd))
    {log : List (Entry I Id Cmd)} {c : Config (programs body) S} (run : Config.Run log c)
    {e : Entry I Id Cmd} (member : e ∈ log) {id : Id} {op : I.Op} (asks : e.Asks id op) :
    ∃ cmd, .started id cmd ∈ log ∧ P cmd op := by
  suffices kept : (∀ e ∈ log, ∀ id op, e.Asks id op → ∃ cmd, .started id cmd ∈ log ∧ P cmd op) ∧
      ∀ id cmd p, c.thread id = .live (cmd, p) → .started id cmd ∈ log ∧ p.Only (P cmd) from
    kept.1 e member id op asks
  clear member asks
  refine Reaches.invariant (fun log (c : Config (programs body) S) =>
    (∀ e ∈ log, ∀ id op, e.Asks id op → ∃ cmd, .started id cmd ∈ log ∧ P cmd op) ∧
      ∀ id cmd p, c.thread id = .live (cmd, p) → .started id cmd ∈ log ∧ p.Only (P cmd)) ?_ ?_ run
  · exact ⟨fun _ member => absurd member List.not_mem_nil, fun _ _ _ none => by cases none⟩
  · intro log c e c' _ kept move
    obtain ⟨asked, live⟩ := kept
    -- the last entry asks what the program of its call may ask
    have asked' (last : ∀ id op, e.Asks id op → ∃ cmd, .started id cmd ∈ log ∧ P cmd op) :
        ∀ e' ∈ log ++ [e], ∀ id op, e'.Asks id op →
          ∃ cmd, .started id cmd ∈ log ++ [e] ∧ P cmd op := by
      intro e' member id op asks
      have earlier : ∃ cmd, .started id cmd ∈ log ∧ P cmd op := by
        rcases List.mem_append.mp member with member | member
        · exact asked e' member id op asks
        · obtain rfl := List.mem_singleton.mp member
          exact last id op asks
      obtain ⟨cmd, started, allowed⟩ := earlier
      exact ⟨cmd, List.mem_append_left _ started, allowed⟩
    have still {id : Id} {cmd : Cmd} {p : Prog I ρ} (here : c.thread id = .live (cmd, p)) :
        .started id cmd ∈ log ++ [e] ∧ p.Only (P cmd) :=
      ⟨List.mem_append_left _ (live id cmd p here).1, (live id cmd p here).2⟩
    cases move with
    | @start id cmd θ unborn started =>
      obtain rfl : θ = (cmd, body cmd) := started
      refine ⟨asked' fun _ _ none => none.elim, fun id' cmd' p here => ?_⟩
      rcases live_update here with ⟨rfl, same⟩ | ⟨_, here⟩
      · cases same
        exact ⟨List.mem_append_right _ List.mem_cons_self, only cmd⟩
      · exact still here
    | @answer id θ θ' e s here stepped answered =>
      obtain ⟨cmd, p⟩ := θ
      obtain ⟨next, rfl, rfl⟩ := stepped
      obtain ⟨started, only⟩ := live id cmd _ here
      refine ⟨asked' ?_, fun id' cmd' p here' => ?_⟩
      · rintro _ _ ⟨rfl, rfl⟩
        exact ⟨cmd, started, only.1⟩
      · rcases live_update here' with ⟨rfl, same⟩ | ⟨_, here'⟩
        · cases same
          exact ⟨List.mem_append_left _ started, only.2 e.ans⟩
        · exact still here'
    | @die id θ op s here pending abandoned =>
      obtain ⟨cmd, p⟩ := θ
      obtain ⟨next, rfl⟩ := pending
      obtain ⟨started, only⟩ := live id cmd _ here
      refine ⟨asked' ?_, fun id' cmd' p here' => ?_⟩
      · rintro _ _ ⟨rfl, rfl⟩
        exact ⟨cmd, started, only.1⟩
      · rcases live_update here' with ⟨_, same⟩ | ⟨_, here'⟩
        · contradiction
        · exact still here'
    | finish =>
      refine ⟨asked' fun _ _ none => none.elim, fun id' cmd' p here => ?_⟩
      rcases live_update here with ⟨_, same⟩ | ⟨_, here⟩
      · contradiction
      · exact still here
    | outside => exact ⟨asked' fun _ _ none => none.elim, fun id cmd p here => still here⟩

end Calls
