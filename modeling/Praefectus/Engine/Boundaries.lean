import Praefectus.Engine.Endings

/-!
# The boundary between the executor and the dispatch

Time goes on while a call waits for its executor. After each wait the call looks at its
cancellation token and at the clock again before it dispatches, except after the sample of a
shared desktop: a sample that comes late is not noticed.
-/

/-! ### What a program ensures -/

namespace Prog

variable {I : Interface} {α β ε : Type}

theorem ensures_try {Q : List (Event I) → Except ε β → Prop} {x : ExceptT ε (Prog I) α}
    {f : α → ExceptT ε (Prog I) β} {past : List (Event I)}
    (first : x.run.Ensures (fun now result =>
      match result with
      | .ok a => (f a).run.Ensures Q now
      | .error e => Q now (.error e)) past) : (x >>= f).run.Ensures Q past := by
  rw [run_bind]
  refine ensures_bind (ensures_mono first fun now result _ holds => ?_)
  cases result <;> exact holds

theorem ensures_after {Q : List (Event I) → Except ε β → Prop} {p : Prog I α}
    {f : α → ExceptT ε (Prog I) β} {past : List (Event I)}
    (first : p.Ensures (fun now a => (f a).run.Ensures Q now) past) :
    ((monadLift p : ExceptT ε (Prog I) α) >>= f).run.Ensures Q past := by
  refine ensures_try ?_
  rw [run_monadLift]
  exact ensures_bind (ensures_mono first fun _ _ _ holds => holds)

end Prog

/-- An element of a list that grew by one is the last, or was there before. -/
theorem split_concat {ε : Type} {past before after : List ε} {e x : ε}
    (same : past ++ [x] = before ++ e :: after) :
    (before = past ∧ e = x) ∨ ∃ rest, after = rest ++ [x] ∧ past = before ++ e :: rest := by
  rcases List.eq_nil_or_concat after with rfl | ⟨rest, last, rfl⟩
  · obtain ⟨rfl, last⟩ := List.append_inj' same rfl
    exact .inl ⟨rfl, (List.singleton_inj.mp last).symm⟩
  · rw [List.concat_eq_append, ← List.cons_append, ← List.append_assoc] at same
    obtain ⟨rfl, last⟩ := List.append_inj' same rfl
    obtain rfl := List.singleton_inj.mp last
    exact .inr ⟨rest, List.concat_eq_append, rfl⟩

namespace Praefectus

open Prog

/-! ### Time -/

/-- Whether cancellation was requested, and what the clock shows, as each question of a call
is answered. Neither goes back. -/
structure Timeline where
  cancelled : Nat → Bool
  clock : Nat → Int64
  stays : ∀ m n, m ≤ n → cancelled m = true → cancelled n = true
  ascends : ∀ m n, m ≤ n → clock m ≤ clock n

namespace Timeline

variable (τ : Timeline)

/-- The call read its token and its clock off the timeline. -/
def Tells (history : History) : Prop :=
  ∀ before e after, history = before ++ e :: after →
    (∀ cancelled, e = ⟨.isCancelled, cancelled⟩ → cancelled = τ.cancelled before.length) ∧
    ∀ t, e = ⟨.now, t⟩ → t = τ.clock before.length

/-- Cancelled, or past the deadline. -/
def Passed (deadlineAtMs : Int64) (n : Nat) : Prop :=
  τ.cancelled n = true ∨ deadlineAtMs ≤ τ.clock n

variable {τ}

theorem tells_left {first rest : History} (told : τ.Tells (first ++ rest)) : τ.Tells first := by
  rintro before e after rfl
  exact told before e (after ++ rest) (by simp)

/-- Nothing with the property was answered after the boundary. -/
def NoneLate (τ : Timeline) (deadlineAtMs : Int64) (P : Event Engine → Prop) (history : History) :
    Prop :=
  τ.Tells history → ∀ before e after, history = before ++ e :: after → P e →
    ¬ τ.Passed deadlineAtMs before.length

variable {deadlineAtMs : Int64} {P R : Event Engine → Prop} {history more : History}

theorem noneLate_mono (none : τ.NoneLate deadlineAtMs P history) (weaker : ∀ e, R e → P e) :
    τ.NoneLate deadlineAtMs R history :=
  fun told before e after same holds => none told before e after same (weaker e holds)

theorem noneLate_concat {e : Event Engine} (none : τ.NoneLate deadlineAtMs P history)
    (other : ¬ P e) : τ.NoneLate deadlineAtMs P (history ++ [e]) := by
  intro told before e' after same holds
  rcases split_concat same with ⟨rfl, rfl⟩ | ⟨rest, rfl, rfl⟩
  · exact absurd holds other
  · exact none (tells_left told) before e' rest rfl holds

theorem noneLate_append (none : τ.NoneLate deadlineAtMs P history) (others : ∀ e ∈ more, ¬ P e) :
    τ.NoneLate deadlineAtMs P (history ++ more) := by
  induction more generalizing history with
  | nil => rwa [List.append_nil]
  | cons e more ih =>
    obtain ⟨first, later⟩ := List.forall_mem_cons.mp others
    have grown := ih (noneLate_concat none first) later
    rwa [List.append_assoc, List.singleton_append] at grown

/-- Where the token and the clock are found short of the boundary, nothing before was late. -/
theorem noneLate_checked {t : Int64} (early : ¬ t ≥ deadlineAtMs)
    (waits : ∀ e : Event Engine, P e → e.op ≠ .isCancelled ∧ e.op ≠ .now) :
    τ.NoneLate deadlineAtMs P (history ++ [⟨.isCancelled, false⟩] ++ [⟨.now, t⟩]) := by
  intro told before e after same holds passed
  obtain ⟨other, other'⟩ := waits e holds
  rcases split_concat same with ⟨rfl, rfl⟩ | ⟨rest, rfl, earlier⟩
  · exact other' rfl
  rcases split_concat earlier with ⟨rfl, rfl⟩ | ⟨rest, rfl, rfl⟩
  · exact other rfl
  -- the token is read after the event, the clock after the token
  have token := (told (before ++ e :: rest) _ [⟨.now, t⟩] (by simp)).1 false rfl
  have clock := (told (before ++ e :: rest ++ [⟨.isCancelled, false⟩]) _ _ rfl).2 t rfl
  rcases passed with cancelled | late
  · rw [τ.stays _ _ (by simp) cancelled] at token
    cases token
  · refine early ?_
    rw [clock]
    exact Int64.le_trans late (τ.ascends _ _ (by simp))

end Timeline

/-! ### The executor -/

/-- Questions to the executor, the dispatch apart. -/
def EngineOp.IsExecutorCall : EngineOp → Prop
  | .sessionIsolation | .capabilities | .observeWithBoundary .. | .resolveWithBoundary ..
  | .contextHashWithBoundary _ => True
  | _ => False

/-- The shared desktop was sampled. -/
def IsSampled : Event Engine → Prop
  | ⟨.contextHashWithBoundary _, .ok _⟩ => True
  | _ => False

/-- What can be the last executor call before a dispatch, or before the check that stops it. An
observation is followed by a resolution. -/
def LeadsOn : Event Engine → Prop
  | ⟨.sessionIsolation, _⟩ | ⟨.capabilities, _⟩ | ⟨.resolveWithBoundary .., .ok _⟩
  | ⟨.contextHashWithBoundary _, .ok _⟩ => True
  | _ => False

theorem leadsOn_call {e : Event Engine} (leads : LeadsOn e) : e.op.IsExecutorCall := by
  unfold LeadsOn at leads
  split at leads
  · trivial
  · trivial
  · trivial
  · trivial
  · exact leads.elim

/-- Executor calls after which the boundary is looked at again. -/
def IsChecked (e : Event Engine) : Prop := e.op.IsExecutorCall ∧ ¬ IsSampled e

theorem checked_waits (e : Event Engine) (checked : IsChecked e) :
    e.op ≠ .isCancelled ∧ e.op ≠ .now := by
  obtain ⟨op, ans⟩ := e
  obtain ⟨call, _⟩ := checked
  cases op <;> simp_all [EngineOp.IsExecutorCall]

/-- Nothing was dispatched, and no desktop sampled. -/
def Calm (history : History) : Prop := ∀ e ∈ history, ¬ e.op.IsDispatch ∧ ¬ IsSampled e

theorem calm_append {first rest : History} (calm : Calm first) (calm' : Calm rest) :
    Calm (first ++ rest) := List.forall_mem_append.mpr ⟨calm, calm'⟩

theorem calm_concat {history : History} {e : Event Engine} (calm : Calm history)
    (still : ¬ e.op.IsDispatch) (unsampled : ¬ IsSampled e) : Calm (history ++ [e]) :=
  calm_append calm (List.forall_mem_singleton.mpr ⟨still, unsampled⟩)

def Terminal.isStopped : Terminal → Bool
  | .cancelledBeforeEffect | .expiredBeforeEffect => true
  | _ => false

namespace Execution

variable {execution : Execution} {τ : Timeline} {past : History}

/-- What is known when a phase of the way to the dispatch is over. -/
def Underway (execution : Execution) (τ : Timeline) (now : History) : Prop :=
  Calm now ∧ τ.NoneLate execution.deadlineAtMs IsChecked now

/-- Nothing was late that could have led on. -/
def Unled (execution : Execution) (τ : Timeline) (now : History) : Prop :=
  Calm now ∧ τ.NoneLate execution.deadlineAtMs (fun e => LeadsOn e ∧ ¬ IsSampled e) now

/-- How the way to the dispatch ends early: at the boundary, or when nothing was late that
could have led on. -/
def Ends (execution : Execution) (τ : Timeline) (now : History) (terminal : Terminal) : Prop :=
  Calm now ∧ terminal.isStopped = true ∨ execution.Unled τ now

theorem unled_of_underway (underway : execution.Underway τ past) : execution.Unled τ past :=
  ⟨underway.1, Timeline.noneLate_mono underway.2 fun _ leads => ⟨leadsOn_call leads.1, leads.2⟩⟩

theorem ends_of_underway {terminal : Terminal} (underway : execution.Underway τ past) :
    execution.Ends τ past terminal := .inr (unled_of_underway underway)

/-- An answer that does not lead on may come at any time. -/
theorem unled_concat {e : Event Engine} (unled : execution.Unled τ past)
    (still : ¬ e.op.IsDispatch) (unsampled : ¬ IsSampled e) (other : ¬ LeadsOn e) :
    execution.Unled τ (past ++ [e]) :=
  ⟨calm_concat unled.1 still unsampled, Timeline.noneLate_concat unled.2 fun leads => other leads.1⟩

theorem checkBoundary_ensures (τ : Timeline) (calm : Calm past) :
    execution.checkBoundary.run.Ensures (fun now result =>
      match result with
      | .ok _ => execution.Underway τ now
      | .error terminal => execution.Ends τ now terminal) past := by
  refine ensures_after fun cancelled => ?_
  cases cancelled with
  | true => exact .inl ⟨calm_concat calm id id, rfl⟩
  | false =>
    refine ensures_after fun t => ?_
    have calm' : Calm (past ++ [⟨.isCancelled, false⟩] ++ [⟨.now, t⟩]) :=
      calm_concat (calm_concat calm id id) id id
    change (if t ≥ execution.deadlineAtMs then throw .expiredBeforeEffect
      else pure () : PhaseM Unit).run.Ensures _ _
    by_cases late : t ≥ execution.deadlineAtMs
    · rw [if_pos late]
      exact .inl ⟨calm', rfl⟩
    · rw [if_neg late]
      exact ⟨calm', Timeline.noneLate_checked late checked_waits⟩

/-- A check, and the rest of the way if it passed. -/
theorem check_ensures {α : Type} {Q : History → Except Terminal α → Prop} {rest : PhaseM α}
    (τ : Timeline) (calm : Calm past)
    (stops : ∀ now terminal, execution.Ends τ now terminal → Q now (.error terminal))
    (goes : ∀ now, execution.Underway τ now → rest.run.Ensures Q now) :
    (execution.checkBoundary >>= fun _ => rest).run.Ensures Q past := by
  refine ensures_try (ensures_mono (checkBoundary_ensures τ calm) fun now result _ holds => ?_)
  cases result with
  | ok => exact goes now holds
  | error terminal => exact stops now terminal holds

/-- A step on the way to the dispatch leaves no late check, or a terminal. -/
def Prepares {α : Type} (τ : Timeline) (now : History) : Except Terminal α → Prop
  | .ok _ => τ.NoneLate execution.deadlineAtMs IsChecked now
  | .error terminal => execution.Ends τ now terminal

theorem ensures_answered {α β : Type} {Q : History → Except Terminal β → Prop} {value : α}
    {f : α → PhaseM β} (rest : (f value).run.Ensures Q past) :
    (orFail (.ok value) >>= f).run.Ensures Q past := rest

/-- The last sample is not checked: it may come late. -/
theorem contextBefore_ensures (underway : execution.Underway τ past) :
    execution.contextBefore.run.Ensures (execution.Prepares τ) past := by
  unfold contextBefore
  split
  · refine ensures_after fun sample => ?_
    cases sample with
    | ok context => exact Timeline.noneLate_concat underway.2 fun checked => checked.2 trivial
    | error error =>
      cases error <;> exact .inr (unled_concat (unled_of_underway underway) id id id)
  · exact underway.2

/-- The way to the dispatch: where it ends well, nothing was late but the last sample. -/
theorem prepare_ensures (τ : Timeline) (calm : Calm past) :
    execution.prepare.run.Ensures (execution.Prepares τ) past := by
  refine ensures_after fun noted => ?_
  refine check_ensures τ (calm_concat calm id id) (fun _ _ ends => ends) fun now underway => ?_
  split
  · exact ends_of_underway underway
  refine ensures_after fun capabilities => ?_
  refine check_ensures τ (calm_concat underway.1 id id) (fun _ _ ends => ends) fun now underway => ?_
  cases capabilities with
  | error error => exact ends_of_underway underway
  | ok capabilities =>
    refine ensures_answered ?_
    cases strictActionCapability capabilities execution.request.action with
    | none => exact ends_of_underway underway
    | some actionCapability =>
    dsimp only
    split
    · exact ends_of_underway underway
    refine ensures_after fun observed => ?_
    cases observed with
    | error error => exact .inr (unled_concat (unled_of_underway underway) id id id)
    | ok observed =>
      refine ensures_try ?_
      refine ensures_after fun resolved => ?_
      let observation : Event Engine :=
        ⟨.observeWithBoundary execution.request.target execution.deadlineAtMs, .ok observed⟩
      have unled : execution.Unled τ (now ++ [observation]) :=
        unled_concat (unled_of_underway underway) id id id
      cases resolved with
      | error error => exact .inr (unled_concat unled id id id)
      | ok resolved =>
        refine ensures_try ?_
        refine ensures_after fun noted => ?_
        refine check_ensures τ (calm_concat (calm_concat unled.1 id id) id id)
          (fun _ _ ends => ends) fun now underway => ?_
        refine ensures_try ?_
        refine ensures_mono (contextBefore_ensures underway) fun now result _ holds => ?_
        cases result <;> exact holds

end Execution

/-! ### Calls that do not go on to the dispatch -/

/-- Questions of a call that has not taken its operation on. -/
def EngineOp.IsAside : EngineOp → Prop
  | .trajectory acknowledgement => acknowledgement.state ≠ .accepted
  | .dispatch .. | .contextHashWithBoundary _ => False
  | _ => True

/-- The operation was taken on: it is noted as accepted before anything is asked for it. -/
def TakenOn (history : History) : Prop :=
  ∃ acknowledgement answer, (⟨.trajectory acknowledgement, answer⟩ : Event Engine) ∈ history ∧
    acknowledgement.state = .accepted

theorem aside_calm {history : History} (aside : ∀ e ∈ history, e.op.IsAside) : Calm history := by
  intro e member
  have aside := aside e member
  obtain ⟨op, ans⟩ := e
  cases op <;> first | exact aside.elim | exact ⟨id, id⟩

theorem aside_not_takenOn {history : History} (aside : ∀ e ∈ history, e.op.IsAside) :
    ¬ TakenOn history := by
  rintro ⟨acknowledgement, answer, member, accepted⟩
  exact aside _ member accepted

theorem aside_ask {op : EngineOp} (aside : op.IsAside) : (ask op).Only EngineOp.IsAside :=
  ⟨aside, fun _ => trivial⟩

theorem aside_repairTail : repairTail.run.Only EngineOp.IsAside := ⟨trivial, fun _ => trivial⟩

theorem aside_begin (outcomes : Outcomes) (key : OutcomeKey) :
    (begin outcomes key).run.Only EngineOp.IsAside := ⟨trivial, fun _ => trivial⟩

theorem aside_finish {acknowledgement : ActionAck} (settled : acknowledgement.state ≠ .accepted) :
    (finish acknowledgement).run.Only EngineOp.IsAside :=
  only_try (aside_ask trivial) fun _ => only_lift (only_bind (aside_ask settled) fun _ => trivial)

theorem aside_claim (build : Build) (request : ActionRequest) (actionHash : String)
    (sessionIsolation : SessionIsolation) :
    (claim build request actionHash sessionIsolation).run.Only EngineOp.IsAside := by
  refine only_try (aside_ask trivial) fun found => ?_
  split
  · split <;> exact trivial
  · refine only_try (only_lift (aside_ask trivial)) fun claimedAtMs => ?_
    exact only_try (aside_ask trivial) fun _ => trivial

theorem aside_reconcileInterrupted (outcomes : Outcomes) (acknowledgement : ActionAck) :
    (reconcileInterrupted outcomes acknowledgement).run.Only EngineOp.IsAside := by
  unfold reconcileInterrupted
  split
  · refine only_try (aside_ask trivial) fun decision => ?_
    cases decision with
    | recorded terminal => exact only_try (aside_finish (fun same => nomatch same)) fun _ => trivial
    | _ => exact trivial
  · exact trivial

namespace Execution

variable (execution : Execution)

theorem aside_emptyReceipt (sessionIsolation : SessionIsolation) :
    (execution.emptyReceipt sessionIsolation).Only EngineOp.IsAside :=
  only_bind (aside_ask trivial) fun _ => only_bind (aside_ask trivial) fun _ => trivial

theorem aside_settle (acknowledgements : List ActionAck) (terminal : Terminal) :
    (do
      finish (execution.terminalAck terminal)
      pure ⟨acknowledgements⟩ : EngineM ExecuteReport).run.Only EngineOp.IsAside :=
  only_try (aside_finish (fun same => nomatch same)) fun _ => trivial

theorem aside_recovered (claim : ClaimFacts) :
    (execution.recovered claim).run.Only EngineOp.IsAside := by
  refine only_try (only_lift (execution.aside_emptyReceipt _)) fun receipt => ?_
  refine only_try (aside_ask trivial) fun decision => ?_
  cases decision <;> exact execution.aside_settle _ _

theorem aside_resolved (decision : LedgerDecision) :
    (execution.resolved decision).Only EngineOp.IsAside := by
  cases decision with
  | interrupted => exact only_bind (execution.aside_emptyReceipt _) fun _ => trivial
  | _ => exact trivial

end Execution

/-! ### How a call ends, seen from the boundary -/

/-- The terminal that a question is to store. -/
def EngineOp.stores : EngineOp → Option Terminal
  | .record _ _ terminal => some terminal
  | .ledger (.append (.terminal acknowledgement)) =>
    match acknowledgement.state with
    | .terminal terminal => some terminal
    | _ => none
  | _ => none

/-- The call reports that it was stopped before an effect, or fails as it stores just that. -/
def Stopped (history : History) : Except ProtocolError ExecuteReport → Prop
  | .ok report => report.terminal?.any Terminal.isStopped = true
  | .error e => ∃ event ∈ history, Fails event e ∧ event.op.stores.any Terminal.isStopped = true

theorem stopped_append {first rest : History} {result : Except ProtocolError ExecuteReport}
    (stopped : Stopped rest result) : Stopped (first ++ rest) result := by
  cases result with
  | ok report => exact stopped
  | error e =>
    obtain ⟨event, member, told⟩ := stopped
    exact ⟨event, List.mem_append_right _ member, told⟩

namespace Execution

variable {execution : Execution} {τ : Timeline} {past history : History}
  {result : Except ProtocolError ExecuteReport}

theorem finishWithoutEffect_stopped {acknowledgements : List ActionAck} {terminal : Terminal}
    (run : Steps (execution.finishWithoutEffect acknowledgements terminal).run history (.ret result))
    (stopped : terminal.isStopped = true) : Stopped history result := by
  cases result with
  | ok report =>
    rw [Stopped, finishWithoutEffect_report run]
    exact stopped
  | error e =>
    rcases steps_try.mp run with ⟨_, failed, same⟩ | ⟨first, _, rest, rfl, _, after⟩
    · cases same
      obtain rfl := steps_ask.mp failed
      exact ⟨_, List.mem_cons_self, rfl, stopped⟩
    rcases steps_try.mp after with ⟨_, failed, same⟩ | ⟨_, _, _, rfl, _, ending⟩
    · cases same
      rcases steps_try.mp failed with ⟨_, failed, same⟩ | ⟨_, _, _, rfl, _, noting⟩
      · cases same
        obtain rfl := steps_ask.mp failed
        exact ⟨_, List.mem_append_right _ List.mem_cons_self, rfl, stopped⟩
      · obtain ⟨_, _, same⟩ := steps_lift.mp noting
        cases same
    · obtain ⟨_, same⟩ := steps_ret.mp ending
      cases same

/-- A call is not taken on; or it stops early, at the boundary or with nothing late; or it
dispatches with nothing late but the last sample. -/
inductive Bounded (execution : Execution) (τ : Timeline) (now : History)
    (result : Except ProtocolError ExecuteReport) : Prop where
  | aside : (∀ e ∈ now, e.op.IsAside) → Bounded execution τ now result
  | stopped : Calm now → Stopped now result → Bounded execution τ now result
  | unled : execution.Unled τ now → Bounded execution τ now result
  | dispatched {before after : History} {e : Event Engine} : now = before ++ e :: after →
      e.op.IsDispatch → τ.NoneLate execution.deadlineAtMs IsChecked before →
      Bounded execution τ now result

theorem settling_led {e : Event Engine} (settling : e.op.IsSettling) :
    ¬ e.op.IsDispatch ∧ ¬ IsSampled e ∧ ¬ LeadsOn e := by
  obtain ⟨op, ans⟩ := e
  cases op <;> first | exact settling.elim | exact ⟨id, id, id⟩

theorem unled_append (unled : execution.Unled τ past) {more : History}
    (settling : ∀ e ∈ more, EngineOp.IsSettling e.op) : execution.Unled τ (past ++ more) := by
  refine ⟨calm_append unled.1 fun e member => ?_, Timeline.noneLate_append unled.2 fun e member => ?_⟩
  · exact ⟨(settling_led (settling e member)).1, (settling_led (settling e member)).2.1⟩
  · exact fun leads => (settling_led (settling e member)).2.2 leads.1

theorem granted_bounded (calm : Calm past)
    (run : Steps execution.granted.run history (.ret result)) :
    execution.Bounded τ (past ++ history) result := by
  obtain ⟨way, prepared, rest, rfl, prepares, after⟩ := steps_after run
  have ends := ensures_run (prepare_ensures τ calm) prepares
  cases prepared with
  | error terminal =>
    have settling := only_steps (settling_finishWithoutEffect _ _) after
    rw [← List.append_assoc]
    rcases ends with ⟨calm', stopped⟩ | unled
    · refine .stopped (calm_append calm' fun e member => ?_)
        (stopped_append (finishWithoutEffect_stopped after stopped))
      exact ⟨(settling_led (settling e member)).1, (settling_led (settling e member)).2.1⟩
    · exact .unled (unled_append unled settling)
  | ok known =>
    obtain ⟨action, ⟨terminal, effect⟩, rest, rfl, dispatches, _⟩ := steps_after after
    obtain ⟨startedAtMs, answer, later, rfl, _, _⟩ := dispatchAction_cases dispatches
    have cut : past ++ (way ++ (⟨.now, startedAtMs⟩ :: ⟨execution.dispatchOp known, answer⟩ ::
          later ++ rest)) =
        (past ++ way ++ [⟨.now, startedAtMs⟩]) ++
          ⟨execution.dispatchOp known, answer⟩ :: (later ++ rest) := by
      simp only [List.append_assoc, List.cons_append, List.nil_append]
    exact .dispatched cut trivial (Timeline.noneLate_concat ends fun checked => checked.1)

theorem aside_bounded {α : Type} {p q : Prog Engine α} (aside : ∀ e ∈ past, e.op.IsAside)
    (only : p.Only EngineOp.IsAside) (run : Steps p history q) :
    execution.Bounded τ (past ++ history) result :=
  .aside (List.forall_mem_append.mpr ⟨aside, only_steps only run⟩)

theorem claimed_bounded (aside : ∀ e ∈ past, e.op.IsAside)
    (run : Steps execution.claimed.run history (.ret result)) :
    execution.Bounded τ (past ++ history) result := by
  rcases steps_try.mp run with ⟨e, failed, _⟩ | ⟨asking, decision, rest, rfl, asked, after⟩
  · exact aside_bounded aside (aside_begin _ _) failed
  have begun := only_steps (aside_begin _ _) asked
  obtain ⟨resolving, terminal, rest, rfl, resolves, after⟩ := steps_after after
  have resolved := only_steps (execution.aside_resolved decision) resolves
  have aside' : ∀ e ∈ past ++ asking ++ resolving, e.op.IsAside :=
    List.forall_mem_append.mpr ⟨List.forall_mem_append.mpr ⟨aside, begun⟩, resolved⟩
  rw [← List.append_assoc, ← List.append_assoc]
  cases terminal with
  | none => exact granted_bounded (aside_calm aside') after
  | some terminal => exact aside_bounded aside' (execution.aside_settle _ _) after

theorem locked_bounded (aside : ∀ e ∈ past, e.op.IsAside)
    (run : Steps execution.locked.run history (.ret result)) :
    execution.Bounded τ (past ++ history) result := by
  rcases steps_try.mp run with ⟨e, failed, _⟩ | ⟨mending, _, rest, rfl, mended, after⟩
  · exact aside_bounded aside aside_repairTail failed
  have repaired := only_steps aside_repairTail mended
  rcases steps_try.mp after with ⟨e, failed, _⟩ | ⟨claiming, answer, rest, rfl, claims, after⟩
  · rw [← List.append_assoc]
    exact aside_bounded (List.forall_mem_append.mpr ⟨aside, repaired⟩) (aside_claim _ _ _ _) failed
  have claimed := only_steps (aside_claim _ _ _ _) claims
  have aside' : ∀ e ∈ past ++ mending ++ claiming, e.op.IsAside :=
    List.forall_mem_append.mpr ⟨List.forall_mem_append.mpr ⟨aside, repaired⟩, claimed⟩
  rw [← List.append_assoc, ← List.append_assoc]
  cases answer with
  | new => exact claimed_bounded aside' after
  | replay acknowledgement =>
    have replaying : (do
        let acknowledgement ← reconcileInterrupted execution.outcomes acknowledgement
        pure ⟨[{ acknowledgement with replayed := true }]⟩ : EngineM ExecuteReport).run.Only
          EngineOp.IsAside :=
      only_try (aside_reconcileInterrupted _ _) fun _ => trivial
    exact aside_bounded aside' replaying after
  | recoveredUnknown claim => exact aside_bounded aside' (execution.aside_recovered claim) after

end Execution

/-! ### The whole call -/

/-- **A boundary check separates the executor from the dispatch**: once an executor call
returns past the boundary, nothing is dispatched, and an operation that the call led on with is
reported as stopped. -/
structure Separated (τ : Timeline) (request : ActionRequest) (history : History)
    (result : Except ProtocolError ExecuteReport) : Prop where
  undispatched : ∀ deadlineAtMs before call after, IsEffectDeadline request history deadlineAtMs →
    history = before ++ call :: after → Undispatched before → call.op.IsExecutorCall →
    τ.Passed deadlineAtMs before.length → Undispatched after
  reported : ∀ deadlineAtMs before call after, IsEffectDeadline request history deadlineAtMs →
    history = before ++ call :: after → Undispatched before → LeadsOn call →
    τ.Passed deadlineAtMs before.length → TakenOn history → Stopped history result

/-- The shared desktop was sampled for the dispatch, and the sample came past the boundary. -/
def LateSample (τ : Timeline) (request : ActionRequest) (history : History) : Prop :=
  ∃ deadlineAtMs before sample after, IsEffectDeadline request history deadlineAtMs ∧
    history = before ++ sample :: after ∧ Undispatched before ∧ IsSampled sample ∧
    τ.Passed deadlineAtMs before.length

section

variable {τ : Timeline} {build : Build} {outcomes : Outcomes} {request : ActionRequest}
  {history : History} {result : Except ProtocolError ExecuteReport}

theorem calm_separated (calm : Calm history)
    (reported : TakenOn history → Stopped history result ∨ ∀ deadlineAtMs before call after,
      IsEffectDeadline request history deadlineAtMs → history = before ++ call :: after →
      LeadsOn call → ¬ τ.Passed deadlineAtMs before.length) :
    Separated τ request history result where
  undispatched _ _ _ _ _ same _ _ _ := fun e member =>
    (calm e (same ▸ List.mem_append_right _ (List.mem_cons_of_mem _ member))).1
  reported deadlineAtMs before call after deadline same _ leads passed takenOn := by
    rcases reported takenOn with stopped | early
    · exact stopped
    · exact absurd passed (early deadlineAtMs before call after deadline same leads)

theorem calm_not_late (calm : Calm history) : ¬ LateSample τ request history := by
  rintro ⟨_, before, sample, after, _, rfl, _, sampled, _⟩
  exact (calm sample (List.mem_append_right _ List.mem_cons_self)).2 sampled

/-- Two events of a history, one of them before the first dispatch and the other a dispatch. -/
theorem before_dispatch {before after before' after' : History} {call e : Event Engine}
    (same : before ++ call :: after = before' ++ e :: after') (clean : Undispatched before)
    (dispatches : e.op.IsDispatch) (other : ¬ call.op.IsDispatch) :
    ∃ rest, before' = before ++ call :: rest := by
  rcases List.append_eq_append_iff.mp same with ⟨rest, rfl, tail⟩ | ⟨rest, rfl, tail⟩
  · cases rest with
    | nil =>
      rw [List.nil_append] at tail
      obtain ⟨rfl, _⟩ := List.cons.inj tail
      exact absurd dispatches other
    | cons x rest =>
      obtain ⟨rfl, _⟩ := List.cons.inj tail
      exact ⟨rest, rfl⟩
  · cases rest with
    | nil =>
      rw [List.nil_append] at tail
      obtain ⟨rfl, _⟩ := List.cons.inj tail
      exact absurd dispatches other
    | cons x rest =>
      obtain ⟨rfl, _⟩ := List.cons.inj tail
      exact absurd dispatches (clean e (List.mem_append_right _ List.mem_cons_self))

theorem call_not_dispatch {op : EngineOp} (call : op.IsExecutorCall) : ¬ op.IsDispatch := by
  cases op <;> first | exact call.elim | exact id

theorem sampled_call {e : Event Engine} (sampled : IsSampled e) : e.op.IsExecutorCall := by
  obtain ⟨op, ans⟩ := e
  cases op <;> first | exact sampled.elim | trivial

theorem dispatched_separated {execution : Execution} {before after : History} {e : Event Engine}
    (cut : history = before ++ e :: after) (dispatches : e.op.IsDispatch)
    (none : τ.NoneLate execution.deadlineAtMs IsChecked before) (told : τ.Tells history)
    (deadline : ∀ deadlineAtMs, IsEffectDeadline request history deadlineAtMs →
      deadlineAtMs = execution.deadlineAtMs) :
    Separated τ request history result ↔ ¬ LateSample τ request history := by
  constructor
  · rintro separated ⟨deadlineAtMs, before', sample, after', bound, same, clean, sampled, passed⟩
    have call := sampled_call sampled
    have later := separated.undispatched deadlineAtMs before' sample after' bound same clean call passed
    obtain ⟨rest, rfl⟩ := before_dispatch (same.symm.trans cut) clean dispatches
      (call_not_dispatch call)
    rw [cut, List.append_assoc, List.cons_append] at same
    obtain ⟨_, rfl⟩ := List.cons.inj (List.append_cancel_left same)
    exact later e (List.mem_append_right _ List.mem_cons_self) dispatches
  · intro punctual
    -- a late call before the dispatch is a late sample
    have early (deadlineAtMs : Int64) (before' : History) (call : Event Engine) (after' : History)
        (bound : IsEffectDeadline request history deadlineAtMs)
        (same : history = before' ++ call :: after') (clean : Undispatched before')
        (calls : call.op.IsExecutorCall) : ¬ τ.Passed deadlineAtMs before'.length := by
      intro passed
      by_cases sampled : IsSampled call
      · exact punctual ⟨deadlineAtMs, before', call, after', bound, same, clean, sampled, passed⟩
      · obtain ⟨rest, rfl⟩ := before_dispatch (same.symm.trans cut) clean dispatches
          (call_not_dispatch calls)
        rw [cut] at told
        rw [deadline deadlineAtMs bound] at passed
        exact none (Timeline.tells_left told) before' call rest rfl ⟨calls, sampled⟩ passed
    constructor
    · intro deadlineAtMs before' call after' bound same clean calls passed
      exact absurd passed (early deadlineAtMs before' call after' bound same clean calls)
    · intro deadlineAtMs before' call after' bound same clean leads passed _
      exact absurd passed (early deadlineAtMs before' call after' bound same clean (leadsOn_call leads))

theorem bounded_separated {execution : Execution} (bounded : execution.Bounded τ history result)
    (told : τ.Tells history)
    (deadline : ∀ deadlineAtMs, IsEffectDeadline request history deadlineAtMs →
      deadlineAtMs = execution.deadlineAtMs) :
    Separated τ request history result ↔ ¬ LateSample τ request history := by
  cases bounded with
  | aside aside =>
    have calm := aside_calm aside
    refine iff_of_true (calm_separated calm fun takenOn => ?_) (calm_not_late calm)
    exact absurd takenOn (aside_not_takenOn aside)
  | stopped calm stopped =>
    exact iff_of_true (calm_separated calm fun _ => .inl stopped) (calm_not_late calm)
  | unled unled =>
    refine iff_of_true (calm_separated unled.1 fun _ => .inr ?_) (calm_not_late unled.1)
    intro deadlineAtMs before call after bound same leads
    rw [deadline deadlineAtMs bound]
    refine unled.2 told before call after same ⟨leads, (unled.1 call ?_).2⟩
    rw [same]
    exact List.mem_append_right _ List.mem_cons_self
  | dispatched cut dispatches none =>
    exact dispatched_separated cut dispatches none told deadline

/-- Giving the lock back changes nothing. -/
theorem bounded_release {execution : Execution} (outcome : Outcome)
    (bounded : execution.Bounded τ history result) :
    execution.Bounded τ (history ++ [⟨.release outcome, ()⟩]) result := by
  cases bounded with
  | aside aside =>
    exact .aside (List.forall_mem_append.mpr ⟨aside, List.forall_mem_singleton.mpr trivial⟩)
  | stopped calm stopped =>
    refine .stopped (calm_concat calm id id) ?_
    cases result with
    | ok report => exact stopped
    | error e =>
      obtain ⟨event, member, told⟩ := stopped
      exact ⟨event, List.mem_append_left _ member, told⟩
  | unled unled => exact .unled (Execution.unled_concat unled id id id)
  | dispatched cut dispatches none =>
    subst cut
    exact .dispatched (by rw [List.append_assoc, List.cons_append]) dispatches none

/-- The calls that end before they hold the lock dispatch nothing. -/
theorem outside_separated (aside : ∀ e ∈ history, e.op.IsAside) :
    Separated τ request history result ↔ ¬ LateSample τ request history := by
  have calm := aside_calm aside
  refine iff_of_true (calm_separated calm fun takenOn => ?_) (calm_not_late calm)
  exact absurd takenOn (aside_not_takenOn aside)

theorem opening_aside (isDir : PathBuf → Bool) (actionHash : String) (authority : VerifiedAuthority)
    (sessionIsolation : SessionIsolation) (locked : Except ProtocolError Unit) :
    ∀ e ∈ opening request isDir actionHash authority sessionIsolation locked, EngineOp.IsAside e.op := by
  simp [opening, EngineOp.IsAside]

/-- The authority is verified once. -/
theorem opening_deadline {isDir : PathBuf → Bool} {actionHash : String}
    {authority : VerifiedAuthority} {sessionIsolation : SessionIsolation}
    {locked : Except ProtocolError Unit} {rest : History} {deadlineAtMs : Int64}
    (inside : ∀ e ∈ rest, EngineOp.IsInside e.op)
    (bound : IsEffectDeadline request
      (opening request isDir actionHash authority sessionIsolation locked ++ rest) deadlineAtMs) :
    deadlineAtMs = min request.deadlineAtMs authority.expiresAtMs := by
  obtain ⟨actionHash', authority', member, rfl⟩ := bound
  rcases List.mem_append.mp member with early | late
  · simp only [opening, List.mem_cons, Event.mk.injEq, reduceCtorEq, EngineOp.verifyAuthority.injEq,
      List.not_mem_nil, or_false, false_or, false_and] at early
    obtain ⟨⟨_, rfl⟩, same⟩ := early
    obtain rfl := Except.ok.inj (eq_of_heq same)
    rfl
  · exact (inside _ late).elim

/-- **The missing check**: over every run, whatever the executor and the timing, the boundary
separates each executor call from the dispatch if and only if no sample of a shared desktop
came late. -/
theorem separated_iff (run : Steps (execute build outcomes request).run history (.ret result))
    (told : τ.Tells history) :
    Separated τ request history result ↔ ¬ LateSample τ request history := by
  cases execute_ends run with
  | invalid | unhashed => exact outside_separated (List.forall_mem_singleton.mpr trivial)
  | unauthorized =>
    exact outside_separated
      (List.forall_mem_cons.mpr ⟨trivial, List.forall_mem_singleton.mpr trivial⟩)
  | unlocked => exact outside_separated (opening_aside _ _ _ _ _)
  | @locked isDir actionHash authority sessionIsolation inside _ _ _ body =>
    let execution := accepted build outcomes request actionHash authority sessionIsolation
    let before := opening request isDir actionHash authority sessionIsolation (.ok ())
    have bounded : execution.Bounded τ (before ++ inside) result :=
      Execution.locked_bounded (opening_aside _ _ _ _ _) body
    have whole := bounded_release (.executed ⟨request.operationId, actionHash⟩ result) bounded
    rw [List.append_assoc] at whole
    refine bounded_separated whole told fun deadlineAtMs bound => ?_
    refine opening_deadline (List.forall_mem_append.mpr ⟨?_, ?_⟩) bound
    · exact only_steps (Execution.inside_locked _) body
    · exact List.forall_mem_singleton.mpr trivial

/-- A call that comes to its dispatch has a deadline. -/
theorem dispatched_deadline (run : Steps (execute build outcomes request).run history (.ret result))
    (dispatches : ¬ Undispatched history) :
    ∃ deadlineAtMs, IsEffectDeadline request history deadlineAtMs := by
  have outside (aside : ∀ e ∈ history, e.op.IsAside) : Undispatched history :=
    fun e member => (aside_calm aside e member).1
  cases execute_ends run with
  | invalid | unhashed => exact absurd (outside (List.forall_mem_singleton.mpr trivial)) dispatches
  | unauthorized =>
    exact absurd (outside (List.forall_mem_cons.mpr ⟨trivial, List.forall_mem_singleton.mpr trivial⟩))
      dispatches
  | unlocked => exact absurd (outside (opening_aside _ _ _ _ _)) dispatches
  | locked => exact ⟨_, _, _, List.mem_cons_of_mem _ List.mem_cons_self, rfl⟩

end

/-! ### The bench -/

/-- A timeline on which nothing happens. -/
def steady : Timeline := ⟨fun _ => false, fun _ => 5, fun _ _ _ same => same, fun _ _ _ => Int64.le_refl _⟩

theorem bench_tells (outcomes : Outcomes) (interactionMode : InteractionMode) (bench : Bench) :
    steady.Tells (benchHistory outcomes interactionMode bench).1 := by
  have each : ∀ e ∈ (benchHistory outcomes interactionMode bench).1,
      (∀ cancelled, e = ⟨.isCancelled, cancelled⟩ → cancelled = false) ∧
        ∀ t, e = ⟨.now, t⟩ → t = 5 := by
    refine play_answers (fun op bench => ?_) 100 _ _
    cases op <;> simp [Bench.respond]
  intro before e after same
  exact each e (same ▸ List.mem_append_right _ List.mem_cons_self)

theorem separated_iff_bench : ∃ history result,
    Steps (execute (benchBuild .backgroundOnly) .host (benchRequest .backgroundOnly)).run history
      (.ret result) ∧ steady.Tells history ∧
    Separated steady (benchRequest .backgroundOnly) history result := by
  have ended : (benchHistory .host .backgroundOnly .new).2.1.returned?.any (fun _ => true) = true := by
    decide +kernel
  obtain ⟨result, _, run⟩ := steps_returned ended
  have told := bench_tells .host .backgroundOnly .new
  refine ⟨_, result, run, told, (separated_iff run told).mpr ?_⟩
  rintro ⟨_, before, sample, after, ⟨_, authority, member, rfl⟩, _, _, _, passed⟩
  have each : ∀ e ∈ (benchHistory .host .backgroundOnly .new).1, ∀ request actionHash authority,
      e = ⟨.verifyAuthority request actionHash, .ok authority⟩ →
      authority.expiresAtMs = request.authority.grant.expiresAtMs := by
    refine play_answers (fun op bench => ?_) 100 _ _
    cases op <;> simp [Bench.respond]
  rw [each _ member _ _ _ rfl] at passed
  rcases passed with cancelled | late
  · cases cancelled
  · exact absurd (show (1000 : Int64) ≤ 5 from late) (by decide)

/-- The bench with a token that is cancelled as the desktop is sampled. -/
def lateDesk (op : EngineOp) (s : Bench × Bool) : op.Answer × (Bench × Bool) :=
  match op with
  | .isCancelled => (s.2, s)
  | .contextHashWithBoundary _ => (.ok ("".pushn '9' 64), (s.1, true))
  | op =>
    let answered := Bench.respond 0 op s.1
    (answered.1, (answered.2, s.2))

/-- Cancelled from the answer at the index on. -/
def cancelledFrom (index : Nat) : Timeline where
  cancelled n := decide (index ≤ n)
  clock _ := 5
  stays _ _ le cancelled := decide_eq_true (Nat.le_trans (of_decide_eq_true cancelled) le)
  ascends _ _ _ := Int64.le_refl _

/-- Whether the answers from the index on were read off the timeline. -/
def toldFrom (τ : Timeline) : Nat → History → Bool
  | _, [] => true
  | n, ⟨.isCancelled, cancelled⟩ :: rest => cancelled = τ.cancelled n && toldFrom τ (n + 1) rest
  | n, ⟨.now, t⟩ :: rest => t = τ.clock n && toldFrom τ (n + 1) rest
  | n, _ :: rest => toldFrom τ (n + 1) rest

theorem tells_of_toldFrom {τ : Timeline} {n : Nat} {history : History}
    (checked : toldFrom τ n history = true) : ∀ before e after, history = before ++ e :: after →
      (∀ cancelled, e = ⟨.isCancelled, cancelled⟩ → cancelled = τ.cancelled (n + before.length)) ∧
      ∀ t, e = ⟨.now, t⟩ → t = τ.clock (n + before.length) := by
  induction history generalizing n with
  | nil => intro before e after same; simp at same
  | cons first rest ih =>
    have later : toldFrom τ (n + 1) rest = true := by
      unfold toldFrom at checked
      split at checked <;> simp_all
    intro before e after same
    cases before with
    | nil =>
      obtain ⟨rfl, rfl⟩ := List.cons.inj same
      constructor
      · rintro cancelled rfl
        simp only [toldFrom, Bool.and_eq_true, decide_eq_true_eq] at checked
        exact checked.1
      · rintro t rfl
        simp only [toldFrom, Bool.and_eq_true, decide_eq_true_eq] at checked
        exact checked.1
    | cons x before =>
      obtain ⟨rfl, rfl⟩ := List.cons.inj same
      have told := ih later before e after rfl
      rwa [List.length_cons, Nat.add_comm before.length, ← Nat.add_assoc]

def isSampled : Event Engine → Bool
  | ⟨.contextHashWithBoundary _, .ok _⟩ => true
  | _ => false

theorem isSampled_of {e : Event Engine} (sampled : isSampled e = true) : IsSampled e := by
  unfold isSampled at sampled
  split at sampled
  · trivial
  · contradiction

/-- What the late desk answers to a background execution. -/
def lateHistory : History × Prog Engine (Except ProtocolError ExecuteReport) × (Bench × Bool) :=
  play lateDesk 100
    (execute (benchBuild .backgroundOnly) .host (benchRequest .backgroundOnly)).run (.new, false)

/-- The late sample is followed by a dispatch. -/
theorem late_sample_dispatched : ¬ ∀ (τ : Timeline) (history : History)
    (result : Except ProtocolError ExecuteReport),
    Steps (execute (benchBuild .backgroundOnly) .host (benchRequest .backgroundOnly)).run history
      (.ret result) → τ.Tells history →
    Separated τ (benchRequest .backgroundOnly) history result := by
  intro separated
  have checked : lateHistory.2.1.returned?.any (fun _ => true) = true ∧
      toldFrom (cancelledFrom 20) 0 lateHistory.1 = true ∧
      (lateHistory.1.take 20).length = 20 ∧
      (lateHistory.1.take 20).all (fun e => !isDispatched e) = true ∧
      (lateHistory.1.drop 20).head?.any isSampled = true ∧
      (lateHistory.1.drop 20).tail.any isDispatched = true := by decide +kernel
  obtain ⟨ended, told, long, clean, sampled, dispatched⟩ := checked
  obtain ⟨result, _, run⟩ := steps_returned ended
  have whole := (List.take_append_drop 20 lateHistory.1).symm
  generalize lateHistory.1.take 20 = before at clean long whole
  generalize lateHistory.1.drop 20 = later at sampled dispatched whole
  cases later with
  | nil => exact Bool.false_ne_true sampled
  | cons sample after =>
    obtain ⟨e, member, dispatches⟩ := List.any_eq_true.mp dispatched
    have effect := (isDispatched_iff e).mp dispatches
    have undispatched : Undispatched before := by
      intro e' member' dispatches'
      have none := List.all_eq_true.mp clean e' member'
      rw [(isDispatched_iff e').mpr dispatches'] at none
      exact Bool.false_ne_true none
    have inside : e ∈ lateHistory.1 :=
      whole ▸ List.mem_append_right _ (List.mem_cons_of_mem _ member)
    obtain ⟨deadlineAtMs, bound⟩ := dispatched_deadline run fun clean => clean e inside effect
    have tells : (cancelledFrom 20).Tells lateHistory.1 := by
      have checked := tells_of_toldFrom told
      simp only [Nat.zero_add] at checked
      exact checked
    refine (separated _ _ _ run tells).undispatched deadlineAtMs before sample after bound whole
      undispatched (sampled_call (isSampled_of sampled)) (.inl ?_) e member effect
    rw [long]
    rfl

end Praefectus
