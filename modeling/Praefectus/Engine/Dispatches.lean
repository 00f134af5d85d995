import Praefectus.Engine.BackgroundSafety
import Praefectus.Program.Upholds

/-!
# The way to a dispatch

A locked call asks for one dispatch at most, of the action of its request, and only once the way
to it made it ready.
-/

namespace Praefectus

open Prog

namespace Execution

variable {execution : Execution}

def MayAsk (execution : Execution) (past : History) (op : EngineOp) : Prop :=
  op.IsDispatch → Undispatched past ∧
    ∃ prepared, op = execution.dispatchOp prepared ∧ execution.Ready prepared past

theorem lasting_undispatched : Lasting (fun op : EngineOp => ¬ op.IsDispatch) Undispatched := by
  intro past e quiet undispatched
  apply undispatched_append undispatched
  intro e' member
  obtain rfl := List.mem_singleton.mp member
  exact quiet

/-! ### Calls that come to a grant -/

section

variable {allows : History → EngineOp → Prop} {E : ProtocolError → History → Prop}
  {Q : ExecuteReport → History → Prop}
  (free : ∀ past (op : EngineOp), ¬ op.IsDispatch → allows past op)
  (fails : ∀ e past, Undispatched past → E e past)
  (ends : ∀ report past, Undispatched past → Q report past)
include free fails

theorem upholds_undispatched {α : Type} {x : EngineM α}
    (only : x.run.Only fun op : EngineOp => ¬ op.IsDispatch) :
    Upholds allows E Undispatched (fun _ => Undispatched) x :=
  upholds_kept lasting_undispatched only (fun past op _ => free past op) fails

include ends

/-- What holds of a call that is granted, and of one that dispatches nothing, holds of a call
that stored its claim. -/
theorem upholds_claimed (grants : Upholds allows E Undispatched Q execution.granted) :
    Upholds allows E Undispatched Q execution.claimed := by
  unfold claimed
  refine upholds_bind (upholds_undispatched free fails ⟨id, fun _ => trivial⟩) fun decision => ?_
  refine upholds_bind (upholds_undispatched free fails (only_lift ?_)) fun terminal => ?_
  · cases decision with
    | interrupted =>
      exact only_bind (only_mono (execution.quiet_emptyReceipt _) fun _ => quiet_undispatched)
        fun _ => trivial
    | _ => exact trivial
  · cases terminal with
    | none => exact grants
    | some terminal =>
      have settling : (do
          finish (execution.terminalAck terminal)
          pure ⟨[execution.accepted, execution.terminalAck terminal]⟩ :
            EngineM ExecuteReport).run.Only EngineOp.IsSettling :=
        only_try (settling_finish _) fun _ => trivial
      exact upholds_mono (upholds_undispatched free fails
        (only_mono settling fun _ => settling_undispatched)) ends

theorem upholds_locked (grants : Upholds allows E Undispatched Q execution.granted) :
    Upholds allows E Undispatched Q execution.locked := by
  unfold locked
  refine upholds_bind (upholds_undispatched free fails ⟨id, fun _ => trivial⟩) fun _ => ?_
  refine upholds_bind (upholds_undispatched free fails (undispatched_claim _ _ _ _)) fun result => ?_
  cases result with
  | new => exact upholds_claimed free fails ends grants
  | replay acknowledgement =>
    have settling : (do
        let acknowledgement ← reconcileInterrupted execution.outcomes acknowledgement
        pure ⟨[{ acknowledgement with replayed := true }]⟩ : EngineM ExecuteReport).run.Only
          EngineOp.IsSettling :=
      only_try (settling_reconcileInterrupted _ _) fun _ => trivial
    exact upholds_mono (upholds_undispatched free fails
      (only_mono settling fun _ => settling_undispatched)) ends
  | recoveredUnknown claim =>
    exact upholds_mono (upholds_undispatched free fails
      (only_mono (execution.plain_recovered claim) fun _ => And.left)) ends

end

/-! ### What is asked -/

section

variable {α ε : Type} {x : ExceptT ε (Prog Engine) α} {R : History → Prop}

/-- What is no dispatch may be asked for, whatever is known. -/
theorem asks_rest (only : x.run.Only fun op : EngineOp => ¬ op.IsDispatch) :
    Upholds execution.MayAsk (fun _ _ => True) R (fun _ _ => True) x :=
  upholds_of (fun _ => True) (fun _ _ => trivial)
    (upholds_kept (lasting_const True) only (fun _ _ _ quiet dispatches => absurd dispatches quiet)
      fun _ _ _ => trivial)

end

theorem undispatched_finishWithoutEffect (acknowledgements : List ActionAck) (terminal : Terminal) :
    (execution.finishWithoutEffect acknowledgements terminal).run.Only
      fun op : EngineOp => ¬ op.IsDispatch :=
  only_mono (execution.settling_finishWithoutEffect _ _) fun _ => settling_undispatched

theorem asks_dispatchAction (prepared : Prepared) :
    Upholds execution.MayAsk (fun (_ : ProtocolError) _ => True)
      (fun past => Undispatched past ∧ execution.Ready prepared past) (fun _ _ => True)
      (monadLift (execution.dispatchAction prepared)) := by
  unfold dispatchAction
  apply upholds_lift_bind (Q := fun _ past => Undispatched past ∧ execution.Ready prepared past)
  · intro past known
    apply judged_ask (fun dispatches => dispatches.elim)
    intro startedAtMs
    exact ⟨lasting_undispatched past _ id known.1, ready_after known.2 fun _ member =>
      List.mem_append_left _ member⟩
  intro startedAtMs
  apply upholds_lift_bind (Q := fun _ _ => True)
  · intro past known
    exact judged_ask (fun _ => ⟨known.1, prepared, rfl, known.2⟩) fun _ => trivial
  intro answer
  apply asks_rest
  apply only_lift
  exact only_mono (execution.quiet_settleDispatch _ _ _) fun _ => quiet_undispatched

theorem asks_granted :
    Upholds execution.MayAsk (fun _ _ => True) Undispatched (fun _ _ => True) execution.granted := by
  have prepares : Upholds execution.MayAsk (fun (_ : ProtocolError) _ => True) Undispatched
      (fun result past => Undispatched past ∧ ∃ trace, Steps execution.prepare.run trace (.ret result) ∧
        ∀ e ∈ trace, e ∈ past) (monadLift execution.prepare.run) :=
    upholds_ran lasting_undispatched
      (only_mono execution.quiet_prepare fun _ => quiet_undispatched)
      fun _ _ _ quiet dispatches => absurd dispatches quiet
  unfold granted
  apply upholds_bind prepares
  intro result
  cases result with
  | error terminal => exact asks_rest (undispatched_finishWithoutEffect _ _)
  | ok prepared =>
    apply upholds_bind (upholds_of _ ?_ (asks_dispatchAction prepared))
    · intro settled
      obtain ⟨terminal, effect⟩ := settled
      cases effect with
      | true =>
        apply asks_rest
        exact only_mono (execution.settling_finishWithEffect _) fun _ => settling_undispatched
      | false => exact asks_rest (undispatched_finishWithoutEffect _ _)
    · rintro past ⟨undispatched, trace, run, known⟩
      exact ⟨undispatched, ready_after (prepare_ready run) known⟩

theorem asks_locked :
    Upholds execution.MayAsk (fun _ _ => True) Undispatched (fun _ _ => True) execution.locked :=
  upholds_locked (fun _ _ quiet dispatches => absurd dispatches quiet) (fun _ _ _ => trivial)
    (fun _ _ _ => trivial) asks_granted

end Execution

/-- A call comes to its one dispatch by the way that makes it ready. -/
theorem execute_dispatches {build : Build} {outcomes : Outcomes} {request : ActionRequest}
    {history : History} {op : EngineOp}
    {next : op.Answer → Prog Engine (Except ProtocolError ExecuteReport)}
    (run : Steps (execute build outcomes request).run history (.ask op next))
    (dispatches : op.IsDispatch) :
    ∃ (execution : Execution) (opening inside : History), history = opening ++ inside ∧
      Opening request opening execution ∧ Undispatched history ∧
      ∃ prepared, op = execution.dispatchOp prepared ∧ execution.Ready prepared history := by
  obtain ⟨execution, opening, inside, next', rfl, opened, body⟩ := execute_asks run dispatches
  have answer : op.Answer := by
    cases op with
    | dispatch => exact .ok ⟨"", []⟩
    | _ => exact dispatches.elim
  have start : Undispatched [] := List.forall_mem_nil _
  obtain ⟨undispatched, prepared, same, ready⟩ :=
    upholds_pending Execution.asks_locked start body answer dispatches
  refine ⟨execution, opening, inside, rfl, opened, ?_, prepared, same, ?_⟩
  · exact undispatched_append (fun e member => (opened.plain e member).1) undispatched
  · exact Execution.ready_after ready fun _ member => List.mem_append_right _ member

/-! ### What comes of a dispatch -/

/-- What was dispatched, if anything, had no effect. -/
def Spared (past : History) : Prop :=
  ∀ key action target verification deadlineAtMs answer,
    (⟨.dispatch key action target verification deadlineAtMs, answer⟩ : Event Engine) ∈ past →
    ∃ error, answer = .error error ∧ error.effect ≠ .unknown

/-- What may have had an effect is not reported as if it had none, and a success followed what
was dispatched. -/
structure Reported (report : ExecuteReport) (past : History) : Prop where
  told : Spared past ∨
    ∃ terminal, report.terminal? = some terminal ∧ terminal.isWithoutEffect = false
  succeeded : ∀ receipt, report.terminal? = some (.succeeded receipt) →
    ∀ key action target verification deadlineAtMs answer,
      (⟨.dispatch key action target verification deadlineAtMs, answer⟩ : Event Engine) ∈ past →
      ∃ dispatch, answer = .ok dispatch

theorem spared_undispatched {past : History} (undispatched : Undispatched past) : Spared past :=
  fun _ _ _ _ _ _ member => absurd trivial (undispatched _ member)

theorem reported_undispatched {past : History} (report : ExecuteReport)
    (undispatched : Undispatched past) : Reported report past where
  told := .inl (spared_undispatched undispatched)
  succeeded _ _ _ _ _ _ _ _ member := absurd trivial (undispatched _ member)

theorem persistenceUnknown_withEffect {terminal : Terminal}
    (open' : terminal.isWithoutEffect = false) :
    (persistenceUnknown terminal).isWithoutEffect = false := by
  cases terminal <;> first | rfl | contradiction

theorem persistenceUnknown_succeeded (terminal : Terminal) (receipt : Receipt) :
    persistenceUnknown terminal ≠ .succeeded receipt := by
  cases terminal <;> exact fun same => nomatch same

namespace Execution

variable {execution : Execution}

theorem finishWithEffect_returns (terminal : Terminal) : ∀ history e,
    Steps (execution.finishWithEffect terminal).run history (.ret (.error e)) → False := by
  refine exits_try exits_lift fun recorded => ?_
  refine exits_try exits_lift fun acknowledgement => ?_
  intro history e run
  nomatch (steps_ret.mp run).2

/-- A terminal after an effect is reported. -/
theorem reports_withEffect {terminal : Terminal} {past history : History}
    {result : Except ProtocolError ExecuteReport} (open' : terminal.isWithoutEffect = false)
    (answered : ∀ receipt, terminal = .succeeded receipt →
      ∀ key action target verification deadlineAtMs answer,
        (⟨.dispatch key action target verification deadlineAtMs, answer⟩ : Event Engine) ∈ past →
        ∃ dispatch, answer = .ok dispatch)
    (run : Steps (execution.finishWithEffect terminal).run history (.ret result)) :
    Verdict Reported (fun _ => Spared) result past := by
  cases result with
  | error e => exact (finishWithEffect_returns terminal history e run).elim
  | ok report =>
    rcases finishWithEffect_report run with same | same
    · refine ⟨.inr ⟨terminal, same, open'⟩, fun receipt succeeded => ?_⟩
      obtain rfl := Option.some.inj (same.symm.trans succeeded)
      exact answered receipt rfl
    · refine ⟨.inr ⟨_, same, persistenceUnknown_withEffect open'⟩, fun receipt succeeded => ?_⟩
      have other := Option.some.inj (same.symm.trans succeeded)
      exact absurd other (persistenceUnknown_succeeded terminal receipt)

theorem reports_settled {prepared : Prepared} {terminal : Terminal} {effect : Bool}
    {past trace rest : History} {result : Except ProtocolError ExecuteReport}
    (undispatched : Undispatched past)
    (dispatched : Steps (execution.dispatchAction prepared) trace (.ret (terminal, effect)))
    (run : Steps (if effect then execution.finishWithEffect terminal
      else execution.finishWithoutEffect [execution.accepted, execution.executing] terminal).run rest
        (.ret result)) :
    Verdict Reported (fun _ => Spared) result (past ++ trace ++ rest) := by
  obtain ⟨startedAtMs, answer, after, rfl, observed, settled⟩ := dispatchAction_cases dispatched
  have clean : Undispatched rest := by
    have settling : ∀ e ∈ rest, EngineOp.IsSettling e.op := by
      cases effect with
      | true => exact only_steps (execution.settling_finishWithEffect _) run
      | false => exact only_steps (execution.settling_finishWithoutEffect _ _) run
    exact fun e member => settling_undispatched (settling e member)
  have answered {key action target verification deadlineAtMs answer'}
      (member : (⟨.dispatch key action target verification deadlineAtMs, answer'⟩ : Event Engine) ∈
        past ++ ⟨.now, startedAtMs⟩ :: ⟨execution.dispatchOp prepared, answer⟩ :: after ++ rest) :
      answer' = answer := by
    rw [List.append_assoc, List.cons_append, List.append_cons] at member
    have same := only_dispatch (lasting_undispatched past _ id undispatched) (undispatched_append
      (fun e member => quiet_undispatched (observed e member)) clean) member trivial
    cases same
    rfl
  cases settled with
  | @withoutEffect error _ _ known failed =>
    have spared : Spared (past ++ ⟨.now, startedAtMs⟩ ::
        ⟨execution.dispatchOp prepared, .error error⟩ :: after ++ rest) :=
      fun _ _ _ _ _ _ member => ⟨error, answered member, known⟩
    cases result with
    | error => exact spared
    | ok report =>
      refine ⟨.inl spared, fun receipt succeeded => ?_⟩
      obtain rfl := Option.some.inj ((finishWithoutEffect_report run).symm.trans succeeded)
      contradiction
  | @succeeded dispatch _ receipt honest succeeds =>
    exact reports_withEffect rfl (fun _ _ _ _ _ _ _ _ member => ⟨dispatch, answered member⟩) run
  | @unknown _ _ receipt message unknown honest =>
    exact reports_withEffect rfl (by rintro _ ⟨⟩) run

theorem reports_granted :
    Upholds (fun _ _ => True) (fun _ => Spared) Undispatched Reported execution.granted := by
  unfold granted
  refine upholds_bind (upholds_kept lasting_undispatched (only_lift ?_) (fun _ _ _ _ => trivial)
    fun _ _ => spared_undispatched) fun prepared => ?_
  · exact only_mono execution.quiet_prepare fun _ => quiet_undispatched
  cases prepared with
  | error terminal =>
    exact upholds_mono (upholds_undispatched (fun _ _ _ => trivial) (fun _ _ => spared_undispatched)
      (undispatched_finishWithoutEffect _ _)) fun report _ => reported_undispatched report
  | ok prepared =>
    refine upholds_of_runs fun past trace result undispatched run => ?_
    rcases steps_try.mp run with ⟨e, failed, rfl⟩ | ⟨trace, ⟨terminal, effect⟩, rest, rfl, done, run⟩
    · obtain ⟨_, _, other⟩ := steps_lift.mp failed
      nomatch other
    · obtain ⟨_, dispatched, same⟩ := steps_lift.mp done
      obtain rfl := Except.ok.inj same
      rw [← List.append_assoc]
      cases effect <;> exact reports_settled undispatched dispatched run

theorem reports_locked :
    Upholds (fun _ _ => True) (fun _ => Spared) Undispatched Reported execution.locked :=
  upholds_locked (fun _ _ _ => trivial) (fun _ _ => spared_undispatched)
    (fun report _ => reported_undispatched report) reports_granted

end Execution

/-- The lock is released whatever the call came to. -/
theorem reports_released {past : History} {outcome : Outcome}
    {result : Except ProtocolError ExecuteReport} (verdict : Verdict Reported (fun _ => Spared) result past) :
    Verdict Reported (fun _ => Spared) result (past ++ [⟨.release outcome, ()⟩]) := by
  have earlier {key action target verification deadlineAtMs answer}
      (member : (⟨.dispatch key action target verification deadlineAtMs, answer⟩ : Event Engine) ∈
        past ++ [⟨.release outcome, ()⟩]) :
      (⟨.dispatch key action target verification deadlineAtMs, answer⟩ : Event Engine) ∈ past := by
    rcases List.mem_append.mp member with early | last
    · exact early
    · nomatch List.mem_singleton.mp last
  have spared (known : Spared past) : Spared (past ++ [⟨.release outcome, ()⟩]) :=
    fun _ _ _ _ _ _ member => known _ _ _ _ _ _ (earlier member)
  cases result with
  | error e => exact spared verdict
  | ok report =>
    obtain ⟨told, succeeded⟩ := verdict
    exact ⟨told.imp_left spared, fun receipt same _ _ _ _ _ _ member =>
      succeeded receipt same _ _ _ _ _ _ (earlier member)⟩

/-- What is dispatched is reported: if it may have had an effect, the call neither fails nor
says that it had none. -/
theorem execute_reports {build : Build} {outcomes : Outcomes} {request : ActionRequest} :
    Upholds (fun _ _ => True) (fun _ => Spared) Undispatched Reported
      (execute build outcomes request) := by
  have kept {α : Type} {x : EngineM α} (only : x.run.Only fun op : EngineOp => ¬ op.IsDispatch) :
      Upholds (fun _ _ => True) (fun _ => Spared) Undispatched (fun _ => Undispatched) x :=
    Execution.upholds_undispatched (fun _ _ _ => trivial) (fun _ _ => spared_undispatched) only
  have asks {op : EngineOp} (quiet : ¬ op.IsDispatch) :
      (ask op).Only fun op : EngineOp => ¬ op.IsDispatch := ⟨quiet, fun _ => trivial⟩
  unfold execute
  refine upholds_bind (kept (only_lift (asks id))) fun isDir => ?_
  refine upholds_bind (kept trivial) fun _ => ?_
  refine upholds_bind (kept trivial) fun actionHash => ?_
  refine upholds_bind (kept (asks id)) fun authority => ?_
  refine upholds_bind (kept (only_lift (asks id))) fun sessionIsolation => ?_
  refine upholds_bind (kept (asks id)) fun _ => ?_
  intro past known
  refine follows_bind (follows_mono (Execution.reports_locked past known) ?_)
  intro result now verdict _
  exact ⟨_, ⟨trivial, rfl⟩, reports_released verdict⟩

end Praefectus
