import Praefectus.Engine.Program
import Praefectus.Program.Histories

/-!
# The quiet parts of a call

Between the steps that touch a ledger, the lock or the dispatch, a call only looks
at its environment.
-/

namespace Praefectus

open Prog

/-- What a call asks between the steps that dispatch or touch the lock or a ledger. -/
def EngineOp.IsQuiet : EngineOp → Prop
  | .capabilities | .observeWithBoundary .. | .resolveWithBoundary ..
  | .contextHashWithBoundary _ | .isCancelled | .now | .trajectory _ => True
  | _ => False

theorem quiet_ask {op : EngineOp} (quiet : op.IsQuiet) : (ask op).Only EngineOp.IsQuiet :=
  ⟨quiet, fun _ => trivial⟩

theorem quiet_trajectory (acknowledgement : ActionAck) :
    (trajectory acknowledgement).Only EngineOp.IsQuiet :=
  only_bind (quiet_ask trivial) fun _ => trivial

namespace Execution

variable (execution : Execution)

theorem quiet_emptyReceipt (sessionIsolation : SessionIsolation) :
    (execution.emptyReceipt sessionIsolation).Only EngineOp.IsQuiet :=
  only_bind (quiet_ask trivial) fun _ => only_bind (quiet_ask trivial) fun _ => trivial

theorem quiet_checkBoundary : execution.checkBoundary.run.Only EngineOp.IsQuiet := by
  refine only_try (only_lift (quiet_ask trivial)) fun cancelled => ?_
  cases cancelled with
  | true => exact trivial
  | false =>
    refine only_try (only_lift (quiet_ask trivial)) fun t => ?_
    split <;> exact trivial

theorem quiet_contextBefore : execution.contextBefore.run.Only EngineOp.IsQuiet := by
  unfold contextBefore
  split
  · refine only_try (only_lift (quiet_ask trivial)) fun answer => ?_
    split <;> exact trivial
  · exact trivial

theorem quiet_orFail {α : Type} (answer : Except ProtocolError α) :
    (orFail answer).run.Only EngineOp.IsQuiet := by
  cases answer <;> exact trivial

theorem quiet_prepare : execution.prepare.run.Only EngineOp.IsQuiet := by
  refine only_try (only_lift (quiet_trajectory _)) fun _ => ?_
  refine only_try execution.quiet_checkBoundary fun _ => ?_
  split
  · exact trivial
  refine only_try (only_lift (quiet_ask trivial)) fun capabilities => ?_
  refine only_try execution.quiet_checkBoundary fun _ => ?_
  refine only_try (quiet_orFail _) fun capabilities => ?_
  split
  · exact trivial
  next actionCapability _ =>
    split
    · exact trivial
    refine only_try (only_lift (quiet_ask trivial)) fun before => ?_
    refine only_try (quiet_orFail _) fun before => ?_
    refine only_try (only_lift (quiet_ask trivial)) fun resolved => ?_
    refine only_try (quiet_orFail _) fun resolved => ?_
    refine only_try (only_lift (quiet_trajectory _)) fun _ => ?_
    refine only_try execution.quiet_checkBoundary fun _ => ?_
    exact only_try execution.quiet_contextBefore fun _ => trivial

theorem quiet_contextPreservation (before : Option String) :
    (execution.contextPreservation before).Only EngineOp.IsQuiet := by
  unfold contextPreservation
  split
  · exact trivial
  split
  · exact trivial
  cases before with
  | none => exact trivial
  | some before =>
    refine only_bind (quiet_ask trivial) fun answer => ?_
    cases answer <;> exact trivial

theorem quiet_pastBoundary : execution.pastBoundary.Only EngineOp.IsQuiet := by
  refine only_bind (quiet_ask trivial) fun cancelled => ?_
  cases cancelled with
  | true => exact trivial
  | false => exact only_bind (quiet_ask trivial) fun _ => trivial

theorem quiet_completedAtBoundary (prepared : Prepared) (startedAtMs : Int64)
    (dispatch : DispatchReceipt) :
    (execution.completedAtBoundary prepared startedAtMs dispatch).Only EngineOp.IsQuiet :=
  only_bind (execution.quiet_emptyReceipt _) fun _ => only_bind (quiet_ask trivial) fun _ =>
    only_bind (execution.quiet_contextPreservation _) fun _ => trivial

theorem quiet_completed (prepared : Prepared) (startedAtMs : Int64) (dispatch : DispatchReceipt) :
    (execution.completed prepared startedAtMs dispatch).Only EngineOp.IsQuiet :=
  only_bind (execution.quiet_contextPreservation _) fun _ => only_bind (quiet_ask trivial) fun _ =>
    only_bind execution.quiet_pastBoundary fun _ => only_bind (quiet_ask trivial) fun _ => trivial

theorem quiet_failedUnknown (prepared : Prepared) (startedAtMs : Int64) (error : DispatchError) :
    (execution.failedUnknown prepared startedAtMs error).Only EngineOp.IsQuiet :=
  only_bind (execution.quiet_emptyReceipt _) fun _ => only_bind (quiet_ask trivial) fun _ =>
    only_bind (execution.quiet_contextPreservation _) fun _ => trivial

theorem quiet_failedWithoutEffect (error : DispatchError) :
    (execution.failedWithoutEffect error).Only EngineOp.IsQuiet := by
  unfold failedWithoutEffect
  split
  · exact trivial
  split
  · exact trivial
  refine only_bind (quiet_ask trivial) fun cancelled => ?_
  cases cancelled with
  | true => exact trivial
  | false =>
    refine only_bind (quiet_ask trivial) fun t => ?_
    split <;> exact trivial

theorem quiet_settleDispatch (prepared : Prepared) (startedAtMs : Int64)
    (answer : Except DispatchError DispatchReceipt) :
    (execution.settleDispatch prepared startedAtMs answer).Only EngineOp.IsQuiet := by
  cases answer with
  | ok dispatch =>
    refine only_bind execution.quiet_pastBoundary fun past => ?_
    split
    · exact only_bind (execution.quiet_completedAtBoundary _ _ _) fun _ => trivial
    · exact only_bind (execution.quiet_completed _ _ _) fun _ => trivial
  | error error =>
    refine (apply_ite (Prog.Only _) _ _ _).mpr ?_
    split
    · exact only_bind (execution.quiet_failedUnknown _ _ _) fun _ => trivial
    · exact only_bind (execution.quiet_failedWithoutEffect _) fun _ => trivial

end Execution

end Praefectus
