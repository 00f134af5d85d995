import Praefectus.Engine.Quiet

/-!
# What a terminal says about the dispatch

The history of a call is cut at its dispatch. The terminal that follows claims
success only if nothing after the dispatch spoke against it, and claims that there
was no effect only if the executor said so.
-/

namespace Praefectus

open Prog

abbrev History := List (Event Engine)

/-- Questions that are no boundary check. -/
def EngineOp.IsUnchecked : EngineOp → Prop
  | .isCancelled | .observeWithBoundary .. => False
  | _ => True

/-- No boundary was seen: each cancellation query answered no and was followed by a
reading of the clock before the deadline, and no observation was stopped. -/
inductive Unstopped (deadlineAtMs : Int64) : History → Prop where
  | nil : Unstopped deadlineAtMs []
  | check {t : Int64} {rest : History} : t < deadlineAtMs → Unstopped deadlineAtMs rest →
      Unstopped deadlineAtMs (⟨.isCancelled, false⟩ :: ⟨.now, t⟩ :: rest)
  | observed {target : TargetRef} {deadline : Int64} {answer : Except ProtocolError Observation}
      {rest : History} : Execution.stoppedAtBoundary answer = false → Unstopped deadlineAtMs rest →
      Unstopped deadlineAtMs (⟨.observeWithBoundary target deadline, answer⟩ :: rest)
  | other {e : Event Engine} {rest : History} : e.op.IsUnchecked → Unstopped deadlineAtMs rest →
      Unstopped deadlineAtMs (e :: rest)

theorem unstopped_append {deadlineAtMs : Int64} {first rest : History}
    (unchecked : ∀ e ∈ first, e.op.IsUnchecked) (unstopped : Unstopped deadlineAtMs rest) :
    Unstopped deadlineAtMs (first ++ rest) := by
  induction first with
  | nil => exact unstopped
  | cons e first ih =>
    obtain ⟨head, tail⟩ := List.forall_mem_cons.mp unchecked
    exact .other head (ih tail)

theorem unstopped_unchecked {deadlineAtMs : Int64} {history : History}
    (unchecked : ∀ e ∈ history, e.op.IsUnchecked) : Unstopped deadlineAtMs history := by
  have whole := unstopped_append unchecked (.nil : Unstopped deadlineAtMs [])
  rwa [List.append_nil] at whole

theorem unstopped_then {deadlineAtMs : Int64} {history rest : History}
    (unstopped : Unstopped deadlineAtMs history) (unchecked : ∀ e ∈ rest, e.op.IsUnchecked) :
    Unstopped deadlineAtMs (history ++ rest) := by
  induction unstopped with
  | nil => exact unstopped_unchecked unchecked
  | check early _ ih => exact .check early ih
  | observed unseen _ ih => exact .observed unseen ih
  | other quiet _ ih => exact .other quiet ih

/-! ### Terminals -/

/-- Terminals that say there was no effect. -/
def Terminal.isWithoutEffect : Terminal → Bool
  | .rejected .. | .failed .. | .cancelledBeforeEffect | .expiredBeforeEffect => true
  | _ => false

theorem protocolFailure_withoutEffect (error : ProtocolError) :
    (protocolFailure error).isWithoutEffect = true := by
  cases error <;> rfl

/-- The receipt of a terminal that has one. -/
def Terminal.receipt? : Terminal → Option Receipt
  | .succeeded receipt | .outcomeUnknown receipt _ => some receipt
  | _ => none

theorem verify_snapshotChanged (before : Observation) (after : Option Observation)
    (expected : Option String) :
    (verify .snapshotChanged before after expected).1 = .executedUnverified := by
  cases after with
  | none => rfl
  | some after =>
    simp only [verify]
    split <;> rfl

namespace Execution

variable {execution : Execution}

theorem unchecked_contextPreservation (before : Option String) :
    (execution.contextPreservation before).Only EngineOp.IsUnchecked := by
  unfold contextPreservation
  split
  · exact trivial
  split
  · exact trivial
  cases before with
  | none => exact trivial
  | some before =>
    refine only_bind ⟨trivial, fun _ => trivial⟩ fun answer => ?_
    cases answer <;> exact trivial

/-- A shared desktop that is shown to be preserved was sampled again and found equal. -/
theorem contextPreservation_kept {before : Option String} {history : History}
    {preservation : ContextPreservation}
    (run : Steps (execution.contextPreservation before) history (.ret preservation))
    (guarded : execution.isGuarded = true) (kept : preservation.isLost = false) :
    preservation = .unchangedAtBoundaries ∧ ∃ context, before = some context ∧
      (⟨.contextHashWithBoundary execution.deadlineAtMs, .ok context⟩ : Event Engine) ∈ history := by
  simp only [isGuarded, Bool.and_eq_true, decide_eq_true_eq] at guarded
  unfold contextPreservation at run
  rw [if_neg (not_not.mpr guarded.1), if_neg (by rw [guarded.2]; decide)] at run
  cases before with
  | none =>
    obtain ⟨_, rfl⟩ := steps_ret.mp run
    contradiction
  | some context =>
    replace run := steps_bind.mp run
    obtain ⟨first, answer, rest, rfl, asked, tail⟩ := run
    obtain rfl := steps_ask.mp asked
    cases answer with
    | error e =>
      obtain ⟨_, rfl⟩ := steps_ret.mp tail
      contradiction
    | ok after =>
      obtain ⟨rfl, same⟩ := steps_ret.mp tail
      by_cases equal : after = context
      · subst equal
        rw [if_pos rfl] at same
        exact ⟨same.symm, after, rfl, List.mem_cons_self⟩
      · rw [if_neg equal] at same
        subst same
        contradiction

theorem pastBoundary_false {history : History}
    (run : Steps execution.pastBoundary history (.ret false)) {rest : History}
    (unstopped : Unstopped execution.deadlineAtMs rest) :
    Unstopped execution.deadlineAtMs (history ++ rest) := by
  replace run := steps_bind.mp run
  obtain ⟨first, cancelled, tail, rfl, asked, answered⟩ := run
  obtain rfl := steps_ask.mp asked
  cases cancelled with
  | true =>
    obtain ⟨_, same⟩ := steps_ret.mp answered
    contradiction
  | false =>
    replace answered := steps_bind.mp answered
    obtain ⟨clock, t, last, rfl, read, same⟩ := answered
    obtain rfl := steps_ask.mp read
    obtain ⟨rfl, late⟩ := steps_ret.mp same
    have early : t < execution.deadlineAtMs := by
      simpa only [ge_iff_le, decide_eq_false_iff_not, Int64.not_le] using late
    exact .check early unstopped

theorem settleEffect_known {verified : Effect × List String} {boundaryUnknown : Bool}
    {contextPreservation : ContextPreservation} {effect : Effect} {warnings : List String}
    (settled : settleEffect verified boundaryUnknown contextPreservation = (effect, warnings))
    (known : effect ≠ .unknown) :
    boundaryUnknown = false ∧ contextPreservation.isLost = false ∧ effect = verified.1 := by
  obtain ⟨first, notes⟩ := verified
  unfold settleEffect at settled
  cases lost : contextPreservation.isLost with
  | true =>
    rw [lost] at settled
    exact absurd (Prod.mk.inj settled).1.symm known
  | false =>
    rw [lost] at settled
    cases boundaryUnknown with
    | true => exact absurd (Prod.mk.inj settled).1.symm known
    | false => exact ⟨rfl, rfl, (Prod.mk.inj settled).1.symm⟩

/-- What a report of success says about the history after the dispatch. -/
structure Succeeds (execution : Execution) (prepared : Prepared) (receipt : Receipt)
    (after : History) : Prop where
  unstopped : Unstopped execution.deadlineAtMs after
  kept : receipt.contextPreservation.isLost = false
  known : receipt.effect ≠ .unknown
  verified : execution.request.verification.isNone = false → receipt.effect = .verified
  sampled : execution.isGuarded = true →
    receipt.contextPreservation = .unchangedAtBoundaries ∧ ∃ context,
      prepared.contextBefore = some context ∧
      (⟨.contextHashWithBoundary execution.deadlineAtMs, .ok context⟩ : Event Engine) ∈ after

theorem succeeds_then {prepared : Prepared} {receipt : Receipt} {after rest : History}
    (succeeds : execution.Succeeds prepared receipt after)
    (unchecked : ∀ e ∈ rest, e.op.IsUnchecked) :
    execution.Succeeds prepared receipt (after ++ rest) where
  unstopped := unstopped_then succeeds.unstopped unchecked
  kept := succeeds.kept
  known := succeeds.known
  verified := succeeds.verified
  sampled guarded := by
    obtain ⟨same, context, before, sampled⟩ := succeeds.sampled guarded
    exact ⟨same, context, before, List.mem_append_left _ sampled⟩

/-- A receipt claims no verified effect for a policy that cannot verify one. -/
def Honest (execution : Execution) (receipt : Receipt) : Prop :=
  execution.request.verification = .snapshotChanged → receipt.effect ≠ .verified

theorem classify_cases (receipt : Receipt) (boundaryUnknown : Bool) :
    (execution.classify receipt boundaryUnknown = .succeeded receipt ∧ receipt.effect ≠ .unknown ∧
      (execution.request.verification.isNone = false → receipt.effect = .verified)) ∨
    ∃ message, execution.classify receipt boundaryUnknown = .outcomeUnknown receipt message := by
  unfold classify
  split
  next good =>
    simp only [Bool.and_eq_true, Bool.or_eq_true, decide_eq_true_eq] at good
    exact .inl ⟨rfl, good.1, fun asked => good.2.resolve_left (by rw [asked]; decide)⟩
  next => exact .inr ⟨_, rfl⟩

theorem completed_cases {prepared : Prepared} {startedAtMs : Int64} {dispatch : DispatchReceipt}
    {history : History} {terminal : Terminal}
    (run : Steps (execution.completed prepared startedAtMs dispatch) history (.ret terminal)) :
    ∃ receipt, execution.Honest receipt ∧
      ((terminal = .succeeded receipt ∧ execution.Succeeds prepared receipt history) ∨
        ∃ message, terminal = .outcomeUnknown receipt message) := by
  replace run := steps_bind.mp run
  obtain ⟨contexts, contextPreservation, rest, rfl, sampled, run⟩ := run
  replace run := steps_bind.mp run
  obtain ⟨_, after, rest, rfl, asked, run⟩ := run
  obtain rfl := steps_ask.mp asked
  replace run := steps_bind.mp run
  obtain ⟨checks, past, rest, rfl, checked, run⟩ := run
  replace run := steps_bind.mp run
  obtain ⟨_, finishedAtMs, rest, rfl, read, run⟩ := run
  obtain rfl := steps_ask.mp read
  obtain ⟨rfl, rfl⟩ := steps_ret.mp run
  rcases settled : settleEffect (verify execution.request.verification prepared.before
    after.toOption execution.expectedFingerprint) (past || stoppedAtBoundary after)
    contextPreservation with ⟨effect, warnings⟩
  rw [completion, settled]
  refine ⟨execution.completedReceipt prepared startedAtMs finishedAtMs dispatch
    contextPreservation after (effect, warnings), ?honest, ?cases⟩
  case honest =>
    intro unverifiable verified
    have shown : effect = .verified := verified
    obtain ⟨_, _, same⟩ := settleEffect_known settled (by rw [shown]; decide)
    rw [unverifiable, verify_snapshotChanged, shown] at same
    contradiction
  case cases =>
    rcases classify_cases (execution.completedReceipt prepared startedAtMs finishedAtMs dispatch
      contextPreservation after (effect, warnings)) (past || stoppedAtBoundary after) with
      ⟨same, known, verified⟩ | unknown
    · left
      obtain ⟨held, kept, _⟩ := settleEffect_known settled known
      obtain ⟨rfl, unseen⟩ := Bool.or_eq_false_iff.mp held
      refine ⟨same, ?_, kept, known, verified, ?_⟩
      · have quiet := only_steps (unchecked_contextPreservation _) sampled
        exact unstopped_append quiet (.observed unseen
          (pastBoundary_false checked (.other trivial .nil)))
      · intro guarded
        obtain ⟨unchanged, context, before, member⟩ := contextPreservation_kept sampled guarded kept
        exact ⟨unchanged, context, before, List.mem_append_left _ member⟩
    · exact .inr unknown

/-- How the answer to a dispatch is settled. -/
inductive Settled (execution : Execution) (prepared : Prepared) :
    Except DispatchError DispatchReceipt → History → Terminal → Bool → Prop where
  | succeeded {dispatch : DispatchReceipt} {after : History} {receipt : Receipt} :
      execution.Honest receipt → execution.Succeeds prepared receipt after →
      Settled execution prepared (.ok dispatch) after (.succeeded receipt) true
  | unknown {answer : Except DispatchError DispatchReceipt} {after : History} {receipt : Receipt}
      {message : String} :
      (∀ error, answer = .error error → error.effect = .unknown) → execution.Honest receipt →
      Settled execution prepared answer after (.outcomeUnknown receipt message) true
  | withoutEffect {error : DispatchError} {after : History} {terminal : Terminal} :
      error.effect ≠ .unknown → terminal.isWithoutEffect = true →
      Settled execution prepared (.error error) after terminal false

theorem emptyReceipt_effect {sessionIsolation : SessionIsolation} {history : History}
    {receipt : Receipt}
    (run : Steps (execution.emptyReceipt sessionIsolation) history (.ret receipt)) :
    receipt.effect = .unknown := by
  replace run := steps_bind.mp run
  obtain ⟨_, startedAtMs, rest, rfl, _, run⟩ := run
  replace run := steps_bind.mp run
  obtain ⟨_, finishedAtMs, rest, rfl, _, run⟩ := run
  obtain ⟨_, rfl⟩ := steps_ret.mp run
  rfl

theorem honest_unknown {receipt : Receipt} (unknown : receipt.effect = .unknown) :
    execution.Honest receipt := by
  intro _ verified
  rw [unknown] at verified
  contradiction

theorem completedAtBoundary_cases {prepared : Prepared} {startedAtMs : Int64}
    {dispatch : DispatchReceipt} {history : History} {terminal : Terminal}
    (run : Steps (execution.completedAtBoundary prepared startedAtMs dispatch) history
      (.ret terminal)) :
    ∃ receipt message, terminal = .outcomeUnknown receipt message ∧ receipt.effect = .unknown := by
  replace run := steps_bind.mp run
  obtain ⟨_, receipt, rest, rfl, empty, run⟩ := run
  replace run := steps_bind.mp run
  obtain ⟨_, finishedAtMs, rest, rfl, _, run⟩ := run
  replace run := steps_bind.mp run
  obtain ⟨_, contextPreservation, rest, rfl, _, run⟩ := run
  obtain ⟨_, rfl⟩ := steps_ret.mp run
  have unknown := emptyReceipt_effect empty
  exact ⟨_, _, rfl, unknown⟩

theorem failedUnknown_cases {prepared : Prepared} {startedAtMs : Int64} {error : DispatchError}
    {history : History} {terminal : Terminal}
    (run : Steps (execution.failedUnknown prepared startedAtMs error) history (.ret terminal)) :
    ∃ receipt message, terminal = .outcomeUnknown receipt message ∧ receipt.effect = .unknown := by
  replace run := steps_bind.mp run
  obtain ⟨_, receipt, rest, rfl, empty, run⟩ := run
  replace run := steps_bind.mp run
  obtain ⟨_, finishedAtMs, rest, rfl, _, run⟩ := run
  replace run := steps_bind.mp run
  obtain ⟨_, contextPreservation, rest, rfl, _, run⟩ := run
  obtain ⟨_, rfl⟩ := steps_ret.mp run
  have unknown := emptyReceipt_effect empty
  exact ⟨_, _, rfl, unknown⟩

theorem failedWithoutEffect_cases {error : DispatchError} {history : History} {terminal : Terminal}
    (run : Steps (execution.failedWithoutEffect error) history (.ret terminal)) :
    terminal.isWithoutEffect = true := by
  unfold failedWithoutEffect at run
  split at run
  · obtain ⟨_, rfl⟩ := steps_ret.mp run; rfl
  split at run
  · obtain ⟨_, rfl⟩ := steps_ret.mp run; rfl
  replace run := steps_bind.mp run
  obtain ⟨_, cancelled, rest, rfl, _, run⟩ := run
  cases cancelled with
  | true => obtain ⟨_, rfl⟩ := steps_ret.mp run; rfl
  | false =>
    replace run := steps_bind.mp run
    obtain ⟨_, t, rest, rfl, _, run⟩ := run
    split at run
    · obtain ⟨_, rfl⟩ := steps_ret.mp run; rfl
    · obtain ⟨_, rfl⟩ := steps_ret.mp run; rfl

/-- The dispatch as the executor sees it. -/
def dispatchOp (execution : Execution) (prepared : Prepared) : EngineOp :=
  .dispatch execution.key execution.request.action prepared.resolved execution.request.verification
    execution.deadlineAtMs

/-- A dispatch is asked once, and its answer is settled by what is seen afterwards. -/
theorem dispatchAction_cases {prepared : Prepared} {history : History} {terminal : Terminal}
    {effect : Bool}
    (run : Steps (execution.dispatchAction prepared) history (.ret (terminal, effect))) :
    ∃ startedAtMs answer after,
      history = ⟨.now, startedAtMs⟩ :: ⟨execution.dispatchOp prepared, answer⟩ :: after ∧
      (∀ e ∈ after, e.op.IsQuiet) ∧ execution.Settled prepared answer after terminal effect := by
  replace run := steps_bind.mp run
  obtain ⟨_, startedAtMs, rest, rfl, read, run⟩ := run
  obtain rfl := steps_ask.mp read
  replace run := steps_bind.mp run
  obtain ⟨_, answer, rest, rfl, dispatched, run⟩ := run
  obtain rfl := steps_ask.mp dispatched
  refine ⟨startedAtMs, answer, rest, rfl,
    only_steps (execution.quiet_settleDispatch _ _ _) run, ?_⟩
  cases answer with
  | ok dispatch =>
    have answered : ∀ error, (.ok dispatch : Except DispatchError DispatchReceipt) = .error error →
        error.effect = .unknown := fun _ same => nomatch same
    replace run := steps_bind.mp run
    obtain ⟨checks, past, rest, rfl, checked, run⟩ := run
    cases past with
    | true =>
      replace run := steps_bind.mp run
      obtain ⟨first, terminal', rest, rfl, completed, run⟩ := run
      obtain ⟨rfl, same⟩ := steps_ret.mp run
      obtain ⟨rfl, rfl⟩ := Prod.mk.inj same
      obtain ⟨receipt, message, rfl, unknown⟩ := completedAtBoundary_cases completed
      exact .unknown answered (honest_unknown unknown)
    | false =>
      replace run := steps_bind.mp run
      obtain ⟨first, terminal', rest, rfl, completed, run⟩ := run
      obtain ⟨rfl, same⟩ := steps_ret.mp run
      obtain ⟨rfl, rfl⟩ := Prod.mk.inj same
      rw [List.append_nil]
      obtain ⟨receipt, honest, ⟨rfl, succeeds⟩ | ⟨message, rfl⟩⟩ := completed_cases completed
      · refine .succeeded honest ⟨pastBoundary_false checked succeeds.unstopped, succeeds.kept,
          succeeds.known, succeeds.verified, fun guarded => ?_⟩
        obtain ⟨unchanged, context, before, member⟩ := succeeds.sampled guarded
        exact ⟨unchanged, context, before, List.mem_append_right _ member⟩
      · exact .unknown answered honest
  | error error =>
    by_cases unknown : error.effect = .unknown
    · simp only [settleDispatch, if_pos unknown] at run
      replace run := steps_bind.mp run
      obtain ⟨first, terminal', rest, rfl, failed, run⟩ := run
      obtain ⟨rfl, same⟩ := steps_ret.mp run
      obtain ⟨rfl, rfl⟩ := Prod.mk.inj same
      obtain ⟨receipt, message, rfl, empty⟩ := failedUnknown_cases failed
      refine .unknown ?_ (honest_unknown empty)
      rintro _ ⟨rfl⟩
      exact unknown
    · simp only [settleDispatch, if_neg unknown] at run
      replace run := steps_bind.mp run
      obtain ⟨first, terminal', rest, rfl, failed, run⟩ := run
      obtain ⟨rfl, same⟩ := steps_ret.mp run
      obtain ⟨rfl, rfl⟩ := Prod.mk.inj same
      exact .withoutEffect unknown (failedWithoutEffect_cases failed)

end Execution

end Praefectus
