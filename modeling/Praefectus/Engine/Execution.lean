import Praefectus.Engine.Effects

/-!
# Completed executions

How the history of a completed execution splits into its parts: what was asked before
the claim, the way to the dispatch, the dispatch, and the settlement of its terminal.
-/

namespace Praefectus

open Prog

def EngineOp.IsDispatch : EngineOp → Prop
  | .dispatch .. => True
  | _ => False

/-- Questions to the local ledger and the host's, other than the storing of a claim. -/
def EngineOp.IsSettling : EngineOp → Prop
  | .ledger (.append (.claim ..)) => False
  | .ledger _ | .trajectory _ | .begin .. | .record .. => True
  | _ => False

theorem quiet_undispatched {op : EngineOp} (quiet : op.IsQuiet) : ¬ op.IsDispatch := by
  cases op <;> simp_all [EngineOp.IsQuiet, EngineOp.IsDispatch]

theorem settling_undispatched {op : EngineOp} (settling : op.IsSettling) : ¬ op.IsDispatch := by
  cases op <;> simp_all [EngineOp.IsSettling, EngineOp.IsDispatch]

theorem settling_unchecked {op : EngineOp} (settling : op.IsSettling) : op.IsUnchecked := by
  cases op <;> simp_all [EngineOp.IsSettling, EngineOp.IsUnchecked]

def Undispatched (history : History) : Prop := ∀ e ∈ history, ¬ e.op.IsDispatch

theorem undispatched_append {a b : History} (first : Undispatched a) (second : Undispatched b) :
    Undispatched (a ++ b) :=
  List.forall_mem_append.mpr ⟨first, second⟩

/-! ### Settlement -/

theorem settling_ask {op : EngineOp} (settling : op.IsSettling) :
    (ask op).Only EngineOp.IsSettling :=
  ⟨settling, fun _ => trivial⟩

theorem settling_finish (acknowledgement : ActionAck) :
    (finish acknowledgement).run.Only EngineOp.IsSettling :=
  only_try (settling_ask trivial) fun _ =>
    only_lift (only_bind (settling_ask trivial) fun _ => trivial)

theorem settling_finishAfterEffect (acknowledgement : ActionAck) :
    (finishAfterEffect acknowledgement).Only EngineOp.IsSettling := by
  refine only_bind (settling_finish _) fun stored => ?_
  cases stored with
  | ok => exact trivial
  | error =>
    refine only_bind ?_ fun _ => trivial
    exact only_try (settling_ask trivial) fun _ => settling_finish _

theorem settling_reconcileInterrupted (outcomes : Outcomes) (acknowledgement : ActionAck) :
    (reconcileInterrupted outcomes acknowledgement).run.Only EngineOp.IsSettling := by
  unfold reconcileInterrupted
  split
  · refine only_try (settling_ask trivial) fun decision => ?_
    cases decision with
    | recorded => exact only_try (settling_finish _) fun _ => trivial
    | _ => exact trivial
  · exact trivial

theorem persistenceUnknown_idempotent (terminal : Terminal) :
    persistenceUnknown (persistenceUnknown terminal) = persistenceUnknown terminal := by
  cases terminal <;> rfl

namespace Execution

variable {execution : Execution}

theorem settling_finishWithEffect (terminal : Terminal) :
    (execution.finishWithEffect terminal).run.Only EngineOp.IsSettling :=
  only_try (only_bind (settling_ask trivial) fun _ => trivial) fun _ =>
    only_try (only_lift (settling_finishAfterEffect _)) fun _ => trivial

theorem settling_finishWithoutEffect (acknowledgements : List ActionAck) (terminal : Terminal) :
    (execution.finishWithoutEffect acknowledgements terminal).run.Only EngineOp.IsSettling :=
  only_try (settling_ask trivial) fun _ => only_try (settling_finish _) fun _ => trivial

end Execution

/-- The terminal a report ends with. -/
def ExecuteReport.terminal? (report : ExecuteReport) : Option Terminal :=
  report.acknowledgements.getLast?.bind fun acknowledgement =>
    match acknowledgement.state with
    | .terminal terminal => some terminal
    | _ => none

theorem finishAfterEffect_returns {acknowledgement stored : ActionAck} {history : History}
    (run : Steps (finishAfterEffect acknowledgement) history (.ret stored)) :
    stored = acknowledgement ∨ stored = persistenceUnknownAck acknowledgement := by
  replace run := steps_bind.mp run
  obtain ⟨first, result, rest, rfl, finished, run⟩ := run
  cases result with
  | ok =>
    obtain ⟨rfl, rfl⟩ := steps_ret.mp run
    exact .inl rfl
  | error =>
    replace run := steps_bind.mp run
    obtain ⟨second, again, rest, rfl, finished, run⟩ := run
    obtain ⟨rfl, rfl⟩ := steps_ret.mp run
    exact .inr rfl

namespace Execution

variable {execution : Execution}

theorem finishWithEffect_report {terminal : Terminal} {history : History} {report : ExecuteReport}
    (run : Steps (execution.finishWithEffect terminal).run history (.ret (.ok report))) :
    report.terminal? = some terminal ∨ report.terminal? = some (persistenceUnknown terminal) := by
  replace run := steps_try_ok run
  obtain ⟨first, recorded, rest, rfl, _, run⟩ := run
  replace run := steps_try_ok run
  obtain ⟨second, stored, rest, rfl, finished, run⟩ := run
  obtain ⟨rfl, same⟩ := steps_ret.mp run
  obtain rfl := Except.ok.inj same
  obtain ⟨_, finished, same⟩ := steps_lift.mp finished
  obtain rfl := Except.ok.inj same
  cases recorded with
  | ok =>
    rcases finishAfterEffect_returns finished with rfl | rfl
    · exact .inl rfl
    · exact .inr rfl
  | error =>
    rcases finishAfterEffect_returns finished with rfl | rfl
    · exact .inr rfl
    · right
      change some (persistenceUnknown (persistenceUnknown terminal)) = _
      rw [persistenceUnknown_idempotent]

theorem finishWithoutEffect_report {acknowledgements : List ActionAck} {terminal : Terminal}
    {history : History} {report : ExecuteReport}
    (run : Steps (execution.finishWithoutEffect acknowledgements terminal).run history
      (.ret (.ok report))) : report.terminal? = some terminal := by
  replace run := steps_try_ok run
  obtain ⟨first, _, rest, rfl, _, run⟩ := run
  replace run := steps_try_ok run
  obtain ⟨second, _, rest, rfl, _, run⟩ := run
  obtain ⟨rfl, same⟩ := steps_ret.mp run
  obtain rfl := Except.ok.inj same
  simp only [ExecuteReport.terminal?, List.getLast?_concat]
  rfl

/-! ### The way to the dispatch -/

theorem exits_try {α β ε : Type} {P : ε → Prop} {x : ExceptT ε (Prog Engine) α}
    {f : α → ExceptT ε (Prog Engine) β}
    (first : ∀ history e, Steps x.run history (.ret (.error e)) → P e)
    (rest : ∀ a history e, Steps (f a).run history (.ret (.error e)) → P e) :
    ∀ history e, Steps (x >>= f).run history (.ret (.error e)) → P e := by
  intro history e run
  rcases steps_try.mp run with ⟨e', failed, same⟩ | ⟨_, a, _, _, _, run⟩
  · cases same
    exact first history e failed
  · exact rest a _ e run

theorem exits_lift {α ε : Type} {P : ε → Prop} {p : Prog Engine α} :
    ∀ history e, Steps (monadLift p : ExceptT ε (Prog Engine) α).run history (.ret (.error e)) →
      P e := by
  intro history e run
  obtain ⟨_, _, same⟩ := steps_lift.mp run
  contradiction

theorem exits_throw {α : Type} {terminal : Terminal} (clean : terminal.isWithoutEffect = true) :
    ∀ history e, Steps (throw terminal : PhaseM α).run history (.ret (.error e)) →
      e.isWithoutEffect = true := by
  intro history e run
  obtain ⟨_, same⟩ := steps_ret.mp run
  cases same
  exact clean

theorem exits_pure {α ε : Type} {P : ε → Prop} {a : α} :
    ∀ history e, Steps (pure a : ExceptT ε (Prog Engine) α).run history (.ret (.error e)) →
      P e := by
  intro history e run
  obtain ⟨_, same⟩ := steps_ret.mp run
  contradiction

theorem checkBoundary_exits : ∀ history e,
    Steps execution.checkBoundary.run history (.ret (.error e)) → e.isWithoutEffect = true := by
  refine exits_try exits_lift fun cancelled => ?_
  cases cancelled with
  | true => exact exits_throw rfl
  | false =>
    refine exits_try exits_lift fun t => ?_
    split
    · exact exits_throw rfl
    · exact exits_pure

theorem contextBefore_exits : ∀ history e,
    Steps execution.contextBefore.run history (.ret (.error e)) → e.isWithoutEffect = true := by
  unfold contextBefore
  split
  · refine exits_try exits_lift fun answer => ?_
    split
    · exact exits_pure
    · exact exits_throw rfl
    · exact exits_throw rfl
    · exact exits_throw rfl
  · exact exits_pure

theorem orFail_exits {α : Type} (answer : Except ProtocolError α) : ∀ history e,
    Steps (orFail answer).run history (.ret (.error e)) → e.isWithoutEffect = true := by
  cases answer with
  | ok value => exact exits_pure
  | error error => exact exits_throw (protocolFailure_withoutEffect error)

/-- Every early exit settles the operation without an effect. -/
theorem prepare_exits : ∀ history e,
    Steps execution.prepare.run history (.ret (.error e)) → e.isWithoutEffect = true := by
  refine exits_try exits_lift fun _ => ?_
  refine exits_try checkBoundary_exits fun _ => ?_
  split
  · exact exits_throw rfl
  refine exits_try exits_lift fun _ => ?_
  refine exits_try checkBoundary_exits fun _ => ?_
  refine exits_try (orFail_exits _) fun capabilities => ?_
  split
  · exact exits_throw rfl
  next actionCapability _ =>
    split
    · exact exits_throw rfl
    refine exits_try exits_lift fun _ => ?_
    refine exits_try (orFail_exits _) fun before => ?_
    refine exits_try exits_lift fun _ => ?_
    refine exits_try (orFail_exits _) fun resolved => ?_
    refine exits_try exits_lift fun _ => ?_
    refine exits_try checkBoundary_exits fun _ => ?_
    exact exits_try contextBefore_exits fun _ => exits_pure

theorem contextBefore_sampled {history : History} {context : Option String}
    (run : Steps execution.contextBefore.run history (.ret (.ok context)))
    (guarded : execution.isGuarded = true) : ∃ sample, context = some sample ∧
      (⟨.contextHashWithBoundary execution.deadlineAtMs, .ok sample⟩ : Event Engine) ∈ history := by
  unfold contextBefore at run
  rw [if_pos guarded] at run
  replace run := steps_try_ok run
  obtain ⟨first, answer, rest, rfl, asked, run⟩ := run
  obtain ⟨_, asked, same⟩ := steps_lift.mp asked
  obtain rfl := Except.ok.inj same
  obtain rfl := steps_ask.mp asked
  split at run
  next =>
    obtain ⟨_, same⟩ := steps_ret.mp run
    obtain rfl := Except.ok.inj same
    exact ⟨_, rfl, List.mem_cons_self⟩
  all_goals
    obtain ⟨_, same⟩ := steps_ret.mp run
    contradiction

theorem orFail_ok {α : Type} {answer : Except ProtocolError α} {history : History} {value : α}
    (run : Steps (orFail answer).run history (.ret (.ok value))) :
    answer = .ok value := by
  cases answer with
  | ok value' =>
    obtain ⟨_, same⟩ := steps_ret.mp run
    rw [Except.ok.inj same]
  | error => obtain ⟨_, same⟩ := steps_ret.mp run; contradiction

/-- What holds of an action that is about to be dispatched. -/
structure Ready (execution : Execution) (prepared : Prepared) (history : History) : Prop where
  isolated : execution.sessionIsolation ≠ .unknown
  capable : ∃ capabilities capability,
    (⟨.capabilities, .ok capabilities⟩ : Event Engine) ∈ history ∧
    strictActionCapability capabilities execution.request.action = some capability ∧
    (execution.request.interactionMode = .backgroundOnly →
      backgroundCapabilityIsAuthorized capability execution.sessionIsolation = true)
  sampled : execution.isGuarded = true → ∃ context, prepared.contextBefore = some context ∧
    (⟨.contextHashWithBoundary execution.deadlineAtMs, .ok context⟩ : Event Engine) ∈ history

theorem ready_after {prepared : Prepared} {history : History} (ready : execution.Ready prepared history)
    {more : History} (grown : ∀ e ∈ history, e ∈ more) : execution.Ready prepared more where
  isolated := ready.isolated
  capable := by
    obtain ⟨capabilities, capability, member, facts⟩ := ready.capable
    exact ⟨capabilities, capability, grown _ member, facts⟩
  sampled guarded := by
    obtain ⟨context, before, member⟩ := ready.sampled guarded
    exact ⟨context, before, grown _ member⟩

theorem prepare_ready {history : History} {prepared : Prepared}
    (run : Steps execution.prepare.run history (.ret (.ok prepared))) :
    execution.Ready prepared history := by
  replace run := steps_try_ok run
  obtain ⟨h₁, _, rest, rfl, _, run⟩ := run
  replace run := steps_try_ok run
  obtain ⟨h₂, _, rest, rfl, _, run⟩ := run
  split at run
  · obtain ⟨_, same⟩ := steps_ret.mp run; contradiction
  next isolated =>
  replace run := steps_try_ok run
  obtain ⟨h₃, answer, rest, rfl, asked, run⟩ := run
  obtain ⟨_, asked, same⟩ := steps_lift.mp asked
  obtain rfl := Except.ok.inj same
  obtain rfl := steps_ask.mp asked
  replace run := steps_try_ok run
  obtain ⟨h₄, _, rest, rfl, _, run⟩ := run
  replace run := steps_try_ok run
  obtain ⟨h₅, capabilities, rest, rfl, advertised, run⟩ := run
  obtain rfl := orFail_ok advertised
  split at run
  · obtain ⟨_, same⟩ := steps_ret.mp run; contradiction
  next capability found =>
  split at run
  · obtain ⟨_, same⟩ := steps_ret.mp run; contradiction
  next authorized =>
  replace run := steps_try_ok run
  obtain ⟨h₆, _, rest, rfl, _, run⟩ := run
  replace run := steps_try_ok run
  obtain ⟨h₇, before, rest, rfl, _, run⟩ := run
  replace run := steps_try_ok run
  obtain ⟨h₈, _, rest, rfl, _, run⟩ := run
  replace run := steps_try_ok run
  obtain ⟨h₉, resolved, rest, rfl, _, run⟩ := run
  replace run := steps_try_ok run
  obtain ⟨h₁₀, _, rest, rfl, _, run⟩ := run
  replace run := steps_try_ok run
  obtain ⟨h₁₁, _, rest, rfl, _, run⟩ := run
  replace run := steps_try_ok run
  obtain ⟨h₁₂, context, rest, rfl, sampled, run⟩ := run
  obtain ⟨rfl, same⟩ := steps_ret.mp run
  obtain rfl := Except.ok.inj same
  refine ⟨isolated, ⟨capabilities, capability, ?_, found, fun background => ?_⟩, fun guarded => ?_⟩
  · simp only [List.mem_append, List.mem_cons, true_or, or_true]
  · simp only [background, decide_true, Bool.true_and, Bool.not_eq_true', Bool.not_eq_false]
      at authorized
    exact authorized
  · obtain ⟨sample, same, member⟩ := contextBefore_sampled sampled guarded
    refine ⟨sample, same, ?_⟩
    simp only [List.mem_append, member, true_or, or_true]

end Execution

end Praefectus
