import Praefectus.Engine.BackgroundSafety

/-!
# The delivery route of a receipt

A completed action is reported with the route that the capability of its action
advertises. A dispatch whose effect is unknown, or that completed at the boundary, is
reported with the route that the build derives from the action and its target.
-/

namespace Praefectus

open Prog

def ActionAck.receipt? (acknowledgement : ActionAck) : Option Receipt :=
  match acknowledgement.state with
  | .terminal terminal => terminal.receipt?
  | _ => none

/-- The receipts inside a report. -/
def ExecuteReport.receipts (report : ExecuteReport) : List Receipt :=
  report.acknowledgements.filterMap ActionAck.receipt?

/-- The call is seen to be cancelled, or else past its deadline. -/
def stopsAt (deadlineAtMs : Int64) : History → Bool
  | ⟨.isCancelled, true⟩ :: _ => true
  | ⟨.isCancelled, false⟩ :: ⟨.now, t⟩ :: _ => deadlineAtMs ≤ t
  | _ => false

/-- The dispatch failed with an unknown effect, or the call had to stop right after it. -/
def cutShort : History → Bool
  | [] => false
  | ⟨.dispatch _ _ _ _ deadlineAtMs, .ok _⟩ :: after => stopsAt deadlineAtMs after
  | ⟨.dispatch .., .error error⟩ :: _ => error.effect = .unknown
  | _ :: rest => cutShort rest

theorem cutShort_undispatched {first : History} (undispatched : Undispatched first)
    (rest : History) : cutShort (first ++ rest) = cutShort rest := by
  induction first with
  | nil => rfl
  | cons e first ih =>
    have later : Undispatched first := fun e' member => undispatched e' (List.mem_cons_of_mem _ member)
    obtain ⟨op, answer⟩ := e
    cases op with
    | dispatch => exact absurd trivial (undispatched _ List.mem_cons_self)
    | _ => exact ih later

theorem stopsAt_released (deadlineAtMs : Int64) (history : History) (outcome : Outcome) :
    stopsAt deadlineAtMs (history ++ [⟨.release outcome, ()⟩]) = stopsAt deadlineAtMs history := by
  cases history with
  | nil => rfl
  | cons e history =>
    obtain ⟨op, answer⟩ := e
    cases op with
    | isCancelled =>
      cases answer with
      | true => rfl
      | false =>
        cases history with
        | nil => rfl
        | cons e history =>
          obtain ⟨op, answer⟩ := e
          cases op <;> rfl
    | _ => rfl

theorem cutShort_released (history : History) (outcome : Outcome) :
    cutShort (history ++ [⟨.release outcome, ()⟩]) = cutShort history := by
  induction history with
  | nil => rfl
  | cons e history ih =>
    obtain ⟨op, answer⟩ := e
    cases op with
    | dispatch =>
      cases answer with
      | ok => exact stopsAt_released _ _ _
      | error => rfl
    | _ => exact ih

theorem undispatched_notCutShort {history : History} (undispatched : Undispatched history) :
    cutShort history = false := by
  have ends := cutShort_undispatched undispatched []
  rw [List.append_nil] at ends
  exact ends

/-! ### Reading the capabilities -/

/-- What the executor advertised when it was asked for its capabilities. -/
def advertised : History → Option Capabilities
  | [] => none
  | ⟨.capabilities, answer⟩ :: _ => answer.toOption
  | _ :: rest => advertised rest

/-- Questions other than the one for the capabilities. -/
def EngineOp.IsBlind : EngineOp → Prop
  | .capabilities => False
  | _ => True

theorem settling_blind {op : EngineOp} (settling : op.IsSettling) : op.IsBlind := by
  cases op <;> simp_all [EngineOp.IsSettling, EngineOp.IsBlind]

theorem blind_ask {op : EngineOp} (blind : op.IsBlind) : (ask op).Only EngineOp.IsBlind :=
  ⟨blind, fun _ => trivial⟩

theorem blind_claim (build : Build) (request : ActionRequest) (actionHash : String)
    (sessionIsolation : SessionIsolation) :
    (claim build request actionHash sessionIsolation).run.Only EngineOp.IsBlind := by
  refine only_try (blind_ask trivial) fun found => ?_
  split
  · split <;> exact trivial
  · refine only_try (only_lift (blind_ask trivial)) fun claimedAtMs => ?_
    exact only_try (blind_ask trivial) fun _ => trivial

theorem advertised_blind {first : History} (blind : ∀ e ∈ first, EngineOp.IsBlind e.op)
    (rest : History) : advertised (first ++ rest) = advertised rest := by
  induction first with
  | nil => rfl
  | cons e first ih =>
    have later : ∀ e' ∈ first, EngineOp.IsBlind e'.op := fun e' member =>
      blind e' (List.mem_cons_of_mem _ member)
    obtain ⟨op, answer⟩ := e
    cases op with
    | capabilities => exact (blind _ List.mem_cons_self).elim
    | _ => exact ih later

theorem advertised_released (history : History) (outcome : Outcome) :
    advertised (history ++ [⟨.release outcome, ()⟩]) = advertised history := by
  induction history with
  | nil => rfl
  | cons e history ih =>
    obtain ⟨op, answer⟩ := e
    cases op with
    | capabilities => rfl
    | _ => exact ih

theorem blind_unadvertised {history : History} (blind : ∀ e ∈ history, EngineOp.IsBlind e.op) :
    advertised history = none := by
  have ends := advertised_blind blind []
  rw [List.append_nil] at ends
  exact ends

namespace Execution

variable (execution : Execution)

theorem blind_emptyReceipt (sessionIsolation : SessionIsolation) :
    (execution.emptyReceipt sessionIsolation).Only EngineOp.IsBlind :=
  only_bind (blind_ask trivial) fun _ => only_bind (blind_ask trivial) fun _ => trivial

theorem blind_checkBoundary : execution.checkBoundary.run.Only EngineOp.IsBlind := by
  refine only_try (only_lift (blind_ask trivial)) fun cancelled => ?_
  cases cancelled with
  | true => exact trivial
  | false =>
    refine only_try (only_lift (blind_ask trivial)) fun t => ?_
    split <;> exact trivial

theorem blind_trajectory (acknowledgement : ActionAck) :
    (trajectory acknowledgement).Only EngineOp.IsBlind :=
  only_bind (blind_ask trivial) fun _ => trivial

theorem blind_resolved (decision : LedgerDecision) :
    (execution.resolved decision).Only EngineOp.IsBlind := by
  cases decision with
  | interrupted => exact only_bind (execution.blind_emptyReceipt _) fun _ => trivial
  | _ => exact trivial

theorem quiet_resolved (decision : LedgerDecision) :
    (execution.resolved decision).Only EngineOp.IsQuiet := by
  cases decision with
  | interrupted => exact only_bind (execution.quiet_emptyReceipt _) fun _ => trivial
  | _ => exact trivial

theorem blind_recovered (claim : ClaimFacts) :
    (execution.recovered claim).run.Only EngineOp.IsBlind := by
  refine only_try (only_lift (execution.blind_emptyReceipt _)) fun receipt => ?_
  refine only_try (only_mono (settling_ask trivial) fun _ => settling_blind) fun decision => ?_
  have finishing (terminal : Terminal) :
      (do
        finish (execution.terminalAck terminal)
        pure ⟨[execution.terminalAck terminal]⟩ : EngineM ExecuteReport).run.Only EngineOp.IsBlind :=
    only_try (only_mono (settling_finish _) fun _ => settling_blind) fun _ => trivial
  cases decision <;> exact finishing _

theorem blind_replay (acknowledgement : ActionAck) :
    (do
      let acknowledgement ← reconcileInterrupted execution.outcomes acknowledgement
      pure ⟨[{ acknowledgement with replayed := true }]⟩ : EngineM ExecuteReport).run.Only
        EngineOp.IsBlind :=
  only_try (only_mono (settling_reconcileInterrupted _ _) fun _ => settling_blind) fun _ => trivial

end Execution

namespace Execution

variable {execution : Execution}

/-! ### The receipt of a dispatch -/

/-- The route a receipt of an unknown outcome names. -/
def derivedRoute (execution : Execution) : DeliveryRoute :=
  requestDeliveryRoute execution.build execution.request.action execution.request.target

theorem emptyReceipt_route {sessionIsolation : SessionIsolation} {history : History}
    {receipt : Receipt}
    (run : Steps (execution.emptyReceipt sessionIsolation) history (.ret receipt)) :
    receipt.deliveryRoute = execution.derivedRoute := by
  replace run := steps_bind.mp run
  obtain ⟨_, startedAtMs, rest, rfl, _, run⟩ := run
  replace run := steps_bind.mp run
  obtain ⟨_, finishedAtMs, rest, rfl, _, run⟩ := run
  obtain ⟨_, rfl⟩ := steps_ret.mp run
  rfl

theorem completedAtBoundary_route {prepared : Prepared} {startedAtMs : Int64}
    {dispatch : DispatchReceipt} {history : History} {terminal : Terminal}
    (run : Steps (execution.completedAtBoundary prepared startedAtMs dispatch) history
      (.ret terminal)) :
    terminal.receipt?.map Receipt.deliveryRoute = some execution.derivedRoute := by
  replace run := steps_bind.mp run
  obtain ⟨_, receipt, rest, rfl, empty, run⟩ := run
  replace run := steps_bind.mp run
  obtain ⟨_, finishedAtMs, rest, rfl, _, run⟩ := run
  replace run := steps_bind.mp run
  obtain ⟨_, contextPreservation, rest, rfl, _, run⟩ := run
  obtain ⟨_, rfl⟩ := steps_ret.mp run
  have route := emptyReceipt_route empty
  exact congrArg some route

theorem failedUnknown_route {prepared : Prepared} {startedAtMs : Int64} {error : DispatchError}
    {history : History} {terminal : Terminal}
    (run : Steps (execution.failedUnknown prepared startedAtMs error) history (.ret terminal)) :
    terminal.receipt?.map Receipt.deliveryRoute = some execution.derivedRoute := by
  replace run := steps_bind.mp run
  obtain ⟨_, receipt, rest, rfl, empty, run⟩ := run
  replace run := steps_bind.mp run
  obtain ⟨_, finishedAtMs, rest, rfl, _, run⟩ := run
  replace run := steps_bind.mp run
  obtain ⟨_, contextPreservation, rest, rfl, _, run⟩ := run
  obtain ⟨_, rfl⟩ := steps_ret.mp run
  have route := emptyReceipt_route empty
  exact congrArg some route

theorem completed_route {prepared : Prepared} {startedAtMs : Int64} {dispatch : DispatchReceipt}
    {history : History} {terminal : Terminal}
    (run : Steps (execution.completed prepared startedAtMs dispatch) history (.ret terminal)) :
    terminal.receipt?.map Receipt.deliveryRoute = some prepared.deliveryRoute := by
  replace run := steps_bind.mp run
  obtain ⟨_, contextPreservation, rest, rfl, _, run⟩ := run
  replace run := steps_bind.mp run
  obtain ⟨_, after, rest, rfl, _, run⟩ := run
  replace run := steps_bind.mp run
  obtain ⟨_, past, rest, rfl, _, run⟩ := run
  replace run := steps_bind.mp run
  obtain ⟨_, finishedAtMs, rest, rfl, _, run⟩ := run
  obtain ⟨_, rfl⟩ := steps_ret.mp run
  unfold completion classify
  simp only
  split <;> rfl

/-- The boundary check is what `stopsAt` reads. -/
theorem pastBoundary_stops {history : History} {past : Bool}
    (run : Steps execution.pastBoundary history (.ret past)) (rest : History) :
    stopsAt execution.deadlineAtMs (history ++ rest) = past := by
  replace run := steps_bind.mp run
  obtain ⟨_, cancelled, after, rfl, asked, run⟩ := run
  obtain rfl := steps_ask.mp asked
  cases cancelled with
  | true =>
    obtain ⟨rfl, rfl⟩ := steps_ret.mp run
    rfl
  | false =>
    replace run := steps_bind.mp run
    obtain ⟨_, t, after, rfl, read, run⟩ := run
    obtain rfl := steps_ask.mp read
    obtain ⟨rfl, rfl⟩ := steps_ret.mp run
    rfl

/-- The routes a terminal of a dispatch may name: the advertised one, or the derived one
if the dispatch was cut short. -/
theorem dispatchAction_route {prepared : Prepared} {history : History} {terminal : Terminal}
    {effect : Bool}
    (run : Steps (execution.dispatchAction prepared) history (.ret (terminal, effect)))
    (rest : History) :
    (cutShort (history ++ rest) = true ∧
      terminal.receipt?.map Receipt.deliveryRoute = some execution.derivedRoute) ∨
    (cutShort (history ++ rest) = false ∧
      (terminal.receipt?.map Receipt.deliveryRoute = some prepared.deliveryRoute ∨
        terminal.receipt? = none)) := by
  replace run := steps_bind.mp run
  obtain ⟨_, startedAtMs, after, rfl, read, run⟩ := run
  obtain rfl := steps_ask.mp read
  replace run := steps_bind.mp run
  obtain ⟨_, answer, after, rfl, dispatched, run⟩ := run
  obtain rfl := steps_ask.mp dispatched
  cases answer with
  | ok dispatch =>
    replace run := steps_bind.mp run
    obtain ⟨checks, past, after, rfl, checked, run⟩ := run
    have stops := pastBoundary_stops checked (after ++ rest)
    rw [← List.append_assoc] at stops
    cases past with
    | true =>
      replace run := steps_bind.mp run
      obtain ⟨first, terminal', _, rfl, completed, run⟩ := run
      obtain ⟨rfl, same⟩ := steps_ret.mp run
      obtain ⟨rfl, rfl⟩ := Prod.mk.inj same
      exact .inl ⟨stops, completedAtBoundary_route completed⟩
    | false =>
      replace run := steps_bind.mp run
      obtain ⟨first, terminal', _, rfl, completed, run⟩ := run
      obtain ⟨rfl, same⟩ := steps_ret.mp run
      obtain ⟨rfl, rfl⟩ := Prod.mk.inj same
      exact .inr ⟨stops, .inl (completed_route completed)⟩
  | error error =>
    by_cases unknown : error.effect = .unknown
    · simp only [settleDispatch, if_pos unknown] at run
      replace run := steps_bind.mp run
      obtain ⟨first, terminal', _, rfl, failed, run⟩ := run
      obtain ⟨rfl, same⟩ := steps_ret.mp run
      obtain ⟨rfl, rfl⟩ := Prod.mk.inj same
      exact .inl ⟨decide_eq_true unknown, failedUnknown_route failed⟩
    · simp only [settleDispatch, if_neg unknown] at run
      replace run := steps_bind.mp run
      obtain ⟨first, terminal', _, rfl, failed, run⟩ := run
      obtain ⟨rfl, same⟩ := steps_ret.mp run
      obtain ⟨rfl, rfl⟩ := Prod.mk.inj same
      have clean := failedWithoutEffect_cases failed
      refine .inr ⟨decide_eq_false unknown, .inr ?_⟩
      cases terminal' with
      | succeeded | outcomeUnknown => contradiction
      | _ => rfl

/-! ### The receipts of a report -/

theorem persistenceUnknown_receipt (terminal : Terminal) :
    (persistenceUnknown terminal).receipt? = terminal.receipt? := by
  cases terminal <;> rfl

theorem finishWithEffect_receipts {terminal : Terminal} {history : History}
    {report : ExecuteReport}
    (run : Steps (execution.finishWithEffect terminal).run history (.ret (.ok report))) :
    report.receipts = terminal.receipt?.toList := by
  replace run := steps_try_ok run
  obtain ⟨first, recorded, rest, rfl, _, run⟩ := run
  replace run := steps_try_ok run
  obtain ⟨second, stored, rest, rfl, finished, run⟩ := run
  obtain ⟨rfl, same⟩ := steps_ret.mp run
  obtain rfl := Except.ok.inj same
  obtain ⟨_, finished, same⟩ := steps_lift.mp finished
  obtain rfl := Except.ok.inj same
  have kept : stored.receipt? = terminal.receipt? := by
    cases recorded with
    | ok =>
      rcases finishAfterEffect_returns finished with rfl | rfl
      · rfl
      · exact persistenceUnknown_receipt terminal
    | error =>
      rcases finishAfterEffect_returns finished with rfl | rfl
      · exact persistenceUnknown_receipt terminal
      · change (persistenceUnknown (persistenceUnknown terminal)).receipt? = _
        rw [persistenceUnknown_idempotent, persistenceUnknown_receipt]
  rw [ExecuteReport.receipts, List.filterMap_cons_none rfl, List.filterMap_cons_none rfl,
    List.filterMap_cons, kept]
  cases terminal.receipt? <;> rfl

theorem finishWithoutEffect_receipts {acknowledgements : List ActionAck} {terminal : Terminal}
    {history : History} {report : ExecuteReport}
    (run : Steps (execution.finishWithoutEffect acknowledgements terminal).run history
      (.ret (.ok report))) (none : acknowledgements.filterMap ActionAck.receipt? = []) :
    report.receipts = terminal.receipt?.toList := by
  replace run := steps_try_ok run
  obtain ⟨first, _, rest, rfl, _, run⟩ := run
  replace run := steps_try_ok run
  obtain ⟨second, _, rest, rfl, _, run⟩ := run
  obtain ⟨rfl, same⟩ := steps_ret.mp run
  obtain rfl := Except.ok.inj same
  have told : (execution.terminalAck terminal).receipt? = terminal.receipt? := rfl
  rw [ExecuteReport.receipts, List.filterMap_append, none, List.nil_append, List.filterMap_cons,
    told]
  cases terminal.receipt? <;> rfl

/-- The capabilities are read once, and the advertised route is taken from them. -/
theorem prepare_route {history : History} {prepared : Prepared}
    (run : Steps execution.prepare.run history (.ret (.ok prepared))) (rest : History) :
    ∃ capabilities capability, advertised (history ++ rest) = some capabilities ∧
      strictActionCapability capabilities execution.request.action = some capability ∧
      prepared.deliveryRoute = capability.deliveryRoute := by
  replace run := steps_try_ok run
  obtain ⟨h₁, _, after, rfl, told, run⟩ := run
  obtain ⟨_, told, _⟩ := steps_lift.mp told
  replace run := steps_try_ok run
  obtain ⟨h₂, _, after, rfl, checked, run⟩ := run
  split at run
  · obtain ⟨_, same⟩ := steps_ret.mp run; contradiction
  replace run := steps_try_ok run
  obtain ⟨h₃, answer, after, rfl, asked, run⟩ := run
  obtain ⟨_, asked, same⟩ := steps_lift.mp asked
  obtain rfl := Except.ok.inj same
  obtain rfl := steps_ask.mp asked
  replace run := steps_try_ok run
  obtain ⟨h₄, _, after, rfl, _, run⟩ := run
  replace run := steps_try_ok run
  obtain ⟨h₅, capabilities, after, rfl, answered, run⟩ := run
  obtain rfl := orFail_ok answered
  -- nothing before asks for the capabilities
  have first : advertised (h₁ ++ (h₂ ++ ([⟨.capabilities, .ok capabilities⟩] ++
      (h₄ ++ (h₅ ++ after)))) ++ rest) = some capabilities := by
    rw [List.append_assoc, advertised_blind (only_steps (blind_trajectory _) told),
      List.append_assoc, advertised_blind (only_steps execution.blind_checkBoundary checked)]
    rfl
  split at run
  · obtain ⟨_, same⟩ := steps_ret.mp run; contradiction
  next capability found =>
  refine ⟨capabilities, capability, first, found, ?_⟩
  split at run
  · obtain ⟨_, same⟩ := steps_ret.mp run; contradiction
  replace run := steps_try_ok run
  obtain ⟨_, _, _, _, _, run⟩ := run
  replace run := steps_try_ok run
  obtain ⟨_, before, _, _, _, run⟩ := run
  replace run := steps_try_ok run
  obtain ⟨_, _, _, _, _, run⟩ := run
  replace run := steps_try_ok run
  obtain ⟨_, resolved, _, _, _, run⟩ := run
  replace run := steps_try_ok run
  obtain ⟨_, _, _, _, _, run⟩ := run
  replace run := steps_try_ok run
  obtain ⟨_, _, _, _, _, run⟩ := run
  replace run := steps_try_ok run
  obtain ⟨_, context, _, _, _, run⟩ := run
  obtain ⟨_, same⟩ := steps_ret.mp run
  obtain rfl := Except.ok.inj same
  rfl

theorem withoutEffect_receipt {terminal : Terminal} (clean : terminal.isWithoutEffect = true) :
    terminal.receipt? = none := by
  cases terminal with
  | succeeded | outcomeUnknown => contradiction
  | _ => rfl

/-- The routes that the receipts of a report name. -/
def Routed (execution : Execution) (history : History) (report : ExecuteReport) : Prop :=
  ∀ capabilities capability, advertised history = some capabilities →
    strictActionCapability capabilities execution.request.action = some capability →
    if cutShort history then report.receipts.map Receipt.deliveryRoute = [execution.derivedRoute]
    else ∀ receipt ∈ report.receipts, receipt.deliveryRoute = capability.deliveryRoute

theorem granted_routed {history : History} {report : ExecuteReport}
    (run : Steps execution.granted.run history (.ret (.ok report))) :
    execution.Routed history report := by
  replace run := steps_try_ok run
  obtain ⟨way, result, rest, rfl, prepared, run⟩ := run
  obtain ⟨_, prepared, same⟩ := steps_lift.mp prepared
  obtain rfl := Except.ok.inj same
  have undispatched : Undispatched way := fun e member =>
    quiet_undispatched (only_steps execution.quiet_prepare prepared e member)
  intro capabilities capability advertised capable
  rw [cutShort_undispatched undispatched]
  cases result with
  | error terminal =>
    have settling := only_steps (settling_finishWithoutEffect _ _) run
    rw [undispatched_notCutShort fun e member => settling_undispatched (settling e member)]
    have none := withoutEffect_receipt (prepare_exits way terminal prepared)
    rw [finishWithoutEffect_receipts run rfl, none]
    simp
  | ok known =>
    obtain ⟨capabilities', capability', advertised', capable', route⟩ := prepare_route prepared rest
    obtain rfl := Option.some.inj (advertised.symm.trans advertised')
    obtain rfl := Option.some.inj (capable.symm.trans capable')
    replace run := steps_try_ok run
    obtain ⟨action, ⟨terminal, effect⟩, after, rfl, dispatched, run⟩ := run
    obtain ⟨_, dispatched, same⟩ := steps_lift.mp dispatched
    obtain rfl := Except.ok.inj same
    have receipts : report.receipts = terminal.receipt?.toList := by
      cases effect with
      | true => exact finishWithEffect_receipts run
      | false => exact finishWithoutEffect_receipts run rfl
    rw [receipts]
    rcases dispatchAction_route dispatched after with ⟨cut, named⟩ | ⟨whole, named⟩
    · rw [cut]
      cases found : terminal.receipt? with
      | none => simp [found] at named
      | some receipt =>
        rw [found] at named
        simpa using named
    · rw [whole]
      rcases named with named | none
      · intro receipt member
        rw [Option.mem_toList] at member
        rw [member, Option.map_some, Option.some.injEq] at named
        rw [named, route]
      · simp [none]

/-- What comes before neither asks for the capabilities nor dispatches. -/
theorem routed_append {first rest : History} {report : ExecuteReport}
    (blind : ∀ e ∈ first, EngineOp.IsBlind e.op) (undispatched : Undispatched first)
    (routed : execution.Routed rest report) : execution.Routed (first ++ rest) report := by
  unfold Routed
  rw [advertised_blind blind, cutShort_undispatched undispatched]
  exact routed

theorem routed_blind {history : History} {report : ExecuteReport}
    (blind : ∀ e ∈ history, EngineOp.IsBlind e.op) : execution.Routed history report := by
  intro capabilities capability advertised
  rw [blind_unadvertised blind] at advertised
  contradiction

theorem claimed_routed {history : History} {report : ExecuteReport}
    (run : Steps execution.claimed.run history (.ret (.ok report))) :
    execution.Routed history report := by
  replace run := steps_try_ok run
  obtain ⟨asking, decision, rest, rfl, begun, run⟩ := run
  obtain rfl := steps_ask.mp begun
  replace run := steps_try_ok run
  obtain ⟨resolving, found, rest, rfl, resolved, run⟩ := run
  obtain ⟨_, resolved, same⟩ := steps_lift.mp resolved
  obtain rfl := Except.ok.inj same
  have asked : ∀ e ∈ [(⟨.begin execution.outcomes execution.key, .ok decision⟩ : Event Engine)],
      EngineOp.IsSettling e.op := by
    intro e member
    obtain rfl := List.mem_singleton.mp member
    exact trivial
  apply routed_append (fun e member => settling_blind (asked e member))
    fun e member => settling_undispatched (asked e member)
  have quiet := only_steps (execution.quiet_resolved decision) resolved
  apply routed_append (only_steps (execution.blind_resolved decision) resolved)
    fun e member => quiet_undispatched (quiet e member)
  cases found with
  | none => exact granted_routed run
  | some terminal =>
    have settling : (do
        finish (execution.terminalAck terminal)
        pure ⟨[execution.accepted, execution.terminalAck terminal]⟩ :
          EngineM ExecuteReport).run.Only EngineOp.IsSettling :=
      only_try (settling_finish _) fun _ => trivial
    exact routed_blind fun e member => settling_blind (only_steps settling run e member)

theorem locked_routed {history : History} {report : ExecuteReport}
    (run : Steps execution.locked.run history (.ret (.ok report))) :
    execution.Routed history report := by
  replace run := steps_try_ok run
  obtain ⟨mending, _, rest, rfl, mended, run⟩ := run
  have mends : repairTail.run.Only EngineOp.IsSettling := settling_ask trivial
  have settling := only_steps mends mended
  apply routed_append (fun e member => settling_blind (settling e member))
    fun e member => settling_undispatched (settling e member)
  replace run := steps_try_ok run
  obtain ⟨claiming, result, rest, rfl, claimed, run⟩ := run
  apply routed_append (only_steps (blind_claim _ _ _ _) claimed)
    (only_steps (undispatched_claim _ _ _ _) claimed)
  cases result with
  | new => exact claimed_routed run
  | recoveredUnknown claim => exact routed_blind (only_steps (execution.blind_recovered claim) run)
  | replay acknowledgement =>
    exact routed_blind (only_steps (execution.blind_replay acknowledgement) run)

end Execution

/-- **Receipts name the advertised route** exactly when the dispatch was not cut short or
the route derived from the action and its target is the advertised one. -/
theorem receipts_name_route_iff {build : Build} {outcomes : Outcomes} {request : ActionRequest}
    {history : History} {report : ExecuteReport} {capabilities : Capabilities}
    {capability : ActionCapability}
    (run : Steps (execute build outcomes request).run history (.ret (.ok report)))
    (told : advertised history = some capabilities)
    (capable : strictActionCapability capabilities request.action = some capability) :
    (∀ receipt ∈ report.receipts, receipt.deliveryRoute = capability.deliveryRoute) ↔
      cutShort history = false ∨
        requestDeliveryRoute build request.action request.target = capability.deliveryRoute := by
  obtain ⟨execution, opening, inside, rfl, ⟨-, rfl, asked⟩, opened, body⟩ := execute_cases run
  obtain rfl := opened.requested
  have blind : ∀ e ∈ opening, EngineOp.IsBlind e.op := by
    intro e member
    have known : e.op ∈ opening.map Event.op := List.mem_map_of_mem member
    rw [asked] at known
    rcases List.mem_cons.mp known with same | known
    · rw [same]; trivial
    rcases List.mem_cons.mp known with same | known
    · rw [same]; trivial
    rcases List.mem_cons.mp known with same | known
    · rw [same]; trivial
    · rw [List.mem_singleton.mp known]; trivial
  have undispatched : Undispatched opening := fun e member => (opened.plain e member).1
  have released : Undispatched
      [⟨.release (.executed execution.key (.ok report)), ()⟩] := by
    intro e member
    obtain rfl := List.mem_singleton.mp member
    exact id
  rw [advertised_blind blind, advertised_released] at told
  have routed := Execution.locked_routed body capabilities capability told capable
  rw [cutShort_undispatched undispatched, cutShort_released]
  cases cut : cutShort inside with
  | false =>
    rw [cut] at routed
    simpa using routed
  | true =>
    rw [cut, if_pos rfl] at routed
    have named (route : DeliveryRoute) : (∀ receipt ∈ report.receipts,
        receipt.deliveryRoute = route) ↔ execution.derivedRoute = route := by
      rw [← List.forall_mem_map (f := Receipt.deliveryRoute) (P := (· = route)), routed]
      simp
    simpa [Execution.derivedRoute] using named capability.deliveryRoute

/-! ### Routes on the bench -/

/-- The report carries a receipt, and each names the route. -/
def ExecuteReport.names (route : DeliveryRoute) (report : ExecuteReport) : Bool :=
  report.receipts ≠ [] && report.receipts.all fun receipt => receipt.deliveryRoute = route

theorem names_receipts {route : DeliveryRoute} {report : ExecuteReport}
    (names : report.names route = true) :
    report.receipts ≠ [] ∧ ∀ receipt ∈ report.receipts, receipt.deliveryRoute = route := by
  simpa [ExecuteReport.names] using names

/-- The bench advertises a targeted press of a button, and reports that route. -/
theorem receipts_name_route_bench :
    ∃ history report,
      Steps (execute (benchBuild .interactive) .null (benchRequest .interactive)).run history
        (.ret (.ok report)) ∧ report.receipts ≠ [] ∧
      ∀ receipt ∈ report.receipts, receipt.deliveryRoute = Bench.capability.deliveryRoute := by
  have facts : ((benchHistory .null .interactive .new).2.1.returned?.any
      (reportsThat (ExecuteReport.names .targetAddressed))) = true ∧
      advertised (benchHistory .null .interactive .new).1 =
        some ⟨["invoke"], [Bench.capability]⟩ ∧
      strictActionCapability ⟨["invoke"], [Bench.capability]⟩ .invoke = some Bench.capability ∧
      cutShort (benchHistory .null .interactive .new).1 = false := by decide +kernel
  obtain ⟨checked, told, capable, whole⟩ := facts
  obtain ⟨report, names, run⟩ := bench_reports checked
  exact ⟨_, report, run, (names_receipts names).1,
    (receipts_name_route_iff run told capable).mpr (.inl whole)⟩

/-- A request to scroll at an element. -/
def scrollRequest : ActionRequest := { benchRequest .interactive with action := .scroll .down 1 }

/-- The digest is the one of what the hash of that request covers. -/
def scrollBuild : Build :=
  ⟨false, fun _ => [255, 140, 83, 207, 233, 242, 146, 78, 180, 76, 86, 40, 17, 153, 125, 134, 111,
    14, 166, 155, 151, 70, 177, 208, 83, 28, 39, 188, 109, 34, 154, 170]⟩

def scrollCapability : ActionCapability := ⟨"scroll", .pointer, .unavailable⟩

/-- An executor that scrolls with the pointer and does not know whether it did. -/
def scrollRespond : (op : EngineOp) → Bench → op.Answer × Bench
  | .capabilities, bench => (.ok ⟨["scroll"], [scrollCapability]⟩, bench)
  | .dispatch .., bench => (.error ⟨"scroll failed", .unknown, .dispatchFailed⟩, bench)
  | op, bench => Bench.respond 0 op bench

/-- The receipt names the target as the route, and the capability the pointer. -/
theorem receipts_misname_route :
    ∃ history report,
      Steps (execute scrollBuild .null scrollRequest).run history (.ret (.ok report)) ∧
      advertised history = some ⟨["scroll"], [scrollCapability]⟩ ∧
      strictActionCapability ⟨["scroll"], [scrollCapability]⟩ scrollRequest.action =
        some scrollCapability ∧
      report.receipts ≠ [] ∧ (∀ receipt ∈ report.receipts,
        receipt.deliveryRoute = .targetAddressed) ∧
      scrollCapability.deliveryRoute = .pointer := by
  have facts : ((play scrollRespond 100 (execute scrollBuild .null scrollRequest).run
      .new).2.1.returned?.any (reportsThat
        (ExecuteReport.names .targetAddressed))) = true ∧
      advertised (play scrollRespond 100 (execute scrollBuild .null scrollRequest).run .new).1 =
        some ⟨["scroll"], [scrollCapability]⟩ ∧
      strictActionCapability ⟨["scroll"], [scrollCapability]⟩ scrollRequest.action =
        some scrollCapability := by decide +kernel
  obtain ⟨checked, told, capable⟩ := facts
  obtain ⟨result, checked, run⟩ := steps_returned checked
  cases result with
  | ok report =>
    obtain ⟨filled, named⟩ := names_receipts checked
    exact ⟨_, report, run, told, capable, filled, named, rfl⟩
  | error => exact absurd checked Bool.false_ne_true

end Praefectus
