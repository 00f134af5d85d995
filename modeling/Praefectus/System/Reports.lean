import Praefectus.Engine.Routes
import Praefectus.Program.Contracts
import Praefectus.System.Agreement

/-!
# What an execution reports

The reports of executions have one form, whichever way they came about: fresh, early,
resolved by the host, recovered or replayed. What they say of the ledger holds of it.
-/

namespace Praefectus

open Prog

/-! ### What a call has seen of the ledger -/

/-- What a call has read of the ledger, and whether its last append succeeded, since it took
the lock. -/
structure LedgerView where
  read : Option (List LedgerRecord)
  appended : Option Bool

namespace LedgerView

def unseen : LedgerView := ⟨none, none⟩

def learn (view : LedgerView) : Event Engine → LedgerView
  | ⟨.lock _, .ok ()⟩ => unseen
  | ⟨.ledger .records, .ok records⟩ => { view with read := some records }
  | ⟨.ledger (.append _), ans⟩ => { view with appended := some ans.isOk }
  | _ => view

/-- The call found a terminal of the operation. -/
def Found (view : LedgerView) (operationId : String) : Prop :=
  ∃ records acknowledgement, view.read = some records ∧
    (scan operationId records).2 = some acknowledgement

end LedgerView

/-- What the call has seen of the ledger by the end of a log. -/
def viewOf {Id : Type} [DecidableEq Id] (id : Id) (log : Log Id) : LedgerView :=
  (historyOf id log).foldl LedgerView.learn .unseen

/-! ### Reports -/

/-- The receipt of a terminal, if there is one, names the action hash. -/
def Terminal.Names (terminal : Terminal) (actionHash : String) : Prop :=
  ∀ receipt, terminal.receipt? = some receipt → receipt.actionHash = actionHash

/-- A terminal acknowledgement, with the receipt of its own action. -/
def ActionAck.Proper (acknowledgement : ActionAck) : Prop :=
  ∃ terminal, acknowledgement.state = .terminal terminal ∧ terminal.Names acknowledgement.actionHash

def ActionAck.isTerminal (acknowledgement : ActionAck) : Bool :=
  match acknowledgement.state with
  | .terminal _ => true
  | _ => false

/-- The form of a report on a key, by a call that has seen this of the ledger. -/
structure ExecuteReport.Formed (report : ExecuteReport) (key : OutcomeKey) (view : LedgerView) :
    Prop where
  terminal : ∃ before last, report.acknowledgements = before ++ [last] ∧ last.isTerminal = true ∧
    ∀ acknowledgement ∈ before, acknowledgement.isTerminal = false
  ordered : report.acknowledgements.Pairwise fun a b => a.sequence < b.sequence
  named : ∀ acknowledgement ∈ report.acknowledgements, acknowledgement.key = key
  replayed : ∀ acknowledgement ∈ report.acknowledgements, acknowledgement.replayed = true ↔
    report.acknowledgements.length = 1 ∧ view.Found key.operationId
  receipts : ∀ acknowledgement ∈ report.acknowledgements, ∀ receipt,
    acknowledgement.receipt? = some receipt → receipt.actionHash = key.actionHash

/-! ### The contract -/

/-- What is stored or recorded names its action, and what is reported has the form. The
ledger and the host are relied on for the same. -/
def bookkeeping : Contract Engine LedgerView where
  learn := LedgerView.learn
  allows view
    | .record _ key terminal => terminal.Names key.actionHash
    | .ledger (.append (.terminal acknowledgement)) => acknowledgement.Proper
    | .release (.executed key (.ok report)) => report.Formed key view
    | _ => True
  relies _
    | ⟨.begin _ key, .ok (.recorded terminal)⟩ => terminal.Names key.actionHash
    | ⟨.ledger .records, .ok records⟩ => Consistent records ∧
      ∀ acknowledgement, .terminal acknowledgement ∈ records → acknowledgement.Proper
    | _ => True

theorem look_allowed {view : LedgerView} {op : EngineOp} (look : op.IsLook) :
    bookkeeping.allows view op := by
  cases op <;> first | exact look.elim | exact trivial

theorem look_learned {view : LedgerView} {op : EngineOp} (ans : op.Answer) (look : op.IsLook) :
    bookkeeping.learn view ⟨op, ans⟩ = view := by
  cases op <;> first | exact look.elim | rfl

/-- Programs that only look leave the view as it is. -/
theorem honours_look {α : Type} {view : LedgerView} {p : Prog Engine α}
    (only : p.Only EngineOp.IsLook) :
    p.Honours bookkeeping (fun value view' => view' = view ∧ ∃ trace, Steps p trace (.ret value))
      view :=
  honours_returned (fun _ look => look_allowed look) (fun _ ans look => look_learned ans look) only

theorem honours_trajectory {view : LedgerView} (acknowledgement : ActionAck) :
    (monadLift (trajectory acknowledgement) : EngineM Unit).run.Honours bookkeeping
      (fun _ view' => view'.read = view.read) view := by
  rw [run_monadLift]
  refine honours_bind (honours_mono (honours_look (look_trajectory acknowledgement)) ?_)
  rintro _ _ ⟨rfl, _⟩
  rfl

/-- Storing an acknowledgement leaves what was read as it is. -/
theorem honours_finish {view : LedgerView} {acknowledgement : ActionAck}
    (proper : acknowledgement.Proper) :
    (finish acknowledgement).run.Honours bookkeeping (fun _ view' => view'.read = view.read)
      view := by
  refine honours_try ⟨proper, fun ans _ => ?_⟩
  cases ans with
  | error e => rfl
  | ok => exact honours_mono (honours_trajectory acknowledgement) fun _ _ same => same

theorem names_persistenceUnknown {terminal : Terminal} {actionHash : String}
    (names : terminal.Names actionHash) : (persistenceUnknown terminal).Names actionHash := by
  intro receipt found
  rw [Execution.persistenceUnknown_receipt] at found
  exact names receipt found

theorem names_withoutEffect {terminal : Terminal} {actionHash : String}
    (clean : terminal.isWithoutEffect = true) : terminal.Names actionHash := by
  intro receipt found
  rw [Execution.withoutEffect_receipt clean] at found
  contradiction

namespace Execution

variable {execution : Execution} {view : LedgerView}

theorem proper_terminalAck {terminal : Terminal} (names : terminal.Names execution.actionHash) :
    (execution.terminalAck terminal).Proper :=
  ⟨terminal, rfl, names⟩

/-- What a report may list before the terminal. -/
def Precedes (execution : Execution) (acknowledgements : List ActionAck) : Prop :=
  acknowledgements = [] ∨ acknowledgements = [execution.accepted] ∨
    acknowledgements = [execution.accepted, execution.executing]

/-- A report of a call that found no terminal. -/
theorem formed_unfound {acknowledgements : List ActionAck} {terminal : Terminal}
    (precedes : execution.Precedes acknowledgements) (names : terminal.Names execution.actionHash)
    (unfound : ¬ view.Found execution.key.operationId) :
    (ExecuteReport.mk (acknowledgements ++ [execution.terminalAck terminal])).Formed execution.key
      view := by
  have last : ∀ receipt, (execution.terminalAck terminal).receipt? = some receipt →
      receipt.actionHash = execution.actionHash := names
  constructor
  · refine ⟨acknowledgements, execution.terminalAck terminal, rfl, rfl, ?_⟩
    rcases precedes with rfl | rfl | rfl <;> simp [accepted, executing, ack, ActionAck.isTerminal]
  · rcases precedes with rfl | rfl | rfl <;>
      simp [accepted, executing, terminalAck, Praefectus.terminalAck, ack]
  · rcases precedes with rfl | rfl | rfl <;>
      simp [accepted, executing, terminalAck, Praefectus.terminalAck, ack, ActionAck.key, key]
  · rcases precedes with rfl | rfl | rfl <;>
      simp [accepted, executing, terminalAck, Praefectus.terminalAck, ack, unfound]
  · intro acknowledgement member receipt found
    rcases List.mem_append.mp member with member | member
    · rcases precedes with rfl | rfl | rfl <;> simp at member
      · subst member
        contradiction
      · rcases member with rfl | rfl <;> contradiction
    · obtain rfl := List.mem_singleton.mp member
      exact last receipt found

/-! ### The receipts of an execution -/

theorem emptyReceipt_hash {sessionIsolation : SessionIsolation} {history : History}
    {receipt : Receipt}
    (run : Steps (execution.emptyReceipt sessionIsolation) history (.ret receipt)) :
    receipt.actionHash = execution.actionHash := by
  replace run := steps_bind.mp run
  obtain ⟨_, startedAtMs, rest, rfl, _, run⟩ := run
  replace run := steps_bind.mp run
  obtain ⟨_, finishedAtMs, rest, rfl, _, run⟩ := run
  obtain ⟨_, rfl⟩ := steps_ret.mp run
  rfl

theorem names_receipt {receipt : Receipt} {terminal : Terminal}
    (only : terminal.receipt? = some receipt) (hash : receipt.actionHash = execution.actionHash) :
    terminal.Names execution.actionHash := by
  intro other found
  obtain rfl := Option.some.inj (only.symm.trans found)
  exact hash

theorem completedAtBoundary_names {prepared : Prepared} {startedAtMs : Int64}
    {dispatch : DispatchReceipt} {history : History} {terminal : Terminal}
    (run : Steps (execution.completedAtBoundary prepared startedAtMs dispatch) history
      (.ret terminal)) : terminal.Names execution.actionHash := by
  replace run := steps_bind.mp run
  obtain ⟨_, receipt, rest, rfl, empty, run⟩ := run
  replace run := steps_bind.mp run
  obtain ⟨_, finishedAtMs, rest, rfl, _, run⟩ := run
  replace run := steps_bind.mp run
  obtain ⟨_, contextPreservation, rest, rfl, _, run⟩ := run
  obtain ⟨_, rfl⟩ := steps_ret.mp run
  have hash := emptyReceipt_hash empty
  exact names_receipt rfl hash

theorem completed_names {prepared : Prepared} {startedAtMs : Int64} {dispatch : DispatchReceipt}
    {history : History} {terminal : Terminal}
    (run : Steps (execution.completed prepared startedAtMs dispatch) history (.ret terminal)) :
    terminal.Names execution.actionHash := by
  replace run := steps_bind.mp run
  obtain ⟨_, contextPreservation, rest, rfl, _, run⟩ := run
  replace run := steps_bind.mp run
  obtain ⟨_, after, rest, rfl, _, run⟩ := run
  replace run := steps_bind.mp run
  obtain ⟨_, past, rest, rfl, _, run⟩ := run
  replace run := steps_bind.mp run
  obtain ⟨_, finishedAtMs, rest, rfl, _, run⟩ := run
  obtain ⟨_, rfl⟩ := steps_ret.mp run
  unfold completion
  dsimp only
  rcases execution.classify_cases _ _ with ⟨same, _⟩ | ⟨_, same⟩ <;>
    exact names_receipt (congrArg Terminal.receipt? same) rfl

theorem failedUnknown_names {prepared : Prepared} {startedAtMs : Int64} {error : DispatchError}
    {history : History} {terminal : Terminal}
    (run : Steps (execution.failedUnknown prepared startedAtMs error) history (.ret terminal)) :
    terminal.Names execution.actionHash := by
  replace run := steps_bind.mp run
  obtain ⟨_, receipt, rest, rfl, empty, run⟩ := run
  replace run := steps_bind.mp run
  obtain ⟨_, finishedAtMs, rest, rfl, _, run⟩ := run
  replace run := steps_bind.mp run
  obtain ⟨_, contextPreservation, rest, rfl, _, run⟩ := run
  obtain ⟨_, rfl⟩ := steps_ret.mp run
  have hash := emptyReceipt_hash empty
  exact names_receipt rfl hash

theorem settleDispatch_names {prepared : Prepared} {startedAtMs : Int64}
    {answer : Except DispatchError DispatchReceipt} {history : History} {terminal : Terminal}
    {effect : Bool}
    (run : Steps (execution.settleDispatch prepared startedAtMs answer) history
      (.ret (terminal, effect))) : terminal.Names execution.actionHash := by
  cases answer with
  | ok dispatch =>
    replace run := steps_bind.mp run
    obtain ⟨_, past, rest, rfl, _, run⟩ := run
    cases past with
    | true =>
      replace run := steps_bind.mp run
      obtain ⟨_, settled, rest, rfl, completed, run⟩ := run
      obtain ⟨_, same⟩ := steps_ret.mp run
      cases same
      exact completedAtBoundary_names completed
    | false =>
      replace run := steps_bind.mp run
      obtain ⟨_, settled, rest, rfl, completed, run⟩ := run
      obtain ⟨_, same⟩ := steps_ret.mp run
      cases same
      exact completed_names completed
  | error error =>
    by_cases unknown : error.effect = .unknown
    · simp only [settleDispatch, if_pos unknown] at run
      replace run := steps_bind.mp run
      obtain ⟨_, settled, rest, rfl, failed, run⟩ := run
      obtain ⟨_, same⟩ := steps_ret.mp run
      cases same
      exact failedUnknown_names failed
    · simp only [settleDispatch, if_neg unknown] at run
      replace run := steps_bind.mp run
      obtain ⟨_, settled, rest, rfl, failed, run⟩ := run
      obtain ⟨_, same⟩ := steps_ret.mp run
      cases same
      exact names_withoutEffect (failedWithoutEffect_cases failed)

/-! ### The parts of an execution -/

/-- What is reported has the form. -/
def Forms (execution : Execution) (result : Except ProtocolError ExecuteReport)
    (view : LedgerView) : Prop :=
  ∀ report, result = .ok report → report.Formed execution.key view

theorem forms_error {e : ProtocolError} : execution.Forms (.error e) view := nofun

theorem forms_ok {report : ExecuteReport} (formed : report.Formed execution.key view) :
    execution.Forms (.ok report) view :=
  fun _ same => Except.ok.inj same ▸ formed

theorem unfound_of_read {view' : LedgerView} (same : view'.read = view.read)
    {operationId : String} (unfound : ¬ view.Found operationId) : ¬ view'.Found operationId := by
  rintro ⟨records, acknowledgement, read, found⟩
  exact unfound ⟨records, acknowledgement, same.symm.trans read, found⟩

theorem forms_unfound {acknowledgements : List ActionAck} {terminal : Terminal}
    (precedes : execution.Precedes acknowledgements) (names : terminal.Names execution.actionHash)
    (unfound : ¬ view.Found execution.key.operationId) :
    execution.Forms (.ok ⟨acknowledgements ++ [execution.terminalAck terminal]⟩) view :=
  forms_ok (formed_unfound precedes names unfound)

/-- Storing a terminal and reporting it. -/
theorem honours_settled {acknowledgements : List ActionAck} {terminal : Terminal}
    (precedes : execution.Precedes acknowledgements) (names : terminal.Names execution.actionHash)
    (unfound : ¬ view.Found execution.key.operationId) :
    (do
      finish (execution.terminalAck terminal)
      pure ⟨acknowledgements ++ [execution.terminalAck terminal]⟩ :
        EngineM ExecuteReport).run.Honours bookkeeping execution.Forms view := by
  refine honours_try (honours_mono (honours_finish (proper_terminalAck names)) ?_)
  intro result view' same
  cases result with
  | error e => exact forms_error
  | ok => exact forms_unfound precedes names (unfound_of_read same unfound)

theorem honours_finishWithoutEffect {acknowledgements : List ActionAck} {terminal : Terminal}
    (precedes : execution.Precedes acknowledgements) (names : terminal.Names execution.actionHash)
    (unfound : ¬ view.Found execution.key.operationId) :
    (execution.finishWithoutEffect acknowledgements terminal).run.Honours bookkeeping
      execution.Forms view := by
  refine honours_try ⟨names, fun ans _ => ?_⟩
  cases ans with
  | error e => exact forms_error
  | ok => exact honours_settled precedes names unfound

theorem honours_finishAfterEffect {terminal : Terminal}
    (names : terminal.Names execution.actionHash) :
    (finishAfterEffect (execution.terminalAck terminal)).Honours bookkeeping
      (fun told view' => view'.read = view.read ∧ ∃ terminal' : Terminal,
        told = execution.terminalAck terminal' ∧ terminal'.Names execution.actionHash) view := by
  refine honours_bind (honours_mono (honours_finish (proper_terminalAck names)) ?_)
  intro stored view' same
  cases stored with
  | ok => exact ⟨same, terminal, rfl, names⟩
  | error e =>
    have unknown := names_persistenceUnknown names
    have told : persistenceUnknownAck (execution.terminalAck terminal) =
        execution.terminalAck (persistenceUnknown terminal) := rfl
    -- a repair that fails ends the second try
    have again : (do repairTail; finish (persistenceUnknownAck (execution.terminalAck terminal)) :
        EngineM Unit).run.Honours bookkeeping (fun _ view'' => view''.read = view'.read) view' := by
      refine honours_try ⟨trivial, fun ans _ => ?_⟩
      cases ans with
      | error e => rfl
      | ok => exact honours_finish (told ▸ proper_terminalAck unknown)
    refine honours_bind (honours_mono again fun _ view'' same' => ?_)
    exact ⟨same'.trans same, _, told, unknown⟩

theorem honours_finishWithEffect {terminal : Terminal}
    (names : terminal.Names execution.actionHash)
    (unfound : ¬ view.Found execution.key.operationId) :
    (execution.finishWithEffect terminal).run.Honours bookkeeping execution.Forms view := by
  have told {terminal : Terminal} (names : terminal.Names execution.actionHash) :
      (do
        let acknowledgement ← finishAfterEffect (execution.terminalAck terminal)
        pure ⟨[execution.accepted, execution.executing, acknowledgement]⟩ :
          EngineM ExecuteReport).run.Honours bookkeeping execution.Forms view := by
    refine honours_try ?_
    rw [run_monadLift]
    refine honours_bind (honours_mono (honours_finishAfterEffect names) ?_)
    rintro _ view' ⟨same, terminal', rfl, names'⟩
    exact forms_unfound (.inr (.inr rfl)) names' (unfound_of_read same unfound)
  refine honours_try ⟨names, fun ans _ => ?_⟩
  cases ans with
  | ok => exact told names
  | error e => exact told (names_persistenceUnknown names)

theorem honours_granted (unfound : ¬ view.Found execution.key.operationId) :
    execution.granted.run.Honours bookkeeping execution.Forms view := by
  refine honours_try ?_
  rw [run_monadLift]
  refine honours_bind (honours_mono
    (honours_look (only_mono execution.quiet_prepare fun _ => quiet_look)) ?_)
  rintro prepared _ ⟨rfl, trace, run⟩
  cases prepared with
  | error terminal =>
    exact honours_finishWithoutEffect (.inr (.inl rfl))
      (names_withoutEffect (prepare_exits trace terminal run)) unfound
  | ok prepared =>
    refine honours_try ?_
    rw [run_monadLift]
    refine honours_bind (honours_bind (honours_mono
      (honours_look (look_ask trivial : (now).Only EngineOp.IsLook)) ?_))
    rintro startedAtMs _ ⟨rfl, _⟩
    refine ⟨trivial, fun answer _ => ?_⟩
    refine honours_mono (honours_look (only_mono
      (execution.quiet_settleDispatch prepared startedAtMs answer) fun _ => quiet_look)) ?_
    rintro ⟨terminal, effect⟩ _ ⟨rfl, trace', run'⟩
    have names := settleDispatch_names run'
    cases effect with
    | true => exact honours_finishWithEffect names unfound
    | false => exact honours_finishWithoutEffect (.inr (.inr rfl)) names unfound

/-- The outcome of an operation that was interrupted names its action. -/
theorem interrupted_names {receipt : Receipt} {message : String}
    (hash : receipt.actionHash = execution.actionHash) :
    (Terminal.outcomeUnknown receipt message).Names execution.actionHash :=
  names_receipt rfl hash

theorem honours_claimed (unfound : ¬ view.Found execution.key.operationId) :
    execution.claimed.run.Honours bookkeeping execution.Forms view := by
  refine honours_try ⟨trivial, fun ans relied => ?_⟩
  cases ans with
  | error e => exact forms_error
  | ok decision =>
    have settles {view' : LedgerView} {terminal : Terminal}
        (names : terminal.Names execution.actionHash)
        (unfound : ¬ view'.Found execution.key.operationId) :=
      honours_settled (.inr (.inl rfl)) names unfound
    refine honours_try ?_
    rw [run_monadLift]
    cases decision with
    | dispatch => exact honours_granted unfound
    | recorded terminal => exact settles relied unfound
    | interrupted =>
      refine honours_bind (honours_bind (honours_mono
        (honours_look (look_emptyReceipt execution execution.sessionIsolation)) ?_))
      rintro receipt _ ⟨rfl, trace, run⟩
      exact settles (interrupted_names (emptyReceipt_hash run)) unfound

theorem honours_recovered (claim : ClaimFacts) (unfound : ¬ view.Found execution.key.operationId) :
    (execution.recovered claim).run.Honours bookkeeping execution.Forms view := by
  refine honours_try ?_
  rw [run_monadLift]
  refine honours_bind (honours_mono
    (honours_look (look_emptyReceipt execution (claim.sessionIsolation.getD .unknown))) ?_)
  rintro receipt _ ⟨rfl, trace, run⟩
  have hash := emptyReceipt_hash run
  refine honours_try ⟨trivial, fun ans relied => ?_⟩
  cases ans with
  | error e => exact forms_error
  | ok decision =>
    cases decision with
    | recorded terminal => exact honours_settled (.inl rfl) relied unfound
    | dispatch | interrupted =>
      have names : (Terminal.outcomeUnknown (recoveredReceipt claim receipt)
          interruptedOutcomeMessage).Names execution.actionHash := interrupted_names hash
      exact honours_settled (.inl rfl) names unfound

end Execution

/-! ### Replays -/

/-- What is told in place of an acknowledgement has its key, and nothing more was read. -/
def Reconciled (acknowledgement : ActionAck) (view : LedgerView)
    (result : Except ProtocolError ActionAck) (view' : LedgerView) : Prop :=
  view'.read = view.read ∧
    ∀ told, result = .ok told → told.Proper ∧ told.key = acknowledgement.key

theorem reconciled_error {acknowledgement : ActionAck} {view view' : LedgerView}
    {e : ProtocolError} (same : view'.read = view.read) :
    Reconciled acknowledgement view (.error e) view' :=
  ⟨same, fun _ told => by cases told⟩

theorem reconciled_ok {acknowledgement told : ActionAck} {view view' : LedgerView}
    (same : view'.read = view.read) (proper : told.Proper) (key : told.key = acknowledgement.key) :
    Reconciled acknowledgement view (.ok told) view' :=
  ⟨same, fun _ found => Except.ok.inj found ▸ ⟨proper, key⟩⟩

/-- An interrupted outcome that gives way keeps its key. -/
theorem honours_reconcileInterrupted {view : LedgerView} {outcomes : Outcomes}
    {acknowledgement : ActionAck} (proper : acknowledgement.Proper) :
    (reconcileInterrupted outcomes acknowledgement).run.Honours bookkeeping
      (Reconciled acknowledgement view) view := by
  unfold reconcileInterrupted
  cases acknowledgement.isInterrupted with
  | false => exact reconciled_ok rfl proper rfl
  | true =>
    refine honours_try ⟨trivial, fun ans relied => ?_⟩
    cases ans with
    | error e => exact reconciled_error rfl
    | ok decision =>
      cases decision with
      | dispatch | interrupted => exact reconciled_ok rfl proper rfl
      | recorded terminal =>
        have recorded : { acknowledgement with state := .terminal terminal : ActionAck }.Proper :=
          ⟨terminal, rfl, relied⟩
        refine honours_try (honours_mono (honours_finish recorded) ?_)
        intro result view' same
        cases result with
        | error e => exact reconciled_error same
        | ok => exact reconciled_ok same recorded rfl

/-- What a call may find out about its operation as it claims it. -/
def ClaimResult.Seen (key : OutcomeKey) (view : LedgerView) : ClaimResult → Prop
  | .replay acknowledgement =>
    view.Found key.operationId ∧ acknowledgement.key = key ∧ acknowledgement.Proper
  | .recoveredUnknown _ | .new => ¬ view.Found key.operationId

def ClaimResult.Tells (key : OutcomeKey) (result : Except ProtocolError ClaimResult)
    (view : LedgerView) : Prop :=
  ∀ found, result = .ok found → found.Seen key view

theorem tells_error {key : OutcomeKey} {e : ProtocolError} {view : LedgerView} :
    ClaimResult.Tells key (.error e) view := fun _ told => by cases told

theorem tells_ok {key : OutcomeKey} {found : ClaimResult} {view : LedgerView}
    (seen : found.Seen key view) : ClaimResult.Tells key (.ok found) view :=
  fun _ same => Except.ok.inj same ▸ seen

/-- In a consistent ledger, a terminal of an operation has the key of its claim. -/
theorem claim_settles {records : List LedgerRecord} (consistent : Consistent records)
    {operationId : String} {claim : ClaimFacts} {acknowledgement : ActionAck}
    (claimed : (scan operationId records).1 = some claim)
    (settled : (scan operationId records).2 = some acknowledgement) :
    acknowledgement.key = ⟨operationId, claim.actionHash⟩ := by
  obtain ⟨record, member, claims⟩ := scan_claim_some claimed
  obtain ⟨record', member', claims'⟩ := terminal_claimed consistent (scan_terminal_mem settled)
  exact claims_unique consistent member' member claims' claims (scan_terminal_some.mp settled).1

theorem honours_claim {view : LedgerView} {build : Build} {request : ActionRequest}
    {actionHash : String} {sessionIsolation : SessionIsolation} :
    (claim build request actionHash sessionIsolation).run.Honours bookkeeping
      (ClaimResult.Tells ⟨request.operationId, actionHash⟩) view := by
  refine honours_try ⟨trivial, fun ans relied => ?_⟩
  cases ans with
  | error e => exact tells_error
  | ok records =>
    obtain ⟨consistent, proper⟩ := relied
    rcases scanned : scan request.operationId records with ⟨_ | existing, terminal⟩
    · -- without a claim there is no terminal
      have unfound {view' : LedgerView} (read : view'.read = some records) :
          ¬ view'.Found request.operationId := by
        rintro ⟨records', acknowledgement, read', found⟩
        obtain rfl := Option.some.inj (read.symm.trans read')
        have none := unclaimed_unsettled consistent (congrArg Prod.fst scanned)
        exact Option.some_ne_none _ (found.symm.trans (scan_terminal_none.mpr none))
      refine honours_ret ?_
      dsimp only
      rw [scanned]
      refine honours_try ⟨trivial, fun claimedAtMs _ => ?_⟩
      refine honours_try ⟨trivial, fun ans _ => ?_⟩
      cases ans with
      | error e => exact tells_error
      | ok => exact tells_ok (unfound rfl)
    · refine honours_ret ?_
      dsimp only
      rw [scanned]
      dsimp only
      by_cases same : existing.actionHash = actionHash
      · rw [if_neg (not_not.mpr same)]
        cases terminal with
        | none =>
          refine tells_ok ?_
          rintro ⟨records', acknowledgement, read, found⟩
          obtain rfl := Option.some.inj read
          rw [scanned] at found
          contradiction
        | some acknowledgement =>
          have settled : (scan request.operationId records).2 = some acknowledgement := by
            rw [scanned]
          have key := claim_settles consistent (congrArg Prod.fst scanned) settled
          rw [same] at key
          exact tells_ok ⟨⟨records, acknowledgement, rfl, settled⟩, key,
            proper _ (scan_terminal_mem settled)⟩
      · rw [if_pos same]
        exact tells_error

namespace Execution

variable {execution : Execution} {view : LedgerView}

/-- A report of a call that found a terminal. -/
theorem formed_replay {acknowledgement : ActionAck} (proper : acknowledgement.Proper)
    (key : acknowledgement.key = execution.key) (found : view.Found execution.key.operationId) :
    (ExecuteReport.mk [{ acknowledgement with replayed := true }]).Formed execution.key view := by
  obtain ⟨terminal, state, names⟩ := proper
  have hash : acknowledgement.actionHash = execution.key.actionHash :=
    congrArg OutcomeKey.actionHash key
  constructor
  · refine ⟨[], _, rfl, ?_, fun _ member => absurd member List.not_mem_nil⟩
    simp only [ActionAck.isTerminal, state]
  · exact List.pairwise_singleton _ _
  · intro other member
    obtain rfl := List.mem_singleton.mp member
    exact key
  · intro other member
    obtain rfl := List.mem_singleton.mp member
    exact ⟨fun _ => ⟨rfl, found⟩, fun _ => rfl⟩
  · intro other member receipt has
    obtain rfl := List.mem_singleton.mp member
    simp only [ActionAck.receipt?, state] at has
    exact (names receipt has).trans hash

theorem honours_locked : execution.locked.run.Honours bookkeeping execution.Forms view := by
  refine honours_try ⟨trivial, fun ans _ => ?_⟩
  cases ans with
  | error e => exact forms_error
  | ok =>
    refine honours_try (honours_mono honours_claim fun result view' seen => ?_)
    cases result with
    | error e => exact forms_error
    | ok found =>
      replace seen := seen found rfl
      cases found with
      | new => exact honours_claimed seen
      | recoveredUnknown claim => exact honours_recovered claim seen
      | replay acknowledgement =>
        obtain ⟨found, key, proper⟩ := seen
        refine honours_try (honours_mono (honours_reconcileInterrupted proper) ?_)
        rintro result view'' ⟨same, told⟩
        cases result with
        | error e => exact forms_error
        | ok acknowledgement' =>
          obtain ⟨proper', key'⟩ := told acknowledgement' rfl
          obtain ⟨records, old, read, scanned⟩ := found
          exact forms_ok (formed_replay proper' (key'.trans key)
            ⟨records, old, same.trans read, scanned⟩)

end Execution

/-! ### Whole calls -/

theorem honours_releasing {α : Type} {outcome : Except ProtocolError α → Outcome}
    {body : EngineM α} {view : LedgerView}
    (honours : body.run.Honours bookkeeping
      (fun result view' => bookkeeping.allows view' (.release (outcome result))) view) :
    (releasing outcome body).run.Honours bookkeeping (fun _ _ => True) view := by
  refine honours_bind (honours_mono honours fun result view' allowed => ?_)
  exact ⟨allowed, fun _ _ => trivial⟩

theorem forms_allowed {execution : Execution} {result : Except ProtocolError ExecuteReport}
    {view : LedgerView} (forms : execution.Forms result view) :
    bookkeeping.allows view (.release (.executed execution.key result)) := by
  cases result with
  | error e => trivial
  | ok report => exact forms report rfl

theorem honours_execute (build : Build) (outcomes : Outcomes) (request : ActionRequest)
    (view : LedgerView) : (execute build outcomes request).run.Honours bookkeeping
      (fun _ _ => True) view := by
  -- what is asked before the lock is taken only looks
  have looks {α β : Type} {view : LedgerView} {p : Prog Engine α} {f : α → EngineM β}
      (only : p.Only EngineOp.IsLook)
      (rest : ∀ value, (f value).run.Honours bookkeeping (fun _ _ => True) view) :
      ((monadLift p : EngineM α) >>= f).run.Honours bookkeeping (fun _ _ => True) view :=
    honours_after (fun _ look => look_allowed look) (fun _ ans look => look_learned ans look) only rest
  refine looks (look_ask trivial : (ask .directories).Only EngineOp.IsLook) fun isDir => ?_
  refine honours_try (honours_ret ?_)
  cases validateRequest build isDir request with
  | error e => trivial
  | ok =>
    refine honours_try (honours_ret ?_)
    cases normalizedActionHash build request with
    | error e => trivial
    | ok actionHash =>
      refine honours_try ⟨trivial, fun ans _ => ?_⟩
      cases ans with
      | error e => trivial
      | ok authority =>
        refine looks (look_ask trivial : (ask .sessionIsolation).Only EngineOp.IsLook) fun isolation => ?_
        refine honours_try ⟨trivial, fun ans _ => ?_⟩
        cases ans with
        | error e => trivial
        | ok =>
          exact honours_releasing (honours_mono (@Execution.honours_locked ⟨build, outcomes, request,
            actionHash, isolation, min request.deadlineAtMs authority.expiresAtMs⟩ _)
            fun _ _ forms => forms_allowed forms)

theorem honours_executeBatch (build : Build) (outcomes : Outcomes) (requests : List ActionRequest)
    (view : LedgerView) :
    (executeBatch build outcomes requests).Honours bookkeeping (fun _ _ => True) view := by
  induction requests generalizing view with
  | nil => trivial
  | cons request requests ih =>
    refine honours_bind (honours_mono (honours_execute build outcomes request view) ?_)
    intro result view' _
    split
    · exact honours_bind (honours_mono (ih view') fun _ _ _ => trivial)
    · trivial

theorem proper_interrupted (operationId : String) (claim : ClaimFacts) (finishedAtMs : Int64) :
    (generateInterruptedAck operationId claim finishedAtMs).Proper := by
  refine ⟨_, rfl, ?_⟩
  rintro receipt ⟨rfl⟩
  rfl

theorem honours_statusLocked (outcomes : Outcomes) (operationId : String) (view : LedgerView) :
    (statusLocked outcomes operationId).run.Honours bookkeeping (fun _ _ => True) view := by
  have settles {view : LedgerView} {acknowledgement : ActionAck} (proper : acknowledgement.Proper) :
      (do
        finish acknowledgement
        pure (some acknowledgement) : EngineM (Option ActionAck)).run.Honours bookkeeping
          (fun _ _ => True) view := by
    refine honours_try (honours_mono (honours_finish proper) fun result view' _ => ?_)
    cases result <;> trivial
  refine honours_try ⟨trivial, fun ans _ => ?_⟩
  cases ans with
  | error e => trivial
  | ok =>
    refine honours_try ⟨trivial, fun ans relied => ?_⟩
    cases ans with
    | error e => trivial
    | ok records =>
      obtain ⟨consistent, proper⟩ := relied
      refine honours_ret ?_
      dsimp only
      rcases scanned : scan operationId records with ⟨claim, _ | acknowledgement⟩
      · cases claim with
        | none => trivial
        | some claim =>
          have generated := proper_interrupted operationId claim
          refine honours_after (fun _ look => look_allowed look)
            (fun _ ans look => look_learned ans look)
            (look_ask trivial : (now).Only EngineOp.IsLook) fun finishedAtMs => ?_
          refine honours_try ⟨trivial, fun ans relied => ?_⟩
          cases ans with
          | error e => trivial
          | ok decision =>
            cases decision with
            | recorded terminal => exact settles ⟨terminal, rfl, relied⟩
            | dispatch | interrupted => exact settles (generated finishedAtMs)
      · have found := proper _ (scan_terminal_mem (congrArg Prod.snd scanned))
        refine honours_bind (honours_mono (honours_reconcileInterrupted found) ?_)
        intro result view' _
        cases result <;> trivial

theorem honours_status (outcomes : Outcomes) (operationId : String) (view : LedgerView) :
    (status outcomes operationId).run.Honours bookkeeping (fun _ _ => True) view := by
  unfold status
  split
  · trivial
  · refine honours_try ⟨trivial, fun ans _ => ?_⟩
    cases ans with
    | error e => trivial
    | ok =>
      refine honours_releasing (honours_mono (honours_statusLocked outcomes operationId _) ?_)
      exact fun _ _ _ => trivial

/-- **Every call honours the contract**, whatever it has seen before. -/
theorem honours_body (call : Call) (view : LedgerView) :
    call.body.Honours bookkeeping (fun _ _ => True) view := by
  cases call with
  | execute build outcomes request =>
    exact honours_bind (honours_mono (honours_execute build outcomes request view)
      fun _ _ _ => trivial)
  | executeBatch build outcomes requests =>
    exact honours_bind (honours_mono (honours_executeBatch build outcomes requests view)
      fun _ _ _ => trivial)
  | status outcomes operationId =>
    exact honours_bind (honours_mono (honours_status outcomes operationId view)
      fun _ _ _ => trivial)

/-! ### The key of a report -/

/-- The key is that of the request. -/
def ActionRequest.HasKey (request : ActionRequest) (build : Build) (key : OutcomeKey) : Prop :=
  key.operationId = request.operationId ∧ normalizedActionHash build request = .ok key.actionHash

/-- The key is that of a request the call executes. -/
def Call.Executes (key : OutcomeKey) : Call → Prop
  | .execute build _ request => request.HasKey build key
  | .executeBatch build _ requests => ∃ request ∈ requests, request.HasKey build key
  | .status .. => False

/-- If the question reports an execution, then with such a key. -/
def EngineOp.ReportsOn (keys : OutcomeKey → Prop) : EngineOp → Prop
  | .release (.executed key _) => keys key
  | _ => True

theorem within_reportsOn {keys : OutcomeKey → Prop} {op : EngineOp} (within : op.IsWithin) :
    op.ReportsOn keys := by
  cases op <;> first | exact within.elim | trivial

theorem reportsOn_execute (build : Build) (outcomes : Outcomes) (request : ActionRequest) :
    (execute build outcomes request).run.Only (EngineOp.ReportsOn (request.HasKey build)) := by
  have asks {op : EngineOp} (other : op.ReportsOn (request.HasKey build)) :
      (ask op).Only (EngineOp.ReportsOn (request.HasKey build)) :=
    ⟨other, fun _ => trivial⟩
  refine only_try (only_lift (@asks .directories trivial)) fun isDir => ?_
  refine only_known fun _ _ => only_known fun actionHash hashed => ?_
  refine only_try (@asks (.verifyAuthority request actionHash) trivial) fun authority => ?_
  refine only_try (only_lift (@asks .sessionIsolation trivial)) fun isolation => ?_
  refine only_try (@asks (.lock _) trivial) fun _ => ?_
  refine only_bind (only_mono (Execution.within_locked _) fun _ => within_reportsOn) fun result => ?_
  exact only_bind (@asks (.release _) ⟨rfl, hashed⟩) fun _ => trivial

theorem within_statusLocked (outcomes : Outcomes) (operationId : String) :
    (statusLocked outcomes operationId).run.Only EngineOp.IsWithin := by
  have settles (acknowledgement : ActionAck) :
      (do
        finish acknowledgement
        pure (some acknowledgement) : EngineM (Option ActionAck)).run.Only EngineOp.IsWithin :=
    only_try (only_mono (settling_finish _) fun _ => settling_within) fun _ => trivial
  refine only_try (within_ask trivial) fun _ => ?_
  refine only_try (within_ask trivial) fun records => ?_
  rcases scan operationId records with ⟨claim, _ | acknowledgement⟩
  · cases claim with
    | none => trivial
    | some claim =>
      refine only_try (only_lift (within_ask trivial)) fun finishedAtMs => ?_
      refine only_try (within_ask trivial) fun decision => ?_
      cases decision <;> exact settles _
  · exact only_bind (only_mono (settling_reconcileInterrupted _ _) fun _ => settling_within)
      fun result => by cases result <;> trivial

theorem reportsOn_status (outcomes : Outcomes) (operationId : String) (keys : OutcomeKey → Prop) :
    (status outcomes operationId).run.Only (EngineOp.ReportsOn keys) := by
  unfold status
  split
  · trivial
  · refine only_try ⟨trivial, fun _ => trivial⟩ fun _ => ?_
    refine only_bind (only_mono (within_statusLocked outcomes operationId) ?_) fun result => ?_
    · exact fun _ => within_reportsOn
    · exact ⟨trivial, fun _ => trivial⟩

theorem reportsOn_body (call : Call) : call.body.Only (EngineOp.ReportsOn (call.Executes ·)) := by
  cases call with
  | execute build outcomes request =>
    exact only_bind (reportsOn_execute build outcomes request) fun _ => trivial
  | executeBatch build outcomes requests =>
    refine only_bind ?_ fun _ => trivial
    suffices batch : ∀ rest : List ActionRequest, (∀ request ∈ rest, request ∈ requests) →
        (executeBatch build outcomes rest).Only
          (EngineOp.ReportsOn fun key => ∃ request ∈ requests, request.HasKey build key) from
      batch requests fun _ member => member
    intro rest within
    induction rest with
    | nil => trivial
    | cons request rest ih =>
      refine only_bind (only_mono (reportsOn_execute build outcomes request) ?_) fun result => ?_
      · intro op about
        cases op with
        | release outcome =>
          cases outcome with
          | executed key result => exact ⟨request, within request List.mem_cons_self, about⟩
          | queried => trivial
        | _ => trivial
      · split
        · exact only_bind (ih fun request member => within request (List.mem_cons_of_mem _ member))
            fun _ => trivial
        · trivial
  | status outcomes operationId =>
    exact only_bind (reportsOn_status outcomes operationId _) fun _ => trivial

/-! ### What the ledgers give back -/

variable {Id : Type} {host : Host}

/-- Every record of the journal was given to it. -/
def Given (log : Log Id) (j : Journal LedgerRecord) : Prop :=
  ∀ record ∈ j.records, ∃ e ∈ log, ∃ id, e.Asks id (EngineOp.ledger (.append record))

theorem given_grows {log : Log Id} {j j' : Journal LedgerRecord} (given : Given log j)
    (e : Entry Engine Id Call) (kept : ∀ record ∈ j'.records, record ∈ j.records) :
    Given (log ++ [e]) j' := by
  intro record member
  obtain ⟨e', earlier, id, asks⟩ := given record (kept record member)
  exact ⟨e', List.mem_append_left _ earlier, id, asks⟩

theorem given_append {log : Log Id} {j j' : Journal LedgerRecord} (given : Given log j)
    {e : Entry Engine Id Call} {id : Id} {record : LedgerRecord}
    (asks : e.Asks id (EngineOp.ledger (.append record)))
    (kept : ∀ record' ∈ j'.records, record' ∈ j.records ∨ record' = record) :
    Given (log ++ [e]) j' := by
  intro record' member
  rcases kept record' member with earlier | rfl
  · exact given_grows given e (fun _ same => same) record' earlier
  · exact ⟨e, List.mem_append_right _ List.mem_cons_self, id, asks⟩

/-- A question to the ledger adds at most the record it appends. -/
theorem given_step {log : Log Id} {j j' : Journal LedgerRecord} {outcomes : Outcomes}
    {φ φ' : Phase} {op : JournalOp LedgerRecord} {ans ans' : Except ProtocolError op.Result}
    {e : Entry Engine Id Call} {id : Id} (given : Given log j) (base : Base log j)
    (knows : Knows log j φ) (work : Phase.Work outcomes φ ⟨.ledger op, ans⟩ φ')
    (step : j.Step op ans' j') (asks : e.Asks id (EngineOp.ledger op)) : Given (log ++ [e]) j' := by
  cases op with
  | repairTail =>
    obtain ⟨records, _⟩ := Journal.step_repair base.sound.glued step
    exact given_grows given e fun record member => records ▸ member
  | records =>
    have whole : j.torn = false := by
      cases work <;> exact knows
    obtain ⟨rfl, _⟩ := Journal.step_records base.sound.glued whole step
    exact given_grows given e fun _ member => member
  | append record =>
    obtain ⟨whole, _⟩ := work_append base knows work
    refine given_append given asks fun record' member => ?_
    cases ans' with
    | ok =>
      rw [Journal.step_append_ok base.sound.glued whole step] at member
      exact (List.mem_append.mp member).imp_right List.mem_singleton.mp
    | error =>
      obtain ⟨records | records, _⟩ := Journal.step_append_error base.sound.glued whole step
      · exact .inl (records ▸ member)
      · rw [records] at member
        exact (List.mem_append.mp member).imp_right List.mem_singleton.mp

theorem Desk.given_run {log : Log Id} {d : Desk Id host} (run : Run log d) :
    Given log d.ledgers.ledger := by
  refine Reaches.invariant (fun log (d : Desk Id host) => Given log d.ledgers.ledger) ?_ ?_ run
  · exact fun _ member => absurd member List.not_mem_nil
  · intro log d e d' before given move
    have invariant := invariant_run before
    have base : Base log d.ledgers.ledger := ⟨invariant.sound, invariant.tallied⟩
    have still := given_grows given e fun _ member => member
    cases move with
    | started | ended | refused | died | look | lock | release | leave => exact still
    | @work l l' id outcomes φ φ' e work answered =>
      obtain ⟨op, ans⟩ := e
      cases op with
      | ledger op => exact given_step given base (invariant.knows _ rfl) work answered.1 ⟨rfl, rfl⟩
      | begin => rw [answer_host (.inl ⟨_, _, rfl⟩) answered]; exact still
      | record => rw [answer_host (.inr ⟨_, _, _, rfl⟩) answered]; exact still
      | dispatch =>
        obtain rfl : l' = l := answered
        exact still
      | _ => cases work
    | @crash l l' id outcomes φ φ' op ans work abandoned =>
      cases op with
      | ledger op =>
        obtain ⟨⟨ans', step⟩, _⟩ := abandoned
        exact given_step given base (invariant.knows _ rfl) work step ⟨rfl, rfl⟩
      | begin => rw [abandon_host (.inl ⟨_, _, rfl⟩) abandoned]; exact still
      | record => rw [abandon_host (.inr ⟨_, _, _, rfl⟩) abandoned]; exact still
      | dispatch =>
        obtain rfl : l' = l := abandoned
        exact still
      | _ => cases work
    | loses lost =>
      obtain ⟨kept, _, records, _⟩ := Journal.loses_take base.sound.glued lost.1
      refine given_grows given _ fun record member => ?_
      rw [records] at member
      exact List.mem_of_mem_take member

/-- The host answers that a terminal is recorded for a key only if it was given it to
record for that key. -/
def Recalls (log : Log Id) : Prop :=
  ∀ before id outcomes key terminal after,
    log = before ++ .did id ⟨.begin outcomes key, .ok (.recorded terminal)⟩ :: after →
    ∃ e ∈ before, ∃ id' outcomes', e.Asks id' (EngineOp.record outcomes' key terminal)

theorem recalls_grows {log : Log Id} (recalls : Recalls log) {e : Entry Engine Id Call}
    (other : ∀ id outcomes key terminal,
      e ≠ .did id ⟨.begin outcomes key, .ok (.recorded terminal)⟩) : Recalls (log ++ [e]) := by
  intro before id outcomes key terminal after whole
  rcases append_cons_concat whole with ⟨_, same, _⟩ | ⟨after', _, inside⟩
  · exact absurd same.symm (other id outcomes key terminal)
  · exact recalls before id outcomes key terminal after' inside

section

variable [DecidableEq Id]

/-- What was asked was allowed by the contract. -/
theorem asked_allowed {Φ : Type} {k : Contract Engine Φ} {φ₀ : Φ} {log : Log Id}
    (allowed : AllAllowed k φ₀ log) {e : Entry Engine Id Call} (member : e ∈ log) {id : Id}
    {op : EngineOp} (asks : e.Asks id op) : ∃ φ, k.allows φ op := by
  obtain ⟨before, after, rfl⟩ := List.append_of_mem member
  exact ⟨_, allowed before e after rfl id op asks⟩

/-- What the ledgers answer can be relied on. -/
theorem bookkeeping_relied {log : Log Id} {d : Desk Id host} (run : Desk.Run log d)
    (recalls : Recalls log) {before after : Log Id} {id : Id} {e : Event Engine}
    (whole : log = before ++ .did id e :: after)
    (allowed : AllAllowed bookkeeping .unseen (before ++ [.did id e])) (view : LedgerView) :
    bookkeeping.relies view e := by
  obtain ⟨op, ans⟩ := e
  have earlier {e' : Entry Engine Id Call} (member : e' ∈ before) {id' : Id} {op' : EngineOp}
      (asks : e'.Asks id' op') : ∃ view', bookkeeping.allows view' op' :=
    asked_allowed allowed (List.mem_append_left _ member) asks
  cases op with
  | begin outcomes key =>
    cases ans with
    | error => trivial
    | ok decision =>
      cases decision with
      | dispatch | interrupted => trivial
      | recorded terminal =>
        obtain ⟨e', member, id', outcomes', asks⟩ := recalls before id outcomes key terminal after whole
        obtain ⟨_, names⟩ := earlier member asks
        exact names
  | ledger op =>
    cases op with
    | repairTail | append => cases ans <;> trivial
    | records =>
      cases ans with
      | error => trivial
      | ok records =>
        subst whole
        obtain ⟨d', d'', run', move⟩ := Reaches.at_move run
        have invariant := Desk.invariant_run run'
        have given := Desk.given_run run'
        have current : records = d'.ledgers.ledger.records := by
          cases move with
          | look look => exact look.elim
          | work work answered =>
            have whole := invariant.knows _ rfl
            cases work with
            | read => exact (Journal.step_records invariant.sound.glued whole answered.1).2 records rfl
        subst current
        refine ⟨invariant.sound.consistent, fun acknowledgement member => ?_⟩
        obtain ⟨e', earlier', id', asks⟩ := given _ member
        obtain ⟨_, proper⟩ := earlier earlier' asks
        exact proper
  | _ => trivial

theorem viewOf_own (id : Id) (log : Log Id) (e : Event Engine) :
    viewOf id (log ++ [.did id e]) = (viewOf id log).learn e := by
  rw [viewOf, historyOf_own, List.foldl_append]
  rfl

theorem viewOf_quiet {id : Id} {log : Log Id} {e : Entry Engine Id Call}
    (quiet : historyOf id [e] = []) : viewOf id (log ++ [e]) = viewOf id log := by
  rw [viewOf, historyOf_concat, quiet, List.append_nil]
  rfl

/-- Looks and refusals of any call leave the view of each call as it is. -/
theorem viewOf_still {id id' : Id} {log : Log Id} {e : Event Engine}
    (still : ∀ view : LedgerView, view.learn e = view) :
    viewOf id (log ++ [.did id' e]) = viewOf id log := by
  by_cases same : id' = id
  · subst same
    rw [viewOf_own, still]
  · exact viewOf_quiet (historyOf_other (Ne.symm same) [] e)

/-- Whether the last append of the call at the desk succeeded. -/
def Marks (log : Log Id) (j : Journal LedgerRecord) (seat : Seat Id) : Prop :=
  match seat.phase with
  | .answered _ _ true => j.torn = false
  | .answered _ _ false | .retrying .. | .mended .. => (viewOf seat.id log).appended = some false
  | _ => True

theorem marks_same {log log' : Log Id} {j : Journal LedgerRecord} {seat : Seat Id}
    (marks : Marks log j seat) (same : viewOf seat.id log' = viewOf seat.id log) :
    Marks log' j seat := by
  unfold Marks
  rw [same]
  exact marks

theorem marks_work {log : Log Id} {l l' : Ledgers journalStore host} {id : Id}
    {outcomes : Outcomes} {φ φ' : Phase} {e : Event Engine} (base : Base log l.ledger)
    (knows : Knows log l.ledger φ) (marks : Marks log l.ledger ⟨id, outcomes, φ⟩)
    (work : Phase.Work outcomes φ e φ') (answered : l.Answer e l') :
    Marks (log ++ [.did id e]) l'.ledger ⟨id, outcomes, φ'⟩ := by
  have stored {record : LedgerRecord} (whole : l.ledger.torn = false)
      (answered : l.Answer ⟨.ledger (.append record), .ok ()⟩ l') : l'.ledger.torn = false := by
    rw [Journal.step_append_ok base.sound.glued whole answered.1]
    exact whole
  cases work with
  | repair ans | claim _ _ ans => cases ans <;> trivial
  | settle _ ans =>
    cases ans with
    | ok => exact stored knows.1 answered
    | error => trivial
  | save | resave => exact stored knows.1 answered
  | retry | lose => exact congrArg LedgerView.appended (viewOf_own id log _)
  | mend | unmended => exact (congrArg LedgerView.appended (viewOf_own id log _)).trans marks
  | _ => trivial

theorem Desk.marks_run {log : Log Id} {d : Desk Id host} (run : Run log d) :
    ∀ seat ∈ d.seat, Marks log d.ledgers.ledger seat := by
  refine Reaches.invariant
    (fun log (d : Desk Id host) => ∀ seat ∈ d.seat, Marks log d.ledgers.ledger seat) ?_ ?_ run
  · exact fun _ none => nomatch none
  · intro log d e d' before marks move
    have invariant := invariant_run before
    cases move with
    | started | ended | died => exact fun seat member => marks_same (marks seat member) (viewOf_quiet rfl)
    | look look =>
      refine fun seat member => marks_same (marks seat member) (viewOf_still fun view => ?_)
      exact look_learned _ look
    | refused => exact fun seat member => marks_same (marks seat member) (viewOf_still fun _ => rfl)
    | lock =>
      rintro _ ⟨rfl⟩
      trivial
    | release | leave | crash | loses => exact fun _ none => nomatch none
    | work work answered =>
      rintro _ ⟨rfl⟩
      exact marks_work ⟨invariant.sound, invariant.tallied⟩ (invariant.knows _ rfl) (marks _ rfl) work
        answered

/-- A call at the desk whose appends did not end with a failure reports the last terminal of
its operation. -/
theorem reports_stored {log : Log Id} {j : Journal LedgerRecord} {seat : Seat Id}
    {key : OutcomeKey} {report : ExecuteReport} (knows : Knows log j seat.phase)
    (marks : Marks log j seat) (reports : seat.phase.Reports (.executed key (.ok report)))
    (saved : (viewOf seat.id log).appended ≠ some false) :
    j.torn = false ∧ ∃ stored replayed,
      report.acknowledgements.getLast? = some { stored with replayed := replayed } ∧
      (scan key.operationId j.records).2 = some stored := by
  obtain ⟨id, outcomes, φ⟩ := seat
  have told {session : Session} {stored : ActionAck}
      (tells : session.Tells stored (.executed key (.ok report)))
      (found : (scan session.operationId j.records).2 = some stored) :
      ∃ stored replayed,
        report.acknowledgements.getLast? = some { stored with replayed := replayed } ∧
        (scan key.operationId j.records).2 = some stored := by
    obtain ⟨same, replayed, last⟩ := tells_outcome tells
    have about : session.operationId = key.operationId := same
    exact ⟨stored, replayed, last, about ▸ found⟩
  cases reports with
  | failed _ fails => cases fails
  | replayed found _ tells =>
    obtain ⟨whole, rfl⟩ := knows
    exact ⟨whole, told tells found⟩
  | kept _ tells => exact ⟨knows.1, told tells knows.2.2.2.1⟩
  | @answered session _ stored _ tells =>
    cases stored with
    | true => exact ⟨marks, told tells knows⟩
    | false => exact absurd marks saved

/-- **Reports are well formed and match what is stored**: in every run of the engines with a
host that recalls what it was given, a report is one on a request of its call, has the form,
and unless the call's last append failed the ledger file holds, as the last terminal of the
operation, the one it ends with. -/
theorem reports_formed {reader : LedgerReader} {log : Log Id} {id : Id} {key : OutcomeKey}
    {report : ExecuteReport} {c : Config engines (World.shared Id (fileStore reader.format) host)}
    (run : Config.Run (log ++ [.did id ⟨.release (.executed key (.ok report)), ()⟩]) c)
    (recalls : Recalls log) :
    (∃ call, .started id call ∈ log ∧ call.Executes key) ∧ report.Formed key (viewOf id log) ∧
      ((viewOf id log).appended ≠ some false → ∃ records stored replayed,
        c.shared.ledgers.ledger.bytes = unlines (records.map reader.format.line) ∧
        (scan key.operationId records).2 = some stored ∧
        report.acknowledgements.getLast? = some { stored with replayed := replayed }) := by
  have member : (.did id ⟨.release (.executed key (.ok report)), ()⟩ : Entry Engine Id Call) ∈
      log ++ [.did id ⟨.release (.executed key (.ok report)), ()⟩] :=
    List.mem_append_right _ List.mem_cons_self
  refine ⟨?_, ?_, ?_⟩
  · obtain ⟨call, started, executes⟩ := asked_only reportsOn_body run member ⟨rfl, rfl⟩
    rcases List.mem_append.mp started with started | started
    · exact ⟨call, started, executes⟩
    · cases List.mem_singleton.mp started
  · obtain ⟨d, run', _⟩ := engines_serial run
    have recalls' := recalls_grows recalls
      (e := .did id ⟨.release (.executed key (.ok report)), ()⟩) fun _ _ _ _ same => by cases same
    obtain ⟨allowed, _⟩ := contract_run (fun call => honours_body call .unseen) run
      fun before id' e after whole allowed _ => bookkeeping_relied run' recalls' whole allowed _
    exact allowed log _ [] rfl id _ ⟨rfl, rfl⟩
  · intro saved
    obtain ⟨d, run', keeps⟩ := engines_serial run
    obtain ⟨d', before, move⟩ := run'.last
    have invariant := Desk.invariant_run before
    cases move with
    | look look => exact look.elim
    | work work => cases work
    | release reports =>
      obtain ⟨whole, stored, replayed, last, found⟩ :=
        reports_stored (invariant.knows _ rfl) (Desk.marks_run before _ rfl) reports saved
      have file := (whole_file keeps.ledger invariant.sound.glued whole).1
      exact ⟨_, stored, replayed, file, found, last⟩

end

/-! ### The reference outcome ledger recalls -/

/-- The terminals in the reference outcome ledger were given to it. -/
def Remembers (log : Log Id) (s : MemoryOutcomeLedger) : Prop :=
  ∀ key terminal, s.entries key = some (some terminal) →
    ∃ e ∈ log, ∃ id outcomes, e.Asks id (EngineOp.record outcomes key terminal)

theorem remembers_changed {log : Log Id} {s s' : MemoryOutcomeLedger} (remembers : Remembers log s)
    {e : Entry Engine Id Call} {id : Id} {op : EngineOp} (changes : Changes op s s')
    (asks : e.Asks id op) : Remembers (log ++ [e]) s' := by
  intro key terminal known
  have earlier (known : s.entries key = some (some terminal)) :
      ∃ e' ∈ log ++ [e], ∃ id outcomes, e'.Asks id (EngineOp.record outcomes key terminal) := by
    obtain ⟨e', member, asked⟩ := remembers key terminal known
    exact ⟨e', List.mem_append_left _ member, asked⟩
  cases changes with
  | same => exact earlier known
  | @«begin» key' fresh =>
    by_cases same : key = key'
    · subst same
      simp at known
    · rw [MemoryOutcomeLedger.entries_insert_other _ _ _ _ same] at known
      exact earlier known
  | @record key' terminal' =>
    by_cases same : key = key'
    · subst same
      rw [MemoryOutcomeLedger.entries_insert_self, Option.some.injEq, Option.some.injEq] at known
      subst known
      exact ⟨e, List.mem_append_right _ List.mem_cons_self, id, _, asks⟩
    · rw [MemoryOutcomeLedger.entries_insert_other _ _ _ _ same] at known
      exact earlier known

/-- A recorded terminal that it answers is one it remembers. -/
theorem recorded_remembered {s s' : MemoryOutcomeLedger} {key : OutcomeKey} {terminal : Terminal}
    (answered : (.recorded terminal, s') = s.begin key) :
    s.entries key = some (some terminal) := by
  rcases s.begin_cases key with ⟨_, begun⟩ | ⟨_, begun⟩ | ⟨terminal', known, begun⟩
  · rw [begun] at answered
    cases answered
  · rw [begun] at answered
    cases answered
  · rw [begun] at answered
    cases answered
    exact known

theorem memory_recalls {log : Log Id} {d : Desk Id memoryHost} (run : Desk.Run log d) :
    Recalls log ∧ Remembers log d.ledgers.host := by
  refine Reaches.invariant (fun log (d : Desk Id memoryHost) =>
    Recalls log ∧ Remembers log d.ledgers.host) ?_ ?_ run
  · refine ⟨fun before id outcomes key terminal after whole => ?_, fun key terminal known => ?_⟩
    · simp at whole
    · cases known
  · intro log d e d' _ kept move
    obtain ⟨recalls, remembers⟩ := kept
    have still : Remembers (log ++ [e]) d.ledgers.host := by
      intro key terminal known
      obtain ⟨e', member, asked⟩ := remembers key terminal known
      exact ⟨e', List.mem_append_left _ member, asked⟩
    have quiet (other : ∀ id outcomes key terminal,
        e ≠ .did id ⟨.begin outcomes key, .ok (.recorded terminal)⟩) : Recalls (log ++ [e]) :=
      recalls_grows recalls other
    cases move with
    | started | ended | refused | died | lock | release | leave =>
      exact ⟨quiet fun _ _ _ _ same => (by cases same), still⟩
    | look look =>
      refine ⟨quiet fun _ _ _ _ same => ?_, still⟩
      cases same
      exact look.elim
    | loses lost => exact ⟨quiet fun _ _ _ _ same => (by cases same), lost.2 ▸ still⟩
    | crash work abandoned =>
      exact ⟨quiet fun _ _ _ _ same => (by cases same),
        remembers_changed remembers (host_abandons abandoned) ⟨rfl, rfl⟩⟩
    | @work l l' id outcomes φ φ' e work answered =>
      refine ⟨?_, remembers_changed remembers (host_changes answered) ⟨rfl, rfl⟩⟩
      intro before id' outcomes' key terminal after whole
      rcases append_cons_concat whole with ⟨rfl, same, _⟩ | ⟨after', _, inside⟩
      · cases same
        -- the default outcome ledger has nothing recorded
        cases outcomes' with
        | null => cases answered.1
        | host => exact remembers key terminal (recorded_remembered answered.1)
      · exact recalls before id' outcomes' key terminal after' inside

def isReportedBy (id : Nat) : Entry Engine Nat Call → Bool
  | .did id' ⟨.release (.executed _ (.ok report)), ()⟩ =>
    id' = id && report.acknowledgements.any ActionAck.replayed
  | _ => false

theorem report_of_isReportedBy {id : Nat} {e : Entry Engine Nat Call}
    (reported : isReportedBy id e = true) :
    ∃ key report, e = .did id ⟨.release (.executed key (.ok report)), ()⟩ := by
  unfold isReportedBy at reported
  split at reported
  next id' key report =>
    rw [of_decide_eq_true (Bool.and_eq_true_iff.mp reported).1]
    exact ⟨key, report, rfl⟩
  next => contradiction

/-- A replayed report of the second of two executions. -/
theorem reports_formed_bench :
    ∃ (log : Log Nat) (key : OutcomeKey) (report : ExecuteReport)
      (c : Config engines (World.shared Nat (fileStore objectReader.format) memoryHost)),
      Config.Run (log ++ [.did 1 ⟨.release (.executed key (.ok report)), ()⟩]) c ∧
      report.Formed key (viewOf 1 log) := by
  obtain ⟨c, run⟩ := @Bench.run objectReader.format
    [(Bench.executes .host, 100), (Bench.executes .host, 100)] []
  have reported : (Bench.log [(Bench.executes .host, 100), (Bench.executes .host, 100)]
      Bench.new).any (isReportedBy 1) = true := by decide +kernel
  obtain ⟨e, member, reported⟩ := List.any_eq_true.mp reported
  obtain ⟨key, report, rfl⟩ := report_of_isReportedBy reported
  obtain ⟨before, after, same⟩ := List.append_of_mem member
  change Config.Run (Bench.log _ Bench.new) c at run
  rw [same, List.append_cons] at run
  obtain ⟨c', run', _⟩ := Reaches.split run
  obtain ⟨c'', earlier, _⟩ := Reaches.last run'
  obtain ⟨d, serial, _⟩ := engines_serial earlier
  obtain ⟨_, formed, _⟩ := reports_formed run' (memory_recalls serial).1
  exact ⟨before, key, report, c', run', formed⟩

end Praefectus
