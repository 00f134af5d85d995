import Praefectus.Engine.Facts
import Praefectus.Ledger.Journal

/-!
# The engine as a program

The engine asks its executor, its authority verifier, its clock and cancellation
token, its local ledger and the host's outcome ledger. A call that holds the ledger
lock releases it as its last step, whatever its result.
-/

namespace Praefectus

/-- The outcome ledger an engine was built with: the default one, or the host's. -/
inductive Outcomes where
  | null
  | host
  deriving DecidableEq

/-- What a call that held the ledger lock returns, and for which operation. -/
inductive Outcome where
  | executed (key : OutcomeKey) (result : Except ProtocolError ExecuteReport)
  | queried (operationId : String) (result : Except ProtocolError (Option ActionAck))

inductive EngineOp where
  | directories
  | verifyAuthority (request : ActionRequest) (actionHash : String)
  | sessionIsolation
  | capabilities
  | observeWithBoundary (target : TargetRef) (deadlineAtMs : Int64)
  | resolveWithBoundary (target : TargetRef) (deadlineAtMs : Int64)
  | contextHashWithBoundary (deadlineAtMs : Int64)
  | dispatch (key : OutcomeKey) (action : Action) (target : ResolvedTarget)
      (verification : VerificationPolicy) (deadlineAtMs : Int64)
  | isCancelled
  | now
  | lock (deadlineAtMs : Option Int64)
  | release (outcome : Outcome)
  | ledger (op : JournalOp LedgerRecord)
  | trajectory (acknowledgement : ActionAck)
  | begin (outcomes : Outcomes) (key : OutcomeKey)
  | record (outcomes : Outcomes) (key : OutcomeKey) (terminal : Terminal)

abbrev EngineOp.Answer : EngineOp → Type
  | .directories => PathBuf → Bool
  | .verifyAuthority .. => Except ProtocolError VerifiedAuthority
  | .sessionIsolation => SessionIsolation
  | .capabilities => Except ProtocolError Capabilities
  | .observeWithBoundary .. => Except ProtocolError Observation
  | .resolveWithBoundary .. => Except ProtocolError ResolvedTarget
  | .contextHashWithBoundary _ => Except ProtocolError String
  | .dispatch .. => Except DispatchError DispatchReceipt
  | .isCancelled => Bool
  | .now => Int64
  | .lock _ => Except ProtocolError Unit
  | .release _ => Unit
  | .ledger op => Except ProtocolError op.Result
  | .trajectory _ => Except ProtocolError Unit
  | .begin .. => Except ProtocolError LedgerDecision
  | .record .. => Except ProtocolError Unit

abbrev Engine : Interface := ⟨EngineOp, EngineOp.Answer⟩

abbrev EngineM := ExceptT ProtocolError (Prog Engine)

/-- A phase of a call that may settle the operation before the next one. -/
abbrev PhaseM := ExceptT Terminal (Prog Engine)

def ask (op : EngineOp) : Prog Engine op.Answer := .ask op .ret

def isCancelled : Prog Engine Bool := ask .isCancelled

def now : Prog Engine Int64 := ask .now

def repairTail : EngineM Unit := ExceptT.mk (ask (.ledger .repairTail))

def records : EngineM (List LedgerRecord) := ExceptT.mk (ask (.ledger .records))

def append (record : LedgerRecord) : EngineM Unit := ExceptT.mk (ask (.ledger (.append record)))

def trajectory (acknowledgement : ActionAck) : Prog Engine Unit := do
  let _ ← ask (.trajectory acknowledgement)

def begin (outcomes : Outcomes) (key : OutcomeKey) : EngineM LedgerDecision :=
  ExceptT.mk (ask (.begin outcomes key))

def recordOutcome (outcomes : Outcomes) (key : OutcomeKey) (terminal : Terminal) : EngineM Unit :=
  ExceptT.mk (ask (.record outcomes key terminal))

/-! ### The operation ledger -/

inductive ClaimResult where
  | new
  | replay (acknowledgement : ActionAck)
  | recoveredUnknown (claim : ClaimFacts)

/-- The last claim and the last terminal of an operation. -/
def scan (operationId : String) (records : List LedgerRecord) :
    Option ClaimFacts × Option ActionAck :=
  records.foldl (fun found record =>
    match record with
    | .claim claimed actionHash claimedAtMs actionName deliveryRoute sessionIsolation
        interactionMode =>
      if claimed = operationId then
        (some ⟨actionHash, claimedAtMs, actionName, deliveryRoute, sessionIsolation,
          interactionMode⟩, found.2)
      else found
    | .terminal acknowledgement =>
      if acknowledgement.operationId = operationId then (found.1, some acknowledgement)
      else found) (none, none)

def claimRecord (build : Build) (request : ActionRequest) (actionHash : String)
    (sessionIsolation : SessionIsolation) (claimedAtMs : Int64) : LedgerRecord :=
  .claim request.operationId actionHash claimedAtMs (some request.action.name)
    (some (claimDeliveryRoute build request.action request.target)) (some sessionIsolation)
    (some request.interactionMode)

def claim (build : Build) (request : ActionRequest) (actionHash : String)
    (sessionIsolation : SessionIsolation) : EngineM ClaimResult := do
  match scan request.operationId (← records) with
  | (some existing, terminal) =>
    if existing.actionHash ≠ actionHash then throw .conflict
    else pure (terminal.elim (.recoveredUnknown existing) .replay)
  | (none, _) =>
    append (claimRecord build request actionHash sessionIsolation (← now))
    pure .new

def finish (acknowledgement : ActionAck) : EngineM Unit := do
  append (.terminal acknowledgement)
  trajectory acknowledgement

/-- After an effect the acknowledgement is returned even if it cannot be stored; one
that reports success then says that it may not have been. -/
def finishAfterEffect (acknowledgement : ActionAck) : Prog Engine ActionAck := do
  match ← (finish acknowledgement).run with
  | .ok () => pure acknowledgement
  | .error _ =>
    let acknowledgement := persistenceUnknownAck acknowledgement
    let _ ← (do repairTail; finish acknowledgement : EngineM Unit).run
    pure acknowledgement

def ActionAck.isInterrupted (acknowledgement : ActionAck) : Bool :=
  match acknowledgement.state with
  | .terminal terminal => terminal.isInterrupted
  | _ => false

def ActionAck.key (acknowledgement : ActionAck) : OutcomeKey :=
  ⟨acknowledgement.operationId, acknowledgement.actionHash⟩

/-- An interrupted outcome gives way to one the host has recorded. -/
def reconcileInterrupted (outcomes : Outcomes) (acknowledgement : ActionAck) :
    EngineM ActionAck := do
  if acknowledgement.isInterrupted then
    match ← begin outcomes acknowledgement.key with
    | .recorded terminal =>
      let acknowledgement := { acknowledgement with state := .terminal terminal }
      finish acknowledgement
      pure acknowledgement
    | _ => pure acknowledgement
  else pure acknowledgement

/-- The body of a call that holds the ledger lock; the lock is released as it returns. -/
def releasing {α : Type} (outcome : Except ProtocolError α → Outcome) (body : EngineM α) :
    EngineM α := ExceptT.mk do
  let result ← body.run
  ask (.release (outcome result))
  pure result

def statusLocked (outcomes : Outcomes) (operationId : String) : EngineM (Option ActionAck) := do
  repairTail
  match scan operationId (← records) with
  | (_, some acknowledgement) => some <$> reconcileInterrupted outcomes acknowledgement
  | (none, none) => pure none
  | (some claim, none) =>
    let finishedAtMs ← now
    let acknowledgement := generateInterruptedAck operationId claim finishedAtMs
    let acknowledgement ← match ← begin outcomes ⟨operationId, claim.actionHash⟩ with
      | .recorded terminal => pure { acknowledgement with state := .terminal terminal }
      | _ => pure acknowledgement
    finish acknowledgement
    pure (some acknowledgement)

def status (outcomes : Outcomes) (operationId : String) : EngineM (Option ActionAck) := do
  if !validIdentifier operationId then throw (.invalidRequest "invalid operation_id")
  ExceptT.mk (ask (.lock none))
  releasing (.queried operationId) (statusLocked outcomes operationId)

/-! ### Execution -/

/-- What an execution has established once its request is accepted. -/
structure Execution where
  build : Build
  outcomes : Outcomes
  request : ActionRequest
  actionHash : String
  sessionIsolation : SessionIsolation
  deadlineAtMs : Int64

namespace Execution

variable (execution : Execution)

def key : OutcomeKey := ⟨execution.request.operationId, execution.actionHash⟩

def terminalAck (terminal : Terminal) : ActionAck :=
  Praefectus.terminalAck execution.request execution.actionHash terminal false

def accepted : ActionAck := ack execution.request execution.actionHash 0 .accepted false

def executing : ActionAck := ack execution.request execution.actionHash 1 .executing false

def emptyReceipt (sessionIsolation : SessionIsolation) : Prog Engine Receipt := do
  let startedAtMs ← now
  let finishedAtMs ← now
  pure (Praefectus.emptyReceipt execution.build execution.request execution.actionHash .unknown
    sessionIsolation startedAtMs finishedAtMs)

/-- Cancellation is asked before the deadline. -/
def checkBoundary : PhaseM Unit := do
  if ← isCancelled then throw .cancelledBeforeEffect
  if (← now) ≥ execution.deadlineAtMs then throw .expiredBeforeEffect

def unsupported {α : Type} (message : String) : PhaseM α := throw (.rejected .unsupported message)

def orFail {α : Type} (answer : Except ProtocolError α) : PhaseM α :=
  match answer with
  | .ok value => pure value
  | .error error => throw (protocolFailure error)

/-- Whether the shared desktop is to be the same before and after the dispatch. -/
def isGuarded : Bool :=
  execution.request.interactionMode = .backgroundOnly && execution.sessionIsolation = .sharedDesktop

def contextBefore : PhaseM (Option String) := do
  if execution.isGuarded then
    match ← ask (.contextHashWithBoundary execution.deadlineAtMs) with
    | .ok context => pure (some context)
    | .error .observationCancelled => throw .cancelledBeforeEffect
    | .error .observationExpired => throw .expiredBeforeEffect
    | .error _ => unsupported "shared desktop context cannot be guarded"
  else pure none

/-- What is known when the action is dispatched. -/
structure Prepared where
  deliveryRoute : DeliveryRoute
  before : Observation
  resolved : ResolvedTarget
  contextBefore : Option String

/-- Everything between the grant and the dispatch; each way out settles the operation
without an effect. -/
def prepare : PhaseM Prepared := do
  trajectory execution.accepted
  execution.checkBoundary
  if execution.sessionIsolation = .unknown then
    unsupported "runtime session isolation is unknown"
  let capabilities ← ask .capabilities
  execution.checkBoundary
  let capabilities ← orFail capabilities
  match strictActionCapability capabilities execution.request.action with
  | none => unsupported "runtime action capability facts are missing or inconsistent"
  | some actionCapability =>
    if execution.request.interactionMode = .backgroundOnly &&
        !backgroundCapabilityIsAuthorized actionCapability execution.sessionIsolation then
      unsupported
        "background action is unavailable for this delivery route and session isolation"
    let before ← orFail
      (← ask (.observeWithBoundary execution.request.target execution.deadlineAtMs))
    let resolved ← orFail
      (← ask (.resolveWithBoundary execution.request.target execution.deadlineAtMs))
    trajectory execution.executing
    execution.checkBoundary
    let contextBefore ← execution.contextBefore
    pure ⟨actionCapability.deliveryRoute, before, resolved, contextBefore⟩

def contextPreservation (before : Option String) : Prog Engine ContextPreservation := do
  if execution.request.interactionMode ≠ .backgroundOnly then pure .notApplicable
  else if execution.sessionIsolation = .hostIsolated then pure .hostIsolated
  else match before with
    | none => pure .unavailable
    | some before =>
      match ← ask (.contextHashWithBoundary execution.deadlineAtMs) with
      | .ok after => pure (if after = before then .unchangedAtBoundaries else .changed)
      | .error _ => pure .unavailable

/-- Cancelled, or past the deadline; the clock is read only if not cancelled. -/
def pastBoundary : Prog Engine Bool := do
  if ← isCancelled then pure true
  else pure ((← now) ≥ execution.deadlineAtMs)

def boundaryMessage : String := "action completed at the cancellation or deadline boundary"

/-- The action completed, but cancelled or late. -/
def completedAtBoundary (prepared : Prepared) (startedAtMs : Int64) (dispatch : DispatchReceipt) :
    Prog Engine Terminal := do
  let receipt ← execution.emptyReceipt execution.sessionIsolation
  let finishedAtMs ← now
  let contextPreservation ← execution.contextPreservation prepared.contextBefore
  pure (.outcomeUnknown
    { receipt with
      startedAtMs := startedAtMs
      finishedAtMs := finishedAtMs
      before := some prepared.before.evidence
      backend := dispatch.backend
      fallbackChain := dispatch.fallbackChain
      contextPreservation := contextPreservation }
    boundaryMessage)

/-- The fingerprint an element target is expected to show. -/
def expectedFingerprint : Option String :=
  match execution.request.target with
  | .element target => some target.fingerprintHash
  | _ => none

def stoppedAtBoundary (after : Except ProtocolError Observation) : Bool :=
  match after with
  | .error .observationCancelled | .error .observationExpired => true
  | _ => false

/-- The effect and its warnings, once the boundary and the context have their say. -/
def settleEffect (verified : Effect × List String) (boundaryUnknown : Bool)
    (contextPreservation : ContextPreservation) : Effect × List String :=
  let (effect, warnings) := verified
  let (effect, warnings) :=
    if boundaryUnknown then (.unknown, warnings ++ [boundaryMessage]) else (effect, warnings)
  if contextPreservation.isLost then
    (.unknown, warnings ++ ["shared desktop context preservation is unknown"])
  else (effect, warnings)

/-- Success needs a known effect, and a verified one where verification was asked for. -/
def classify (receipt : Receipt) (boundaryUnknown : Bool) : Terminal :=
  if receipt.effect ≠ .unknown &&
      (execution.request.verification.isNone || receipt.effect = .verified) then
    .succeeded receipt
  else .outcomeUnknown receipt
    (if boundaryUnknown then boundaryMessage
    else if receipt.contextPreservation.isLost then
      "action result or shared desktop context preservation could not be proven"
    else "action dispatched but requested verification failed")

def completedReceipt (prepared : Prepared) (startedAtMs finishedAtMs : Int64)
    (dispatch : DispatchReceipt) (contextPreservation : ContextPreservation)
    (after : Except ProtocolError Observation) (settled : Effect × List String) : Receipt where
  protocolVersion := protocolVersion
  actionName := execution.request.action.name
  actionHash := execution.actionHash
  startedAtMs := startedAtMs
  finishedAtMs := finishedAtMs
  backend := dispatch.backend
  fallbackChain := dispatch.fallbackChain
  deliveryRoute := prepared.deliveryRoute
  sessionIsolation := execution.sessionIsolation
  interactionMode := execution.request.interactionMode
  contextPreservation := contextPreservation
  effect := settled.1
  before := some prepared.before.evidence
  after := after.toOption.map Observation.evidence
  warnings := settled.2

/-- The terminal of an action that completed within its boundary. -/
def completion (prepared : Prepared) (startedAtMs : Int64) (dispatch : DispatchReceipt)
    (contextPreservation : ContextPreservation) (after : Except ProtocolError Observation)
    (past : Bool) (finishedAtMs : Int64) : Terminal :=
  let boundaryUnknown := past || stoppedAtBoundary after
  let verified := verify execution.request.verification prepared.before after.toOption
    execution.expectedFingerprint
  let settled := settleEffect verified boundaryUnknown contextPreservation
  execution.classify (execution.completedReceipt prepared startedAtMs finishedAtMs dispatch
    contextPreservation after settled) boundaryUnknown

def completed (prepared : Prepared) (startedAtMs : Int64) (dispatch : DispatchReceipt) :
    Prog Engine Terminal := do
  let contextPreservation ← execution.contextPreservation prepared.contextBefore
  let after ← ask (.observeWithBoundary execution.request.target execution.deadlineAtMs)
  let past ← execution.pastBoundary
  let finishedAtMs ← now
  pure (execution.completion prepared startedAtMs dispatch contextPreservation after past
    finishedAtMs)

/-- The dispatch failed, and it is not known whether it had an effect. -/
def failedUnknown (prepared : Prepared) (startedAtMs : Int64) (error : DispatchError) :
    Prog Engine Terminal := do
  let receipt ← execution.emptyReceipt execution.sessionIsolation
  let finishedAtMs ← now
  let contextPreservation ← execution.contextPreservation prepared.contextBefore
  pure (.outcomeUnknown
    { receipt with
      startedAtMs := startedAtMs
      finishedAtMs := finishedAtMs
      before := some prepared.before.evidence
      contextPreservation := contextPreservation }
    (dispatchMessage error))

/-- The dispatch failed without an effect. -/
def failedWithoutEffect (error : DispatchError) : Prog Engine Terminal := do
  if error.effect = .cancelledBeforeEffect then pure .cancelledBeforeEffect
  else if error.effect = .expiredBeforeEffect then pure .expiredBeforeEffect
  else if ← isCancelled then pure .cancelledBeforeEffect
  else if (← now) ≥ execution.deadlineAtMs then pure .expiredBeforeEffect
  else pure (.rejected error.code (dispatchMessage error))

/-- The terminal of a dispatch, and whether it may have had an effect. -/
def settleDispatch (prepared : Prepared) (startedAtMs : Int64) :
    Except DispatchError DispatchReceipt → Prog Engine (Terminal × Bool)
  | .ok dispatch => do
    if ← execution.pastBoundary then
      pure (← execution.completedAtBoundary prepared startedAtMs dispatch, true)
    else pure (← execution.completed prepared startedAtMs dispatch, true)
  | .error error => do
    if error.effect = .unknown then
      pure (← execution.failedUnknown prepared startedAtMs error, true)
    else pure (← execution.failedWithoutEffect error, false)

/-- The executor is not told the key; it names the operation the dispatch is for. -/
def dispatchAction (prepared : Prepared) : Prog Engine (Terminal × Bool) := do
  let startedAtMs ← now
  let dispatched ← ask (.dispatch execution.key execution.request.action prepared.resolved
    execution.request.verification execution.deadlineAtMs)
  execution.settleDispatch prepared startedAtMs dispatched

/-- A terminal without an effect is recorded and stored, or the call fails. -/
def finishWithoutEffect (acknowledgements : List ActionAck) (terminal : Terminal) :
    EngineM ExecuteReport := do
  recordOutcome execution.outcomes execution.key terminal
  finish (execution.terminalAck terminal)
  pure ⟨acknowledgements ++ [execution.terminalAck terminal]⟩

/-- A terminal after an effect is reported whether it can be recorded and stored or not. -/
def finishWithEffect (terminal : Terminal) : EngineM ExecuteReport := do
  let recorded ← ExceptT.lift (recordOutcome execution.outcomes execution.key terminal).run
  let acknowledgement := match recorded with
    | .ok () => execution.terminalAck terminal
    | .error _ => persistenceUnknownAck (execution.terminalAck terminal)
  let acknowledgement ← finishAfterEffect acknowledgement
  pure ⟨[execution.accepted, execution.executing, acknowledgement]⟩

/-- The part of a call after the host granted the dispatch. -/
def granted : EngineM ExecuteReport := do
  match ← execution.prepare.run with
  | .error terminal => execution.finishWithoutEffect [execution.accepted] terminal
  | .ok prepared =>
    let (terminal, effectMayHaveOccurred) ← execution.dispatchAction prepared
    if effectMayHaveOccurred then execution.finishWithEffect terminal
    else execution.finishWithoutEffect [execution.accepted, execution.executing] terminal

/-- The terminal of an operation that the host knows, or that was interrupted before. -/
def resolved (decision : LedgerDecision) : Prog Engine (Option Terminal) :=
  match decision with
  | .dispatch => pure none
  | .recorded terminal => pure (some terminal)
  | .interrupted => do
    let receipt ← execution.emptyReceipt execution.sessionIsolation
    pure (some (.outcomeUnknown receipt interruptedOutcomeMessage))

/-- The part of a call after its claim is stored. -/
def claimed : EngineM ExecuteReport := do
  match ← execution.resolved (← begin execution.outcomes execution.key) with
  | none => execution.granted
  | some terminal =>
    finish (execution.terminalAck terminal)
    pure ⟨[execution.accepted, execution.terminalAck terminal]⟩

def recoveredReceipt (claim : ClaimFacts) (receipt : Receipt) : Receipt :=
  { receipt with
    actionName := claim.actionName.getD "unknown"
    deliveryRoute := claim.deliveryRoute.getD .unknown
    interactionMode := claim.interactionMode.getD .unknown }

/-- The call found a claim without a terminal. -/
def recovered (claim : ClaimFacts) : EngineM ExecuteReport := do
  let receipt ← execution.emptyReceipt (claim.sessionIsolation.getD .unknown)
  let terminal ← match ← begin execution.outcomes execution.key with
    | .recorded terminal => pure terminal
    | _ => pure (.outcomeUnknown (recoveredReceipt claim receipt) interruptedOutcomeMessage)
  finish (execution.terminalAck terminal)
  pure ⟨[execution.terminalAck terminal]⟩

def locked : EngineM ExecuteReport := do
  repairTail
  match ← claim execution.build execution.request execution.actionHash
      execution.sessionIsolation with
  | .replay acknowledgement =>
    let acknowledgement ← reconcileInterrupted execution.outcomes acknowledgement
    pure ⟨[{ acknowledgement with replayed := true }]⟩
  | .recoveredUnknown claim => execution.recovered claim
  | .new => execution.claimed

end Execution

def execute (build : Build) (outcomes : Outcomes) (request : ActionRequest) :
    EngineM ExecuteReport := do
  let isDir ← ask .directories
  ExceptT.mk (pure (validateRequest build isDir request))
  let actionHash ← ExceptT.mk (pure (normalizedActionHash build request))
  let authority ← ExceptT.mk (ask (.verifyAuthority request actionHash))
  let deadlineAtMs := min request.deadlineAtMs authority.expiresAtMs
  let sessionIsolation ← ask .sessionIsolation
  ExceptT.mk (ask (.lock (some deadlineAtMs)))
  releasing (.executed ⟨request.operationId, actionHash⟩)
    (Execution.locked ⟨build, outcomes, request, actionHash, sessionIsolation, deadlineAtMs⟩)

/-- The last acknowledgement reports a verified success. -/
def isVerified : Except ProtocolError ExecuteReport → Bool
  | .ok report =>
    match report.acknowledgements.getLast?.map ActionAck.state with
    | some (.terminal (.succeeded receipt)) => receipt.effect = .verified
    | _ => false
  | .error _ => false

/-- Requests in order, up to the first whose result is not verified. -/
def executeBatch (build : Build) (outcomes : Outcomes) :
    List ActionRequest → Prog Engine (List (Except ProtocolError ExecuteReport))
  | [] => pure []
  | request :: requests => do
    let result ← (execute build outcomes request).run
    if isVerified result then pure (result :: (← executeBatch build outcomes requests))
    else pure [result]

end Praefectus
