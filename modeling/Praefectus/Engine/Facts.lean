import Praefectus.Protocol.Request

/-!
# Receipts, acknowledgements and classifications

The parts of the engine that ask nothing of their environment.
-/

namespace Praefectus

/-! ### Delivery routes and capabilities -/

def nativePointerDeliveryRoute (build : Build) : DeliveryRoute :=
  if build.macos then .perProcessEvent else .pointer

def requestDeliveryRoute (build : Build) (action : Action) (target : TargetRef) : DeliveryRoute :=
  match action, target with
  | .invoke, .element _ | .setValue _, .element _ | .selectText .., .element _
  | .performSecondaryAction _, .element _ => .targetAddressed
  | .scroll .., .element _ =>
    if build.macos then nativePointerDeliveryRoute build else .targetAddressed
  | _, .element _ => nativePointerDeliveryRoute build
  | _, _ => .pointer

def claimDeliveryRoute (build : Build) (action : Action) (target : TargetRef) : DeliveryRoute :=
  match action with
  | .scroll .. => .unknown
  | _ => requestDeliveryRoute build action target

/-- Whether a capability is advertised with a route its action can take. -/
def routeIsValid (capability : ActionCapability) : Bool :=
  match capability.action with
  | "invoke" | "set_value" | "select_text" | "perform_secondary_action" =>
    capability.deliveryRoute = .targetAddressed
  | "application" =>
    capability.deliveryRoute = .pointer && capability.backgroundSupport = .unavailable
  | "click" | "drag" | "type_text" | "press" | "paste" | "hotkey" | "move" =>
    capability.deliveryRoute = .pointer || capability.deliveryRoute = .perProcessEvent
  | "scroll" =>
    capability.deliveryRoute = .pointer || capability.deliveryRoute = .targetAddressed ||
      capability.deliveryRoute = .perProcessEvent
  | _ => false

/-- The advertised facts by action; none if a route is invalid or an action occurs twice. -/
def collectFacts (facts : List (String × ActionCapability)) :
    List ActionCapability → Option (List (String × ActionCapability))
  | [] => some facts
  | capability :: rest =>
    if !routeIsValid capability || (facts.lookup capability.action).isSome then none
    else collectFacts ((capability.action, capability) :: facts) rest

def strictActionCapability (capabilities : Capabilities) (action : Action) :
    Option ActionCapability :=
  if ¬ capabilities.supportedActions.Nodup then none
  else match collectFacts [] capabilities.actionCapabilities with
    | none => none
    | some facts =>
      if capabilities.supportedActions.length ≠ facts.length ||
          capabilities.supportedActions.any fun name => (facts.lookup name).isNone then none
      else if capabilities.supportedActions.contains action.name then facts.lookup action.name
      else none

def backgroundCapabilityIsAuthorized (capability : ActionCapability)
    (sessionIsolation : SessionIsolation) : Bool :=
  match sessionIsolation with
  | .sharedDesktop =>
    capability.deliveryRoute = .targetAddressed && capability.backgroundSupport = .guarded
  | .hostIsolated =>
    capability.backgroundSupport = .guarded || capability.backgroundSupport = .hostIsolatedOnly
  | .unknown => false

/-! ### Verification and failures -/

/-- Both observations show the expected target on the same display. -/
def sameTarget (before after : Evidence) (expected : Option String) : Bool :=
  before.targetFingerprintHash.isSome &&
    before.targetFingerprintHash = after.targetFingerprintHash &&
    before.targetFingerprintHash = expected &&
    before.displayGeometryHash = after.displayGeometryHash

def verify (policy : VerificationPolicy) (before : Observation) (after : Option Observation)
    (expectedTargetFingerprintHash : Option String) : Effect × List String :=
  match policy, after with
  | .none, _ => (.executedUnverified, ["post-action verification was not requested"])
  | _, none => (.executedUnverified, ["post-action observation failed"])
  | .snapshotChanged, some after =>
    if before.evidence.observationHash ≠ after.evidence.observationHash then
      (.executedUnverified,
        ["post-action observation changed but does not verify the requested effect"])
    else (.executedUnverified, ["post-action observation did not change"])
  | .targetValueHash sha256, some after =>
    if (after.state.json.get? "value_hash").bind Json.asStr = some sha256 &&
        sameTarget before.evidence after.evidence expectedTargetFingerprintHash then
      (.verified, [])
    else (.executedUnverified, ["target value hash did not match the expected value"])
  | .targetState expected, some after =>
    if after.state.same expected &&
        sameTarget before.evidence after.evidence expectedTargetFingerprintHash then
      (.verified, [])
    else (.executedUnverified, ["target state did not match the expected value"])

def protocolFailure : ProtocolError → Terminal
  | .observationCancelled => .cancelledBeforeEffect
  | .observationExpired => .expiredBeforeEffect
  | .staleTarget _ => .rejected .staleTarget "stale target"
  | .targetNotFound _ => .rejected .targetNotFound "target not found"
  | .invalidRequest _ => .rejected .invalidRequest "invalid request"
  | .authorityDenied => .failed .dispatchFailed "authority denied"
  | _ => .failed .dispatchFailed "executor failed"

def dispatchMessage (error : DispatchError) : String :=
  match error.effect with
  | .unknown => "the action outcome is unknown"
  | .noEffect => "the action was not dispatched"
  | .cancelledBeforeEffect => "the action was cancelled before dispatch"
  | .expiredBeforeEffect => "the action expired before dispatch"

/-- Preservation that could not be shown. -/
def ContextPreservation.isLost : ContextPreservation → Bool
  | .changed | .unavailable => true
  | _ => false

/-! ### Receipts -/

def recoveredContextPreservation (interactionMode : InteractionMode)
    (sessionIsolation : SessionIsolation) : ContextPreservation :=
  match interactionMode, sessionIsolation with
  | .interactive, _ => .notApplicable
  | .backgroundOnly, .hostIsolated => .hostIsolated
  | _, _ => .unavailable

/-- The clock is read once for the start and once for the end. -/
def emptyReceipt (build : Build) (request : ActionRequest) (actionHash : String) (effect : Effect)
    (sessionIsolation : SessionIsolation) (startedAtMs finishedAtMs : Int64) : Receipt where
  protocolVersion := protocolVersion
  actionName := request.action.name
  actionHash := actionHash
  startedAtMs := startedAtMs
  finishedAtMs := finishedAtMs
  backend := "unknown"
  fallbackChain := []
  deliveryRoute := requestDeliveryRoute build request.action request.target
  sessionIsolation := sessionIsolation
  interactionMode := request.interactionMode
  contextPreservation := recoveredContextPreservation request.interactionMode sessionIsolation
  effect := effect
  before := none
  after := none
  warnings := []

def ack (request : ActionRequest) (actionHash : String) (sequence : UInt32) (state : AckState)
    (replayed : Bool) : ActionAck :=
  ⟨protocolVersion, request.operationId, sequence, actionHash, replayed, state⟩

def terminalAck (request : ActionRequest) (actionHash : String) (terminal : Terminal)
    (replayed : Bool) : ActionAck :=
  ack request actionHash 2 (.terminal terminal) replayed

def interruptedOutcomeMessage : String :=
  "a durable claim existed without a terminal receipt; the outcome of this operation was not " ++
    "recorded; verify the actual state before redoing anything with side effects"

/-- The facts of a claim, as the ledger keeps them. -/
structure ClaimFacts where
  actionHash : String
  claimedAtMs : Int64
  actionName : Option String
  deliveryRoute : Option DeliveryRoute
  sessionIsolation : Option SessionIsolation
  interactionMode : Option InteractionMode
  deriving DecidableEq

def generateInterruptedAck (operationId : String) (claim : ClaimFacts) (finishedAtMs : Int64) :
    ActionAck :=
  let deliveryRoute := claim.deliveryRoute.getD .unknown
  let sessionIsolation := claim.sessionIsolation.getD .unknown
  let interactionMode := claim.interactionMode.getD .unknown
  let receipt : Receipt :=
    { protocolVersion := protocolVersion
      actionName := claim.actionName.getD "unknown"
      actionHash := claim.actionHash
      startedAtMs := claim.claimedAtMs
      finishedAtMs := finishedAtMs
      backend := "unknown"
      fallbackChain := []
      deliveryRoute := deliveryRoute
      sessionIsolation := sessionIsolation
      interactionMode := interactionMode
      contextPreservation := recoveredContextPreservation interactionMode sessionIsolation
      effect := .unknown
      before := none
      after := none
      warnings := [] }
  ⟨protocolVersion, operationId, 2, claim.actionHash, false,
    .terminal (.outcomeUnknown receipt interruptedOutcomeMessage)⟩

def persistenceUnknownMessage : String :=
  "action completed but terminal receipt durability is unknown"

def persistenceUnknown : Terminal → Terminal
  | .succeeded receipt => .outcomeUnknown receipt persistenceUnknownMessage
  | terminal => terminal

def persistenceUnknownAck (acknowledgement : ActionAck) : ActionAck :=
  match acknowledgement.state with
  | .terminal terminal => { acknowledgement with state := .terminal (persistenceUnknown terminal) }
  | _ => acknowledgement

/-- The terminal that recovery writes when it finds a claim and nothing else. -/
def Terminal.isInterrupted : Terminal → Bool
  | .outcomeUnknown _ message => message = interruptedOutcomeMessage
  | _ => false

end Praefectus
