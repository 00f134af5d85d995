import Praefectus.Json.Canonical

/-!
# Requests, receipts and acknowledgements

The data types of the protocol, field by field.
-/

namespace Praefectus

def protocolVersion : UInt16 := 2

inductive InteractionMode where
  | interactive | backgroundOnly | unknown
  deriving DecidableEq

inductive SessionIsolation where
  | sharedDesktop | hostIsolated | unknown
  deriving DecidableEq

inductive DeliveryRoute where
  | targetAddressed | pointer | perProcessEvent | unknown
  deriving DecidableEq

inductive BackgroundSupport where
  | guarded | hostIsolatedOnly | unavailable
  deriving DecidableEq

inductive ContextPreservation where
  | notApplicable | unchangedAtBoundaries | changed | unavailable | hostIsolated
  deriving DecidableEq

inductive MouseButton where
  | left | right | middle
  deriving DecidableEq

inductive Direction where
  | up | down | left | right
  deriving DecidableEq

inductive ApplicationOperation where
  | launch | switch | quit
  deriving DecidableEq

inductive WindowOperation where
  | focus | close | minimize
  deriving DecidableEq

inductive SafetyClass where
  | reversible | external | destructive
  deriving DecidableEq

inductive FailureCode where
  | invalidRequest | conflict | staleTarget | targetNotFound | permissionDenied | unsupported
  | dispatchFailed | verificationFailed
  deriving DecidableEq

inductive Effect where
  | verified | executedUnverified | unknown
  deriving DecidableEq

/-- What an executor knows about the effect of a dispatch that failed. -/
inductive EffectKnowledge where
  | noEffect | unknown | cancelledBeforeEffect | expiredBeforeEffect
  deriving DecidableEq

/-! ### Requests -/

structure AuthorityGrant where
  protocolVersion : UInt16
  issuer : String
  keyId : String
  operationId : String
  subject : String
  sessionId : String
  risk : SafetyClass
  expiresAtMs : Int64
  policyGeneration : String
  actionHash : String
  deriving DecidableEq

structure SignedAuthority where
  grant : AuthorityGrant
  signature : String
  deriving DecidableEq

structure SemanticTargetRef where
  observationId : String
  generation : UInt64
  provenanceHash : String
  elementId : String
  fingerprintHash : String
  deriving DecidableEq

inductive TargetRef where
  | coordinates (x y : Int64) (displayId displayGeometryHash snapshotId
      snapshotContentHash : String)
  | element (target : SemanticTargetRef)
  | none
  deriving DecidableEq

/-- A path is a sequence of bytes; it need not be text. -/
structure PathBuf where
  bytes : List UInt8
  deriving DecidableEq

inductive Action where
  | invoke
  | click (button : MouseButton) (count : UInt32) (allowCoordinateFallback : Bool)
  | typeText (text : String) (clear pressReturn : Bool) (delayMs : Option UInt64)
  | press (key : String) (count : UInt32) (delayMs : Option UInt64)
  | paste (text : String)
  | hotkey (keys : List String)
  | scroll (direction : Direction) (amount : UInt32)
  | move
  | drag («to» : TargetRef) (button : MouseButton)
  | selectText (start length : UInt32)
  | performSecondaryAction (name : String)
  | setValue (value : String)
  | screenshot (path : PathBuf)
  | application (operation : ApplicationOperation) (name : String)
  | window (operation : WindowOperation) (app title : Option String)
  | «open» (target : String) (app : Option String) (noFocus : Bool)
  | clipboardWrite (text : String)
  deriving DecidableEq

inductive VerificationPolicy where
  | none
  | snapshotChanged
  | targetState (expected : Value)
  | targetValueHash (sha256 : String)

def VerificationPolicy.isNone : VerificationPolicy → Bool
  | .none => true
  | _ => false

structure ActionRequest where
  protocolVersion : UInt16
  actionVersion : UInt16
  targetVersion : UInt16
  verificationVersion : UInt16
  operationId : String
  subject : String
  sessionId : String
  authority : SignedAuthority
  action : Action
  target : TargetRef
  interactionMode : InteractionMode
  deadlineAtMs : Int64
  verification : VerificationPolicy
  safety : SafetyClass

def Action.name : Action → String
  | .invoke => "invoke"
  | .click .. => "click"
  | .typeText .. => "type_text"
  | .press .. => "press"
  | .paste .. => "paste"
  | .hotkey .. => "hotkey"
  | .scroll .. => "scroll"
  | .move => "move"
  | .drag .. => "drag"
  | .selectText .. => "select_text"
  | .performSecondaryAction .. => "perform_secondary_action"
  | .setValue .. => "set_value"
  | .screenshot .. => "screenshot"
  | .application .. => "application"
  | .window .. => "window"
  | .«open» .. => "open"
  | .clipboardWrite .. => "clipboard_write"

/-! ### Receipts and acknowledgements -/

structure Evidence where
  observationHash : String
  targetFingerprintHash : Option String
  displayGeometryHash : String
  observedAtMs : Int64
  deriving DecidableEq

structure Receipt where
  protocolVersion : UInt16
  actionName : String
  actionHash : String
  startedAtMs : Int64
  finishedAtMs : Int64
  backend : String
  fallbackChain : List String
  deliveryRoute : DeliveryRoute
  sessionIsolation : SessionIsolation
  interactionMode : InteractionMode
  contextPreservation : ContextPreservation
  effect : Effect
  before : Option Evidence
  after : Option Evidence
  warnings : List String
  deriving DecidableEq

inductive Terminal where
  | succeeded (receipt : Receipt)
  | rejected (code : FailureCode) (message : String)
  | failed (code : FailureCode) (message : String)
  | cancelledBeforeEffect
  | expiredBeforeEffect
  | outcomeUnknown (receipt : Receipt) (message : String)
  deriving DecidableEq

inductive AckState where
  | accepted
  | executing
  | terminal (terminal : Terminal)
  deriving DecidableEq

structure ActionAck where
  protocolVersion : UInt16
  operationId : String
  sequence : UInt32
  actionHash : String
  replayed : Bool
  state : AckState
  deriving DecidableEq

structure ExecuteReport where
  acknowledgements : List ActionAck
  deriving DecidableEq

/-! ### What an executor answers -/

structure ActionCapability where
  action : String
  deliveryRoute : DeliveryRoute
  backgroundSupport : BackgroundSupport
  deriving DecidableEq

/-- The facts an engine reads from the advertised capabilities. -/
structure Capabilities where
  supportedActions : List String
  actionCapabilities : List ActionCapability
  deriving DecidableEq

structure Observation where
  evidence : Evidence
  state : Value

structure NativePoint where
  x : Int64
  y : Int64
  deriving DecidableEq

structure NativeBounds where
  x : Int64
  y : Int64
  width : Int64
  height : Int64
  deriving DecidableEq

structure NativeElement where
  backend : String
  id : String
  app : String
  processId : Option Int32
  window : Option String
  role : String
  label : Option String
  title : Option String
  bounds : Option NativeBounds
  state : Value
  enabled : Option Bool

inductive ResolvedTarget where
  | point (point : NativePoint)
  | element (element : NativeElement)
  | semantic (target : SemanticTargetRef)
  | none

structure DispatchReceipt where
  backend : String
  fallbackChain : List String
  deriving DecidableEq

structure DispatchError where
  message : String
  effect : EffectKnowledge
  code : FailureCode
  deriving DecidableEq

structure VerifiedAuthority where
  expiresAtMs : Int64
  deriving DecidableEq

inductive ProtocolError where
  | invalidRequest (message : String)
  | conflict
  | authorityDenied
  | staleTarget (message : String)
  | targetNotFound (message : String)
  | observationCancelled
  | observationExpired
  | io (message : String)
  | json (message : String)
  | executor (message : String)
  | ledger (message : String)
  deriving DecidableEq

/-! ### The two ledgers -/

/-- A line of the local ledger. Claims written by older versions may lack the optional
facts. -/
inductive LedgerRecord where
  | claim (operationId actionHash : String) (claimedAtMs : Int64) (actionName : Option String)
      (deliveryRoute : Option DeliveryRoute) (sessionIsolation : Option SessionIsolation)
      (interactionMode : Option InteractionMode)
  | terminal (acknowledgement : ActionAck)
  deriving DecidableEq

/-- Identity of one dispatchable operation in a host outcome ledger. -/
structure OutcomeKey where
  operationId : String
  actionHash : String
  deriving DecidableEq

inductive LedgerDecision where
  | dispatch
  | recorded (terminal : Terminal)
  | interrupted
  deriving DecidableEq

end Praefectus
