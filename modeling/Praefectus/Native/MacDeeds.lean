import Praefectus.Native.PlannedDispatch

/-!
# Deeds on macOS

The deeds of a dispatch act through the accessibility of macOS: on an element, or by the events
of the mouse. Each of them says itself what became of it, from what it had asked for by then.
-/

namespace Praefectus.Mac

open Prog Native

/-! ### Accessibility -/

structure CGPoint where
  x : Float
  y : Float

inductive MouseEvent where
  | leftMouseDown | leftMouseDragged | leftMouseUp
  deriving DecidableEq

inductive InputDelivery where
  | perProcess (pid : Int32)
  | globalTap
  | refused
  deriving DecidableEq

def inputDelivery (pid : Int32) (globalAllowed : Bool) : InputDelivery :=
  if pid > 0 then .perProcess pid
  else if globalAllowed then .globalTap
  else .refused

inductive AxOp where
  | isCancelled
  | now
  | setMessagingTimeout (element : AxElement)
  | copyActionNames (element : AxElement)
  | isAttributeSettable (element : AxElement) (name : String)
  | elementAt (point : NativePoint)
  | nativeElement (element : AxElement) (deadlineAtMs : Int64)
  | parent (element : AxElement)
  | createRange (start length : UInt32)
  | copySelectedRange (element : AxElement)
  | accessibilityPermission
  | createSource
  | createMouseEvent (kind : MouseEvent) (point : CGPoint)
  | deliveryPid
  | globalInputAllowed
  | sleep (ms : UInt64)
  | performAction (element : AxElement) (name : String)
  | setAttributeValue (element : AxElement) (name value : String)
  | setSelectedRange (element : AxElement) (start length : UInt32)
  | postMouseEvent (delivery : InputDelivery) (kind : MouseEvent) (point : CGPoint)

/-- A call answers whether it succeeded, or with what it found. -/
abbrev AxOp.Answer : AxOp → Type
  | .now => Int64
  | .copyActionNames _ => Except NativeError (List String)
  | .elementAt _ | .parent _ => Except NativeError AxElement
  | .nativeElement .. => Except NativeError NativeElement
  | .copySelectedRange _ => Option (Int64 × Int64)
  | .deliveryPid => Int32
  | .sleep _ | .postMouseEvent .. => Unit
  | _ => Bool

abbrev Accessibility : Interface := ⟨AxOp, AxOp.Answer⟩

abbrev AxM := DispatchM Accessibility

def look (op : AxOp) : Prog Accessibility op.Answer := perform (I := Accessibility) op

def axBoundary : Boundary Accessibility := ⟨look .isCancelled, look .now⟩

def prepare (element : AxElement) : Prog Accessibility Bool := look (.setMessagingTimeout element)

def actions (element : AxElement) : Prog Accessibility (Except NativeError (List String)) := do
  if ← prepare element then look (.copyActionNames element) else pure (.error ⟨⟩)

def isSettable (element : AxElement) (name : String) : Prog Accessibility Bool := do
  if ← prepare element then look (.isAttributeSettable element name) else pure false

def orThrow (error : DispatchError) (success : Bool) : AxM Unit :=
  if success then pure () else throw error

variable (deadlineAtMs : Int64)

def before : AxM Unit := checkBeforeEffect axBoundary deadlineAtMs

/-! ### Elements -/

def unknownOutcome : DispatchError := .ambiguous "accessibility action outcome is unknown"

def unavailable : DispatchError := .noEffect "semantic target is unavailable"

def scrollOnce (element : AxElement) (name : String) (index : Nat) : AxM Unit := do
  checkPartialDispatch axBoundary deadlineAtMs index "scroll interrupted after partial dispatch"
  let performed ← look (.performAction element name)
  orThrow (if index = 0 then .noEffect "semantic scroll is unavailable" else unknownOutcome) performed

def macSemanticScroll (element : AxElement) (name : String) (amount : UInt32) : AxM Unit := do
  (List.range amount.toNat).forM (scrollOnce deadlineAtMs element name)
  checkAfterEffect axBoundary deadlineAtMs

/-- Performs an action that the element advertises. -/
def performAdvertised (element : AxElement) (name : String) (missing : DispatchError) : AxM Unit := do
  let advertised := match ← actions element with
    | .ok actions => actions.contains name
    | .error _ => false
  orThrow missing advertised
  before deadlineAtMs
  orThrow unknownOutcome (← look (.performAction element name))

def macSemanticInvoke (element : AxElement) : AxM Unit := do
  before deadlineAtMs
  orThrow unavailable (← prepare element)
  performAdvertised deadlineAtMs element "AXPress" (.noEffect "semantic target is not invokable")

def macSemanticPerformSecondaryAction (element : AxElement) (name : String) : AxM Unit := do
  before deadlineAtMs
  orThrow unavailable (← prepare element)
  orThrow (.unsupported "secondary action is not permitted") (secondaryActions.contains name)
  performAdvertised deadlineAtMs element name
    (.noEffect "semantic target does not advertise that action")

def macSemanticSetValue (element : AxElement) (value : String) : AxM Unit := do
  before deadlineAtMs
  orThrow unavailable (← prepare element)
  orThrow (.noEffect "semantic target is not editable") (← isSettable element "AXValue")
  before deadlineAtMs
  orThrow unknownOutcome (← look (.setAttributeValue element "AXValue" value))

def macSetSelectedRange (element : AxElement) (start length : UInt32) : AxM Unit := do
  orThrow (.noEffect "text selection range is unavailable") (← look (.createRange start length))
  orThrow unknownOutcome (← look (.setSelectedRange element start length))

/-- A number of 64 bits that fits in 32, and is not negative. -/
def toUInt32? (n : Int64) : Option UInt32 :=
  if 0 ≤ n ∧ n.toInt < 2 ^ 32 then some (.ofNat n.toInt.toNat) else none

def macSelectedRange (element : AxElement) : Prog Accessibility (Option (UInt32 × UInt32)) := do
  match ← look (.copySelectedRange element) with
  | none => pure none
  | some (location, length) => pure do
    let start ← toUInt32? location
    let length ← toUInt32? length
    pure (start, length)

def macSemanticSelectText (element : AxElement) (start length : UInt32) : AxM Unit := do
  before deadlineAtMs
  orThrow unavailable (← prepare element)
  orThrow (.noEffect "semantic target has no settable text selection")
    (← isSettable element "AXSelectedTextRange")
  before deadlineAtMs
  macSetSelectedRange element start length
  let selected ← macSelectedRange element
  orThrow (.ambiguous "text selection outcome is unknown") (selected = some (start, length))

/-! ### Values of elements that were not resolved -/

structure ElementFingerprint where
  backend : String
  id : String
  app : String
  processId : Int32
  window : String
  role : String
  label : String
  bounds : Option NativeBounds
  deriving DecidableEq

def ElementFingerprint.ofNative (node : NativeElement) : ElementFingerprint where
  backend := node.backend
  id := node.id
  app := node.app
  processId := node.processId.getD 0
  window := node.window.getD ""
  role := node.role
  label := (node.label.or node.title).getD ""
  bounds := node.bounds

def ElementFingerprint.toJson (fingerprint : ElementFingerprint) : Json := .obj [
  ("backend", .str fingerprint.backend),
  ("id", .str fingerprint.id),
  ("app", .str fingerprint.app),
  ("process_id", .ofInt64 fingerprint.processId.toInt64),
  ("window", .str fingerprint.window),
  ("role", .str fingerprint.role),
  ("label", .str fingerprint.label),
  ("bounds", match fingerprint.bounds with
    | none => .null
    | some bounds => .obj [
      ("x", .ofInt64 bounds.x),
      ("y", .ofInt64 bounds.y),
      ("width", .ofInt64 bounds.width),
      ("height", .ofInt64 bounds.height)])]

def elementFingerprintHash (build : Build) (node : NativeElement) : String :=
  hashSerializable build (ElementFingerprint.ofNative node).toJson

def validateMatchingLiveElement (current expected : NativeElement) : Bool :=
  validateLiveElement current && ElementFingerprint.ofNative current = .ofNative expected

/-- The element at a point or above it whose fingerprint has the hash. -/
def matchingFrom (build : Build) (expectedHash : String) :
    Nat → AxElement → Prog Accessibility (Except NativeError (AxElement × NativeElement))
  | 0, _ => pure (.error ⟨⟩)
  | n + 1, element => do
    if ← look .isCancelled then pure (.error ⟨⟩)
    else if (← look .now) ≥ deadlineAtMs then pure (.error ⟨⟩)
    else
      let candidate ← look (.nativeElement element deadlineAtMs)
      match candidate.toOption.filter fun node => elementFingerprintHash build node = expectedHash with
      | some node => pure (.ok (element, node))
      | none =>
        match ← look (.parent element) with
        | .error e => pure (.error e)
        | .ok parent => matchingFrom build expectedHash n parent

def macAxElementMatchingHash (build : Build) (point : NativePoint) (expectedHash : String) :
    Prog Accessibility (Except NativeError (AxElement × NativeElement)) := do
  match ← look (.elementAt point) with
  | .error e => pure (.error e)
  | .ok element => matchingFrom deadlineAtMs build expectedHash 64 element

def maxMacAxResolutionMs : Int64 := 5000

/-- What stopped a dispatch before its effect, if it was the token or the clock. -/
def stoppedOr (error : DispatchError) : AxM Unit := do
  if ← look .isCancelled then throw (.interrupted .cancelledBeforeEffect)
  else if (← look .now) ≥ deadlineAtMs then throw (.interrupted .expiredBeforeEffect)
  else throw error

def nativeElementSetValue (os : TargetOs) (build : Build) (expected : NativeElement)
    (value : String) : AxM Unit := do
  match os, expected.bounds with
  | .macos, none => throw (.noEffect "semantic target has no bounds")
  | .macos, some bounds => do
    let point : NativePoint :=
      ⟨Atspi.saturatingAdd bounds.x (bounds.width / 2), Atspi.saturatingAdd bounds.y (bounds.height / 2)⟩
    let resolutionDeadlineAtMs := min deadlineAtMs (Atspi.saturatingAdd (← look .now) maxMacAxResolutionMs)
    let found ← macAxElementMatchingHash resolutionDeadlineAtMs build point
      (elementFingerprintHash build expected)
    match found with
    | .error _ => stoppedOr deadlineAtMs unavailable
    | .ok (element, current) => do
      orThrow (.noEffect "semantic target changed") (validateMatchingLiveElement current expected)
      orThrow (.noEffect "semantic value is not settable") (← isSettable element "AXValue")
      orThrow unavailable (← prepare element)
      before deadlineAtMs
      orThrow (.ambiguous "accessibility action failed after dispatch began")
        (← look (.setAttributeValue element "AXValue" value))
  | _, _ => throw (.unsupported "accessibility actions are unavailable")

/-! ### Drags -/

def maxDragSteps : Nat := 24

def CGPoint.ofNative (point : NativePoint) : CGPoint := ⟨point.x.toFloat, point.y.toFloat⟩

/-- The point of one step on the way. -/
def between (start finish : CGPoint) (step : Nat) : CGPoint :=
  let ratio := step.toFloat / maxDragSteps.toFloat
  ⟨start.x + (finish.x - start.x) * ratio, start.y + (finish.y - start.y) * ratio⟩

def dragUnknown : DispatchError := .ambiguous "drag dispatch outcome is unknown"

/-- Posts an event, or finds that it may not be posted. -/
def post (kind : MouseEvent) (point : CGPoint) : AxM Unit := do
  orThrow dragUnknown (← look .createSource)
  orThrow dragUnknown (← look (.createMouseEvent kind point))
  match inputDelivery (← look .deliveryPid) (← look .globalInputAllowed) with
  | .refused => throw (.unsupported "global pointer input is disabled")
  | delivery => look (.postMouseEvent delivery kind point)

/-- How the way to the destination ended. -/
inductive Way where
  | done | interrupted | failed
  deriving DecidableEq

def dragAlong (start finish : CGPoint) : List Nat → Prog Accessibility Way
  | [] => pure .done
  | step :: steps => do
    if ← look .isCancelled then pure .interrupted
    else if (← look .now) ≥ deadlineAtMs then pure .interrupted
    else
      match ← (post .leftMouseDragged (between start finish step)).run with
      | .error _ => pure .failed
      | .ok _ => do
        look (.sleep 12)
        dragAlong start finish steps

def succeeded {α : Type} : Except DispatchError α → Bool
  | .ok _ => true
  | .error _ => false

def nativeDrag (os : TargetOs) (origin destination : NativePoint) (button : String) : AxM Unit := do
  match os with
  | .macos => do
    orThrow (.unsupported "drag supports only the left button") (button = "left")
    orThrow (.unsupported "accessibility permission is unavailable") (← look .accessibilityPermission)
    if ← isInterrupted axBoundary deadlineAtMs then
      throw (.noEffect "drag was interrupted before dispatch")
    else
      let start := CGPoint.ofNative origin
      let finish := CGPoint.ofNative destination
      post .leftMouseDown start
      let way ← dragAlong deadlineAtMs start finish (List.range' 1 maxDragSteps)
      let released ← (monadLift (post .leftMouseUp finish).run : AxM (Except DispatchError Unit))
      if way = .failed ∨ succeeded released = false then throw dragUnknown
      else if way = .interrupted then throw (.ambiguous "drag interrupted after partial dispatch")
      else pure ()
  | _ => throw (.unsupported "drag is unavailable on this backend")

/-! ### Every deed -/

def perform (os : TargetOs) (build : Build) : DeedCall → AxM Unit
  | .drag origin destination button deadlineAtMs =>
    nativeDrag deadlineAtMs os origin destination button
  | .elementSetValue element value deadlineAtMs =>
    nativeElementSetValue deadlineAtMs os build element value
  | .macSemanticScroll element name amount deadlineAtMs =>
    macSemanticScroll deadlineAtMs element name amount
  | .macSemanticInvoke element deadlineAtMs => macSemanticInvoke deadlineAtMs element
  | .macSemanticSetValue element value deadlineAtMs => macSemanticSetValue deadlineAtMs element value
  | .macSemanticSelectText element start length deadlineAtMs =>
    macSemanticSelectText deadlineAtMs element start length
  | .macSemanticPerformSecondaryAction element name deadlineAtMs =>
    macSemanticPerformSecondaryAction deadlineAtMs element name

end Praefectus.Mac
