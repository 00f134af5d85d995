import Praefectus.Native.Dispatch
import Praefectus.Observe.Cdp
import Praefectus.Observe.Linux

/-!
# The native executor

The executor resolves the target of a request and dispatches its action to the desktop. What
acts on an element goes through the accessibility of the platform; keys and scrolling go to the
focused element, by a second dispatch with another target. The branches that the executor takes
for impossible are faults of their own here.
-/

namespace Praefectus.Native

/-! ### The desktop -/

inductive TargetOs where
  | linux | macos | windows | other
  deriving DecidableEq

structure CoordinateObservation where
  protocolVersion : UInt16
  snapshotId : String
  displayGeometryHash : String
  snapshotContentHash : String
  observedAtMs : Int64

/-- A handle on an element of another process. -/
structure AxElement where
  handle : Nat
  deriving DecidableEq

inductive Target where
  | point (point : NativePoint)
  | element (element : NativeElement)

/-- The calls of the backend that fail without saying why. -/
inductive InputCall where
  | click (point : NativePoint) (button : String)
  | moveCursor (point : NativePoint)
  | typeText (text : String) (clear pressReturn : Bool) (delayMs : Option UInt64)
  | press (key : String) (count : UInt32) (delayMs : Option UInt64)
  | paste (text : String)
  | hotkey (keys : List String)
  | scroll (direction : Direction) (amount : UInt32)

/-- The calls of the backend that tell what their error did. -/
inductive DeedCall where
  | drag (origin destination : NativePoint) (button : String) (deadlineAtMs : Int64)
  | elementSetValue (element : NativeElement) (value : String) (deadlineAtMs : Int64)
  | macSemanticScroll (element : AxElement) (name : String) (amount : UInt32) (deadlineAtMs : Int64)
  | macSemanticInvoke (element : AxElement) (deadlineAtMs : Int64)
  | macSemanticSetValue (element : AxElement) (value : String) (deadlineAtMs : Int64)
  | macSemanticSelectText (element : AxElement) (start length : UInt32) (deadlineAtMs : Int64)
  | macSemanticPerformSecondaryAction (element : AxElement) (name : String) (deadlineAtMs : Int64)

/-- The calls that find their element by the target itself. -/
inductive SemanticCall where
  | invoke (target : SemanticTargetRef) (deadlineAtMs : Int64)
  | setValue (target : SemanticTargetRef) (value : String) (deadlineAtMs : Int64)
  | scroll (target : SemanticTargetRef) (direction : Direction) (deadlineAtMs : Int64)

def SemanticCall.target : SemanticCall → SemanticTargetRef
  | .invoke target _ | .setValue target _ _ | .scroll target _ _ => target

structure Command where
  program : String
  arguments : List (List UInt8)

inductive CopyError where
  | failed | noInput

inductive DesktopOp where
  | isCancelled
  | now
  | directories
  | loadCoordinateObservation (snapshotId : String)
  | listScreens
  | screenContentHash
  | capabilities
  | globalInputAllowed
  | resolveRecordedElement (target : SemanticTargetRef) (deadlineAtMs : Int64)
  | macLiveActionability (element : AxElement) (native : NativeElement) (deadlineAtMs : Int64)
  | actions (element : AxElement)
  | connect
  | focusedTarget (deadlineAtMs : Int64)
  | sleep (delayMs : UInt64)
  | input (call : InputCall)
  | deed (call : DeedCall)
  | semantic (call : SemanticCall)
  | status (command : Command)
  | copy (text : String)

/-- The accessibility of the platform is connected to at its first use only. -/
abbrev DesktopOp.Answer : DesktopOp → Type
  | .isCancelled => Bool
  | .now => Int64
  | .directories => PathBuf → Bool
  | .loadCoordinateObservation _ => Except ProtocolError CoordinateObservation
  | .listScreens => Except NativeError Json
  | .screenContentHash => Except NativeError String
  | .capabilities => Except ProtocolError Capabilities
  | .globalInputAllowed => Bool
  | .resolveRecordedElement .. => Except ProtocolError (AxElement × NativeElement × Actionability)
  | .macLiveActionability .. => Except ProtocolError Actionability
  | .actions _ => Except NativeError (List String)
  | .connect => Except NativeError Unit
  | .focusedTarget _ => Except ProtocolError SemanticTargetRef
  | .sleep _ => Unit
  | .input _ => Except NativeError Unit
  | .deed _ => Except DispatchError Unit
  | .semantic _ => Except DispatchError DispatchReceipt
  | .status _ => Except NativeError Bool
  | .copy _ => Except CopyError Bool

abbrev Desktop : Interface := ⟨DesktopOp, DesktopOp.Answer⟩

def ask (op : DesktopOp) : Prog Desktop op.Answer := .ask op .ret

def boundary : Boundary Desktop := ⟨ask .isCancelled, ask .now⟩

/-! ### Resolving a target -/

/-- What an error of the backend says. -/
def backendMessage : String := "desktop backend error"

abbrev ResolveM := ExceptT ProtocolError (Prog Desktop)

def checkProtocolBoundary (deadlineAtMs : Int64) : ResolveM Unit := do
  if ← ask .isCancelled then throw .observationCancelled
  else if (← ask .now) ≥ deadlineAtMs then throw .observationExpired
  else pure ()

def orExecutor {α : Type} : Except NativeError α → ResolveM α
  | .ok value => pure value
  | .error _ => throw (.executor backendMessage)

def requireFresh (fresh : Bool) (message : String) : ResolveM Unit :=
  if fresh then pure () else throw (.staleTarget message)

def maxCoordinateObservationAgeMs : Int64 := 30000

def asI64 : Json → Option Int64
  | .int n => if -2 ^ 63 ≤ n.value ∧ n.value < 2 ^ 63 then some (.ofInt n.value) else none
  | _ => none

/-- The screen has the name, and the coordinate is on it. -/
def isOnScreen (x y : Int64) (displayId : String) (screen : Json) : Bool :=
  let idMatches := ["id", "name", "display_id"].any fun key =>
    (screen.get? key).bind Json.asStr = some displayId
  let bound (key : String) := (screen.get? key).bind asI64
  idMatches &&
    match bound "x", bound "y", bound "width", bound "height" with
    | some left, some top, some width, some height =>
      width > 0 && height > 0 && x ≥ left && y ≥ top && x < Atspi.saturatingAdd left width &&
        y < Atspi.saturatingAdd top height
    | _, _, _, _ => false

def resolveCoordinates (build : Build) (x y : Int64)
    (displayId displayGeometryHash snapshotId snapshotContentHash : String) :
    ResolveM ResolvedTarget := do
  let observation ← ExceptT.mk (ask (.loadCoordinateObservation snapshotId))
  let unmatched := "coordinate observation provenance does not match"
  requireFresh (observation.protocolVersion = protocolVersion &&
    observation.snapshotId = snapshotId &&
    observation.displayGeometryHash = displayGeometryHash &&
    observation.snapshotContentHash = snapshotContentHash) unmatched
  -- The clock is read twice, and only as far as the observation matches.
  let nowMs ← ask .now
  requireFresh (observation.observedAtMs ≤ nowMs) unmatched
  let nowMs ← ask .now
  requireFresh (saturatingSub nowMs observation.observedAtMs ≤ maxCoordinateObservationAgeMs) unmatched
  let screens ← orExecutor (← ask .listScreens)
  requireFresh (hashSerializable build screens = displayGeometryHash) "display geometry changed"
  let currentContentHash ← orExecutor (← ask .screenContentHash)
  requireFresh (currentContentHash = snapshotContentHash) "screen observation changed"
  requireFresh ((Cdp.asArray screens).any fun values => values.any (isOnScreen x y displayId))
    "coordinate is outside its named display"
  pure (.point ⟨x, y⟩)

def resolveWithBoundary (os : TargetOs) (build : Build) (target : TargetRef) (deadlineAtMs : Int64) :
    ResolveM ResolvedTarget := do
  checkProtocolBoundary deadlineAtMs
  match target with
  | .coordinates x y displayId displayGeometryHash snapshotId snapshotContentHash =>
    resolveCoordinates build x y displayId displayGeometryHash snapshotId snapshotContentHash
  | .element target =>
    match os with
    | .linux | .windows => pure (.semantic target)
    | .macos => do
      let _ ← (ExceptT.mk (ask (.resolveRecordedElement target deadlineAtMs)) : ResolveM _)
      pure (.semantic target)
    | .other => throw (.executor "semantic execution is unavailable")
  | .none => pure .none

/-! ### Calls -/

/-- How a dispatch fails: with an error, or in a branch taken for impossible. -/
inductive Fault where
  | error (error : DispatchError)
  | unreachable (message : String)
  deriving DecidableEq

abbrev NativeM := ExceptT Fault (Prog Desktop)

def fail {α : Type} (error : DispatchError) : NativeM α := throw (.error error)

def unreachable {α : Type} (message : String) : NativeM α := throw (.unreachable message)

/-- A program that fails with errors only. -/
def raise {α : Type} (x : DispatchM Desktop α) : NativeM α := ExceptT.mk do
  match ← x.run with
  | .ok a => pure (.ok a)
  | .error error => pure (.error (.error error))

def orFault {ε α : Type} (told : ε → DispatchError) : Except ε α → NativeM α
  | .ok value => pure value
  | .error e => fail (told e)

def input (call : InputCall) (error : DispatchError) : NativeM Unit := do
  orFault (fun _ => error) (← ask (.input call))

def deed (call : DeedCall) : NativeM Unit := do orFault id (← ask (.deed call))

def semantic (call : SemanticCall) : NativeM DispatchReceipt := do orFault id (← ask (.semantic call))

variable (os : TargetOs) (deadlineAtMs : Int64)

def backend : TargetOs → String
  | .windows => "praefectus-windows-uia"
  | .macos => "praefectus-macos-ax"
  | .linux => "praefectus-linux"
  | .other => "praefectus-unavailable"

/-- The receipt of a dispatch that has done its effect. -/
def receipt : NativeM DispatchReceipt := do
  raise (checkAfterEffect boundary deadlineAtMs)
  pure ⟨backend os, []⟩

/-- Pointer input is ambiguous as long as nothing verifies it. -/
def pointerReceipt (verification : VerificationPolicy) : NativeM DispatchReceipt :=
  if verification.isNone then fail (.ambiguous "native input event delivery cannot be verified")
  else receipt os deadlineAtMs

/-! ### Actions without a target -/

def command (program : String) (arguments : List (List UInt8)) : NativeM Bool := do
  orFault (fun _ => .ambiguous "desktop action dispatch failed")
    (← ask (.status ⟨program, arguments⟩))

def copyMessage : CopyError → String
  | .failed => "desktop action dispatch failed"
  | .noInput => "clipboard dispatch failed"

def windowScript : WindowOperation → String
  | .focus => "set frontmost to true"
  | .close => "click button 1 of first window whose name is windowName"
  | .minimize =>
    "set value of attribute \"AXMinimized\" of first window whose name is windowName to true"

/-- The command that does an action on macOS, and whether it succeeded. -/
def auxiliaryStatus : Action → Option (NativeM Bool)
  | .screenshot path => some (command "screencapture" ["-x".asBytes, path.bytes])
  | .application .quit name =>
    some (command "osascript" (["-e", "on run argv", "-e",
      "tell application (item 1 of argv) to quit", "-e", "end run", "--", name].map (·.asBytes)))
  | .application _ name => some (command "open" (["-a", name].map (·.asBytes)))
  | .window operation app title =>
    some (command "osascript" (["-e", "on run argv", "-e", "set appName to item 1 of argv", "-e",
      "set windowName to item 2 of argv", "-e",
      "tell application \"System Events\" to tell process appName", "-e", windowScript operation,
      "-e", "end tell", "-e", "end run", "--", app.getD "", title.getD ""].map (·.asBytes)))
  | .«open» target app noFocus =>
    let named := match app with
      | some app => ["-a", app]
      | none => []
    let background := if noFocus then ["-g"] else []
    some (command "open" ((named ++ background ++ ["--", target]).map (·.asBytes)))
  | .clipboardWrite text => some do
    orFault (fun e => .ambiguous (copyMessage e)) (← ask (.copy text))
  | _ => none

def auxiliaryUnavailable : Action → Option String
  | .screenshot _ => some "screenshot is unavailable on this backend"
  | .application .. => some "application actions are unavailable on this backend"
  | .window .. => some "window actions are unavailable on this backend"
  | .«open» .. => some "open is unavailable on this backend"
  | .clipboardWrite _ => some "clipboard actions are unavailable on this backend"
  | _ => none

def dispatchAuxiliary (action : Action) : NativeM (Option DispatchReceipt) :=
  match os with
  | .macos =>
    match auxiliaryStatus action with
    | none => pure none
    | some status => do
      raise (checkBeforeEffect boundary deadlineAtMs)
      let success ← status
      Prog.when (!success) (fail (.ambiguous "desktop action outcome is unknown"))
      let done ← receipt os deadlineAtMs
      pure (some done)
  | _ =>
    match auxiliaryUnavailable action with
    | none => pure none
    | some message => do
      raise (checkBeforeEffect boundary deadlineAtMs)
      fail (.unsupported message)

/-! ### Input -/

def validateLiveElement (node : NativeElement) : Bool :=
  let flag (key : String) := (node.state.json.get? key).bind Cdp.asBool
  let visible := flag "visible" = some true && flag "hidden" ≠ some true
  node.id ≠ "" && node.app ≠ "" && node.window.any (· ≠ "") && node.processId.getD 0 > 0 &&
    node.enabled = some true && visible &&
    node.bounds.any fun bounds => bounds.width > 0 && bounds.height > 0

def nativeTarget : ResolvedTarget → NativeM Target
  | .point point => pure (.point point)
  | .element element => pure (.element element)
  | .semantic _ => fail (.noEffect "semantic target was not routed")
  | .none => fail (.noEffect "action requires a target")

def click (button : String) : Target → NativeM Unit
  | .point point => input (.click point button) .ambiguousDispatch
  | .element _ => fail (.unsupported "click requires a pointer target")

def moveCursor : Target → NativeM Unit
  | .point point => input (.moveCursor point) .ambiguousDispatch
  | .element _ => fail .ambiguousDispatch

def setValue (value : String) : Target → NativeM Unit
  | .element element => deed (.elementSetValue element value deadlineAtMs)
  | .point _ => fail (.unsupported "set_value requires an element target")

/-- Repeats a call, with a check before each one. -/
def repeatedly (count : UInt32) (interrupted : String) (body : Nat → NativeM Unit) : NativeM Unit :=
  (List.range count.toNat).forM fun index => do
    raise (checkPartialDispatch boundary deadlineAtMs index interrupted)
    body index

def pressOnce (key : String) (count : UInt32) (delayMs : Option UInt64) (index : Nat) :
    NativeM Unit := do
  input (.press key 1 none) .ambiguousDispatch
  match delayMs with
  | some delay => Prog.when (index + 1 < count.toNat) (ask (.sleep delay))
  | none => pure ()

def sendTypeText (text : String) (clear pressReturn : Bool) (delayMs : Option UInt64) :
    Prog Desktop (Except NativeError Unit) :=
  ask (.input (.typeText text clear pressReturn delayMs))

/-- What takes the keyboard or the pointer of the session. -/
def usesGlobalInput : Action → Bool
  | .click .. | .move | .drag .. | .scroll .. | .typeText .. | .press .. | .paste _ | .hotkey _ => true
  | _ => false

/-- The drag of a point to a target, which is resolved anew. -/
def drag (build : Build) (target : ResolvedTarget) (destination : TargetRef) (button : MouseButton) :
    NativeM Unit := do
  Prog.when (button ≠ .left) (fail (.unsupported "drag supports only the left button"))
  match target with
  | .point origin =>
    let resolved ← (resolveWithBoundary os build destination deadlineAtMs).run
    match ← orFault (fun _ => .noEffect "drag destination is not fenced") resolved with
    | .point destination =>
      raise (checkBeforeEffect boundary deadlineAtMs)
      deed (.drag origin destination "left" deadlineAtMs)
    | _ => fail (.noEffect "drag destination is not a fenced coordinate")
  | _ => fail (.noEffect "drag requires a fenced coordinate target")

/-- The input of every action but typing. -/
def dispatchOthers (build : Build) (target : ResolvedTarget) (verification : VerificationPolicy) :
    Action → NativeM DispatchReceipt
  | .invoke => unreachable "semantic invoke handled above"
  | .typeText .. => unreachable "type text handled above"
  | .click button count _ => do
    Prog.when (button = .middle && os ≠ .windows)
      (fail (.unsupported "middle click is not reliable on this backend"))
    Prog.when ((target matches .element _) && button ≠ .left)
      (fail (.unsupported "semantic elements support only the accessibility press action"))
    repeatedly deadlineAtMs count "click interrupted after partial dispatch" fun _ => do
      click button.text (← nativeTarget target)
    pointerReceipt os deadlineAtMs verification
  | .press key count delayMs => do
    repeatedly deadlineAtMs count "press interrupted after partial dispatch"
      (pressOnce key count delayMs)
    receipt os deadlineAtMs
  | .paste text => do
    input (.paste text) (.ambiguous backendMessage)
    receipt os deadlineAtMs
  | .hotkey keys => do
    input (.hotkey keys) (.ambiguous backendMessage)
    receipt os deadlineAtMs
  | .scroll direction amount => do
    repeatedly deadlineAtMs amount "scroll interrupted after partial dispatch" fun _ =>
      input (.scroll direction 1) .ambiguousDispatch
    receipt os deadlineAtMs
  | .move => do
    raise (checkBeforeEffect boundary deadlineAtMs)
    moveCursor (← nativeTarget target)
    pointerReceipt os deadlineAtMs verification
  | .drag destination button => do
    drag os deadlineAtMs build target destination button
    pointerReceipt os deadlineAtMs verification
  | .selectText .. | .performSecondaryAction _ =>
    fail (.noEffect "action requires a fenced semantic element target")
  | .setValue value => do
    Prog.when (os ≠ .macos) (fail (.unsupported "set_value is unavailable on this backend"))
    let bounded := match target with
      | .element element => element.bounds.isSome
      | _ => false
    Prog.when (!bounded) (fail (.noEffect "set_value requires an element with bounds"))
    raise (checkBeforeEffect boundary deadlineAtMs)
    setValue deadlineAtMs value (← nativeTarget target)
    receipt os deadlineAtMs
  | .screenshot _ | .application .. | .window .. | .«open» .. | .clipboardWrite _ =>
    unreachable "auxiliary action handled above"

/-- The input of an action, after what is checked for all of them. -/
def dispatchInput (build : Build) (target : ResolvedTarget) (verification : VerificationPolicy) :
    Action → NativeM DispatchReceipt
  | .typeText text clear pressReturn delayMs => do
    raise (dispatchTypeText boundary deadlineAtMs sendTypeText text clear pressReturn delayMs)
    receipt os deadlineAtMs
  | action => dispatchOthers os deadlineAtMs build target verification action

/-! ### Dispatch -/

def requireUsable : ResolvedTarget → NativeM Unit
  | .point _ => pure ()
  | .none => fail (.noEffect "action requires a fenced target")
  | .element element =>
    Prog.when (!validateLiveElement element) (fail (.noEffect "semantic target is unavailable"))
  | .semantic _ => unreachable "semantic target handled above"

def isRepeatedClick : Action → Bool
  | .click _ count _ => count > 1
  | _ => false

/-- A dispatch to a target that is not semantic. -/
def dispatchNative (build : Build) (deliveryPid : Int32) (action : Action) (target : ResolvedTarget)
    (verification : VerificationPolicy) : NativeM DispatchReceipt := do
  requireUsable target
  Prog.when ((target matches .element _) && isRepeatedClick action)
    (fail (.unsupported "repeated semantic clicks are unavailable"))
  let capabilities ← orFault (fun _ => .unsupported "runtime capabilities are unavailable")
    (← ask .capabilities)
  Prog.when (!capabilities.supportedActions.contains action.name)
    (fail (.unsupported "action is unavailable with current permissions or backend"))
  let perProcessDelivery := os = .macos && deliveryPid > 0
  let allowed ← ask .globalInputAllowed
  Prog.when (!allowed && !perProcessDelivery && usesGlobalInput action)
    (fail (.noEffect "global input delivery is disabled for this host"))
  dispatchInput os deadlineAtMs build target verification action

/-- A dispatch, with what it does for a semantic target. -/
def dispatchWith (semantically : Action → SemanticTargetRef → NativeM DispatchReceipt)
    (build : Build) (deliveryPid : Int32) (action : Action) (target : ResolvedTarget)
    (verification : VerificationPolicy) : NativeM DispatchReceipt := do
  raise (checkBeforeEffect boundary deadlineAtMs)
  let isDir ← ask .directories
  orFault (fun _ => .noEffect "action parameters are invalid") (validateAction isDir action)
  match ← dispatchAuxiliary os deadlineAtMs action with
  | some done => pure done
  | none => do
    Prog.when ((action matches .setValue _) && !(verification matches .targetValueHash _))
      (fail (.noEffect "set_value requires target value hash verification"))
    match target with
    | .semantic target => semantically action target
    | _ => dispatchNative os deadlineAtMs build deliveryPid action target verification

/-! ### Semantic targets -/

/-- How a semantic dispatch goes on where an element has the focus: the process its input is
delivered to, the action and the target. -/
abbrev Redispatch := Int32 → Action → ResolvedTarget → NativeM DispatchReceipt

def goesToFocus : Action → Bool
  | .typeText .. | .press .. | .paste _ | .hotkey _ | .scroll .. => true
  | _ => false

def macActionabilityAllows (action : Action) (actionability : Actionability) : Bool :=
  let base := actionability.visible && actionability.enabled && actionability.unambiguous &&
    actionability.stable
  match action with
  | .invoke => base && actionability.invokable
  | .setValue _ | .selectText .. => base && actionability.editable
  | .performSecondaryAction name =>
    base && (!(["AXConfirm", "AXCancel", "AXPick", "AXIncrement", "AXDecrement"].contains name) ||
      actionability.invokable)
  | .typeText .. | .press .. | .paste _ | .hotkey _ | .scroll .. => base
  | _ => false

def macActionabilityMatchesObservation (action : Action) (observed live : Actionability) : Bool :=
  observed = live && macActionabilityAllows action live

def macScrollActionName : Direction → Option String
  | .up => some "AXScrollUpByPage"
  | .down => some "AXScrollDownByPage"
  | .left => some "AXScrollLeftByPage"
  | .right => some "AXScrollRightByPage"

def semanticError (changed : String) : ProtocolError → DispatchError
  | .observationCancelled => .interrupted .cancelledBeforeEffect
  | .observationExpired => .interrupted .expiredBeforeEffect
  | _ => .noEffect changed

/-- The element of a target, found anew and as actionable as it was observed. -/
def macElement (action : Action) (target : SemanticTargetRef) :
    NativeM (AxElement × NativeElement) := do
  raise (checkBeforeEffect boundary deadlineAtMs)
  let (element, native, actionability) ← orFault (semanticError "semantic target changed")
    (← ask (.resolveRecordedElement target deadlineAtMs))
  Prog.when (!macActionabilityAllows action actionability)
    (fail (.noEffect "semantic target is not actionable"))
  let live ← orFault (semanticError "semantic target actionability changed")
    (← ask (.macLiveActionability element native deadlineAtMs))
  Prog.when (!macActionabilityMatchesObservation action actionability live)
    (fail (.noEffect "semantic target actionability changed"))
  pure (element, native)

/-- The action of the element that scrolls it, where it has one. -/
def scrollAction (element : AxElement) : Action → NativeM (Option (String × UInt32))
  | .scroll direction amount =>
    match macScrollActionName direction with
    | some name => do
      match ← ask (.actions element) with
      | .ok actions => pure (if actions.contains name then some (name, amount) else none)
      | .error _ => pure none
    | none => pure none
  | _ => pure none

def macDeed (element : AxElement) : Action → NativeM Unit
  | .invoke => deed (.macSemanticInvoke element deadlineAtMs)
  | .setValue value => deed (.macSemanticSetValue element value deadlineAtMs)
  | .selectText start length => deed (.macSemanticSelectText element start length deadlineAtMs)
  | .performSecondaryAction name =>
    deed (.macSemanticPerformSecondaryAction element name deadlineAtMs)
  | _ => fail (.unsupported "semantic action is unavailable")

def isFocused (native : NativeElement) : Bool :=
  (native.state.json.get? "focused").bind Cdp.asBool = some true

def macDispatchSemantic (redispatch : Redispatch) (action : Action) (target : SemanticTargetRef) :
    NativeM DispatchReceipt := do
  let (element, native) ← macElement deadlineAtMs action target
  match ← scrollAction element action with
  | some (name, amount) =>
    deed (.macSemanticScroll element name amount deadlineAtMs)
    pure ⟨"praefectus-macos-ax", []⟩
  | none =>
    if goesToFocus action then
      Prog.when (!isFocused native) (fail (.noEffect "semantic target is not focused"))
      redispatch (native.processId.getD 0) action (.element native)
    else
      macDeed deadlineAtMs element action
      raise (checkAfterEffect boundary deadlineAtMs)
      pure ⟨"praefectus-macos-ax", []⟩

/-- Goes on at the focus, if that is the target. -/
def dispatchToFocus (redispatch : Redispatch) (action : Action) (target : SemanticTargetRef) :
    NativeM DispatchReceipt := do
  let focused ← orFault (fun _ => .noEffect "focused target changed")
    (← ask (.focusedTarget deadlineAtMs))
  Prog.when (focused ≠ target) (fail (.noEffect "semantic target is not focused"))
  redispatch 0 action (.point ⟨0, 0⟩)

def linuxDispatchSemantic (redispatch : Redispatch) (action : Action) (target : SemanticTargetRef) :
    NativeM DispatchReceipt := do
  orFault (fun _ => .unsupported "accessibility backend is unavailable") (← ask .connect)
  if goesToFocus action then dispatchToFocus deadlineAtMs redispatch action target
  else
    match action with
    | .invoke => semantic (.invoke target deadlineAtMs)
    | .setValue value => semantic (.setValue target value deadlineAtMs)
    | _ => fail (.unsupported "semantic action is unavailable")

def windowsDispatchSemantic (redispatch : Redispatch) (action : Action)
    (target : SemanticTargetRef) : NativeM DispatchReceipt :=
  if goesToFocus action then dispatchToFocus deadlineAtMs redispatch action target
  else
    match action with
    | .invoke => semantic (.invoke target deadlineAtMs)
    | .setValue value => semantic (.setValue target value deadlineAtMs)
    | .scroll direction 1 => semantic (.scroll target direction deadlineAtMs)
    | _ => fail (.unsupported "semantic action is unavailable")

def dispatchSemantic (redispatch : Redispatch) (action : Action) (target : SemanticTargetRef) :
    NativeM DispatchReceipt :=
  match os with
  | .macos => macDispatchSemantic deadlineAtMs redispatch action target
  | .linux => linuxDispatchSemantic deadlineAtMs redispatch action target
  | .windows => windowsDispatchSemantic deadlineAtMs redispatch action target
  | .other => fail (.unsupported "semantic action is unavailable")

/-- The second dispatch. Its target is not semantic, so it does not dispatch a third time. -/
def redispatch (build : Build) : Redispatch := fun deliveryPid action target =>
  dispatchWith os deadlineAtMs (fun _ _ => unreachable "semantic target handled above") build
    deliveryPid action target .none

def dispatch (build : Build) (deliveryPid : Int32) (action : Action) (target : ResolvedTarget)
    (verification : VerificationPolicy) : NativeM DispatchReceipt :=
  dispatchWith os deadlineAtMs (dispatchSemantic os deadlineAtMs (redispatch os deadlineAtMs build))
    build deliveryPid action target verification

theorem dispatchWith_native {semantically semantically' : Action → SemanticTargetRef →
    NativeM DispatchReceipt} {build : Build} {deliveryPid : Int32} {action : Action}
    {target : ResolvedTarget} {verification : VerificationPolicy}
    (native : ∀ ref, target ≠ .semantic ref) :
    dispatchWith os deadlineAtMs semantically build deliveryPid action target verification =
      dispatchWith os deadlineAtMs semantically' build deliveryPid action target verification := by
  cases target with
  | semantic ref => exact absurd rfl (native ref)
  | _ => rfl

/-- The executor's own recursion: a second dispatch is a dispatch. -/
theorem dispatch_redispatches (build : Build) (deliveryPid : Int32) (action : Action)
    {target : ResolvedTarget} (native : ∀ ref, target ≠ .semantic ref) :
    redispatch os deadlineAtMs build deliveryPid action target =
      dispatch os deadlineAtMs build deliveryPid action target .none :=
  dispatchWith_native os deadlineAtMs native

end Praefectus.Native
