import Praefectus.Observe.CdpProbe
import Praefectus.Program.Handled

/-!
# Effects on a page

An element of the latest observation is invoked, scrolled, or given a value. Before the one
function that changes the page is called, the executor looks at the element again; after it, at
what the function did. Its errors say whether the page may have been changed.
-/

/-! ### Doubles -/

def natOfDigits (digits : List Char) : Nat :=
  digits.foldl (fun n c => 10 * n + (c.toNat - '0'.toNat)) 0

def exponentOf : List Char → Int
  | [] => 0
  | _ :: rest =>
    let (sign, digits) := splitSign rest
    if sign = ['-'] then -natOfDigits digits else natOfDigits digits

/-- The double that a literal prints. -/
def FloatLiteral.toFloat (f : FloatLiteral) : Float :=
  let fraction := f.fraction.drop 1
  let exponent := exponentOf f.exponent - fraction.length
  let magnitude := Float.ofScientific (natOfDigits (f.whole ++ fraction)) (exponent < 0)
    exponent.natAbs
  if f.negative then -magnitude else magnitude

def Json.asF64 : Json → Option Float
  | .int n => some (.ofInt n.value)
  | .float value => some value.toFloat
  | _ => none

namespace Praefectus.Cdp.CdpExecutor

open Prog Json

/-! ### What a dispatch asks -/

/-- Beside the questions to the browser, a dispatch reads a monotonic clock and sleeps; both
count nanoseconds. -/
inductive LiveOp where
  | browser (op : BrowserOp)
  | instant
  | sleep (nanoseconds : Nat)

abbrev LiveBrowser : Interface where
  Op := LiveOp
  Ans
    | .browser op => Browser.Ans op
    | .instant => Nat
    | .sleep _ => Unit

abbrev EffectM := ExceptT DispatchError (Prog LiveBrowser)

def live (op : LiveOp) : EffectM (LiveBrowser.Ans op) := monadLift (perform (I := LiveBrowser) op)

/-- What is asked of the browser alone. -/
def onBrowser {α : Type} : Prog Browser α → Prog LiveBrowser α := Prog.rename .browser fun _ ans => ans

/-- The value of an answer. -/
def told {α ε : Type} (error : DispatchError) : Except ε α → EffectM α
  | .ok value => pure value
  | .error _ => throw error

def present {α : Type} (error : DispatchError) : Option α → EffectM α
  | some value => pure value
  | none => throw error

/-! ### Errors -/

def noEffect (message : String) : DispatchError := ⟨message, .noEffect, .staleTarget⟩

def unknown (message : String) : DispatchError := ⟨message, .unknown, .dispatchFailed⟩

def unsupported : DispatchError := ⟨"browser action is unsupported", .noEffect, .unsupported⟩

def cancelledBefore : DispatchError :=
  ⟨"browser effect cancelled before dispatch", .cancelledBeforeEffect, .dispatchFailed⟩

def expiredBefore : DispatchError :=
  ⟨"browser effect expired before dispatch", .expiredBeforeEffect, .dispatchFailed⟩

def atBoundary : DispatchError :=
  unknown "browser effect completed at the cancellation or deadline boundary"

def successReceipt : DispatchReceipt := ⟨backendName, []⟩

/-! ### Functions in the page -/

/-- The texts of the functions that are called in the page: three that look at it, and three
that change it. -/
structure Scripts where
  probe : String
  protectedProbe : String
  scrollProbe : String
  scrollEffect : String
  invokeEffect : String
  setValueEffect : String
  distinct : [probe, protectedProbe, scrollProbe, scrollEffect, invokeEffect, setValueEffect].Nodup

def callMethod : String := "Runtime.callFunctionOn"

def probeParameters (objectId declaration : String) : Json := .obj [
  ("objectId", .str objectId),
  ("functionDeclaration", .str declaration),
  ("awaitPromise", .bool true),
  ("returnByValue", .bool true)]

def scrollProbeParameters (scripts : Scripts) (objectId : String) : Json := .obj [
  ("objectId", .str objectId),
  ("functionDeclaration", .str scripts.scrollProbe),
  ("returnByValue", .bool true)]

def invokeParameters (scripts : Scripts) (objectId : String) : Json := .obj [
  ("objectId", .str objectId),
  ("functionDeclaration", .str scripts.invokeEffect),
  ("returnByValue", .bool true)]

def setValueParameters (scripts : Scripts) (objectId value : String) : Json := .obj [
  ("objectId", .str objectId),
  ("functionDeclaration", .str scripts.setValueEffect),
  ("arguments", .arr [.obj [("value", .str value)]]),
  ("returnByValue", .bool true)]

def scrollDeltaCssPx : Int64 := 100

def scrollDirectionName : Direction → String
  | .up => "up"
  | .down => "down"
  | .left => "left"
  | .right => "right"

def scrollAxisDelta : Direction → String × Int64
  | .up => ("y", -scrollDeltaCssPx)
  | .down => ("y", scrollDeltaCssPx)
  | .left => ("x", -scrollDeltaCssPx)
  | .right => ("x", scrollDeltaCssPx)

def scrollParameters (scripts : Scripts) (objectId : String) (direction : Direction) : Json :=
  let (axis, delta) := scrollAxisDelta direction
  .obj [
    ("objectId", .str objectId),
    ("functionDeclaration", .str scripts.scrollEffect),
    ("arguments", .arr [.obj [("value", .str axis)], .obj [("value", ofInt64 delta)]]),
    ("returnByValue", .bool true)]

/-! ### Boundaries -/

section

variable (build : Build) (config : CdpConfig) (scripts : Scripts) (deadlineAtMs : Int64)

/-- Cancellation is asked before the clock. -/
def checkEffectBoundary : EffectM Unit := do
  if (← live (.browser .isCancelled)) = true then throw cancelledBefore
  else if deadlineAtMs ≤ (← live (.browser .nowMs)) then throw expiredBefore
  else pure ()

def checkAfterEffectBoundary : EffectM Unit := do
  if (← live (.browser .isCancelled)) = true then throw atBoundary
  else if deadlineAtMs ≤ (← live (.browser .nowMs)) then throw atBoundary
  else pure ()

/-- Something is asked between two boundaries; its own error comes after them. -/
def betweenBoundaries {α : Type} (error : DispatchError) (x : ProbeM α) : EffectM α := do
  checkEffectBoundary deadlineAtMs
  let result : Except ProtocolError α ← monadLift (onBrowser x.run)
  checkEffectBoundary deadlineAtMs
  told error result

def verifyProcessForEffect : EffectM Unit :=
  betweenBoundaries deadlineAtMs (noEffect "browser process changed") verifyProcess

def currentDocumentIdForEffect : EffectM String :=
  betweenBoundaries deadlineAtMs (noEffect "browser document is unavailable")
    (currentDocumentId build config deadlineAtMs)

def resolveObjectForEffect (backendNodeId executionContextId : UInt64) : EffectM String :=
  betweenBoundaries deadlineAtMs (noEffect "browser target changed")
    (resolveObject backendNodeId executionContextId deadlineAtMs)

/-! ### Commands -/

def outcomeUnknown : DispatchError := unknown "browser effect outcome is unknown"

/-- A command that has an effect, or one after it. Once something was sent, an error does not
say what came of it. -/
def effectCommand (method : String) (parameters : Json) (effectStarted : Bool) : EffectM Json := do
  if effectStarted then checkAfterEffectBoundary deadlineAtMs
  else checkEffectBoundary deadlineAtMs
  let result : Except CdpChannelError Json ← present
    (if effectStarted then outcomeUnknown else noEffect "browser channel is unavailable")
    (← live (.browser (.command method parameters deadlineAtMs)))
  match result with
  | .ok value => pure value
  | .error error =>
    if effectStarted then throw outcomeUnknown
    else match error with
      | .afterSend => throw outcomeUnknown
      | .beforeSend => do
        checkEffectBoundary deadlineAtMs
        throw (noEffect "browser effect was not dispatched")

def queryForEffect (method : String) (parameters : Json) : EffectM Json := do
  checkEffectBoundary deadlineAtMs
  let result : Except CdpChannelError Json ← present (noEffect "browser channel is unavailable")
    (← live (.browser (.command method parameters deadlineAtMs)))
  checkEffectBoundary deadlineAtMs
  told (noEffect "browser target is unavailable") result

structure EffectProbe where
  isProtected : Bool
  revealValue : Bool
  effectStarted : Bool

/-- The function in the page is the one for protected elements, unless the value is to be
revealed. -/
def probeObjectForEffect (objectId : String) (options : EffectProbe) : EffectM Json := do
  let declaration :=
    if options.isProtected && !options.revealValue then scripts.protectedProbe else scripts.probe
  let parameters := probeParameters objectId declaration
  let response ←
    if options.effectStarted then effectCommand deadlineAtMs callMethod parameters true
    else queryForEffect deadlineAtMs callMethod parameters
  let error := if options.effectStarted then outcomeUnknown else noEffect "browser target changed"
  if (response.get? "exceptionDetails").isSome then throw error
  else present error (pointer response ["result", "value"])

/-! ### The element again -/

structure LiveTargetRequirements where
  invokable : Bool
  editable : Bool

/-- Why a tree does not have the one node. -/
def liveAxError (tree : Json) (backendNodeId : UInt64) : DispatchError :=
  match (tree.get? "nodes").bind asArray with
  | some nodes =>
    if 2 ≤ (nodes.filter (isLive backendNodeId)).length then noEffect "browser target is ambiguous"
    else noEffect "browser target changed"
  | none => noEffect "browser target changed"

/-- The element still is what it was observed to be. -/
def meetsRequirements (requirements : LiveTargetRequirements) (semantics : AxSemantics) : Bool :=
  semantics.visible && semantics.enabled &&
    (!requirements.invokable || semantics.invokable) &&
    (!requirements.editable || semantics.editable)

def verifyLiveTargetForEffect (target : NodeIdentity) (requirements : LiveTargetRequirements) :
    EffectM Unit := do
  let layout ← queryForEffect deadlineAtMs "Page.getLayoutMetrics" (.obj [])
  let viewport ← present (noEffect "browser viewport is unavailable") (viewportOf layout)
  if hashSerializable build viewport ≠ target.displayGeometryHash then
    throw (noEffect "browser viewport changed")
  else
    let documentId ← currentDocumentIdForEffect build config deadlineAtMs
    let tree ← queryForEffect deadlineAtMs "Accessibility.getPartialAXTree" (.obj [
      ("backendNodeId", ofUInt64 target.backendNodeId),
      ("fetchRelatives", .bool false)])
    let semantics ← present (liveAxError tree target.backendNodeId)
      (liveAxSemantics tree target.backendNodeId)
    let fingerprintHash := axFingerprint build documentId target.backendNodeId semantics
    if fingerprintHash ≠ target.fingerprintHash ∨ ¬ meetsRequirements requirements semantics then
      throw (noEffect "browser target changed")
    else pure ()

/-- The member is `true`. -/
def isTrue (value : Json) (key : String) : Bool := (value.get? key).bind asBool = some true

def eligible (response : Json) : Option Bool :=
  (pointer response ["result", "value", "eligible"]).bind asBool

/-! ### Dispatches -/

/-- What came of the function in the page. -/
def settleInvoke (response : Json) : EffectM DispatchReceipt := do
  checkAfterEffectBoundary deadlineAtMs
  if (response.get? "exceptionDetails").isSome then
    throw (unknown "browser invoke outcome is unknown")
  else match eligible response with
    | some true => pure successReceipt
    | some false => throw (noEffect "browser target is not invokable")
    | none => throw (unknown "browser invoke outcome is unknown")

def dispatchInvoke (target : NodeIdentity) : EffectM DispatchReceipt := do
  checkEffectBoundary deadlineAtMs
  verifyProcessForEffect deadlineAtMs
  let objectId ← resolveObjectForEffect deadlineAtMs target.backendNodeId target.executionContextId
  let probe ← probeObjectForEffect scripts deadlineAtMs objectId ⟨target.isProtected, false, false⟩
  if !(isTrue probe "connected" && isTrue probe "visible" && isTrue probe "enabled") then
    throw (noEffect "browser target is not actionable")
  else
    checkEffectBoundary deadlineAtMs
    verifyProcessForEffect deadlineAtMs
    verifyLiveTargetForEffect build config deadlineAtMs target ⟨true, false⟩
    checkEffectBoundary deadlineAtMs
    verifyProcessForEffect deadlineAtMs
    settleInvoke deadlineAtMs
      (← effectCommand deadlineAtMs callMethod (invokeParameters scripts objectId) false)

def maxEditBytes : Nat := 64 * 1024

/-- What the element says of its value after it was set. -/
def confirms (probe : Json) (value : String) : Bool :=
  (probe.get? "valueHash").bind asStr = some (hashBytes build value.asBytes) &&
    (probe.get? "valueLength").bind asU64 = some (.ofNat value.utf8ByteSize) &&
    (probe.get? "valueTooLarge").bind asBool = some false

/-- The value is read back, also from a protected element. -/
def settleSetValue (target : NodeIdentity) (objectId value : String) (response : Json) :
    EffectM DispatchReceipt := do
  checkAfterEffectBoundary deadlineAtMs
  if (response.get? "exceptionDetails").isSome then
    throw (unknown "browser value outcome is unknown")
  else match eligible response with
    | some false => throw (noEffect "browser target is not editable")
    | none => throw (unknown "browser value outcome is unknown")
    | some true => do
      let verified : Except ProtocolError Unit ← monadLift (onBrowser verifyProcess.run)
      told outcomeUnknown verified
      let after ← probeObjectForEffect scripts deadlineAtMs objectId ⟨target.isProtected, true, true⟩
      if confirms build after value then pure successReceipt
      else throw (unknown "browser value verification failed")

def dispatchSetValue (target : NodeIdentity) (value : String) : EffectM DispatchReceipt := do
  checkEffectBoundary deadlineAtMs
  if value.utf8ByteSize > maxEditBytes then throw (noEffect "browser value is too large")
  else
    verifyProcessForEffect deadlineAtMs
    let objectId ←
      resolveObjectForEffect deadlineAtMs target.backendNodeId target.executionContextId
    let probe ← probeObjectForEffect scripts deadlineAtMs objectId ⟨target.isProtected, false, false⟩
    if !(isTrue probe "connected" && isTrue probe "visible" && isTrue probe "enabled" &&
        isTrue probe "editable") then
      throw (noEffect "browser target is not actionable")
    else
      verifyLiveTargetForEffect build config deadlineAtMs target ⟨false, true⟩
      checkEffectBoundary deadlineAtMs
      verifyProcessForEffect deadlineAtMs
      settleSetValue build scripts deadlineAtMs target objectId value
        (← effectCommand deadlineAtMs callMethod (setValueParameters scripts objectId value) false)

/-! ### Scrolling -/

def isWithin (value bound : Float) : Bool := decide (0 ≤ value) && decide (value < bound)

/-- The corners of a box, each with its two coordinates. -/
abbrev Quad := Vector Float 8

def finite (value : Json) : Option Float := value.asF64.filter Float.isFinite

def borderQuad (response : Json) : Option Quad := do
  let values ← (pointer response ["model", "border"]).bind asArray
  let numbers ← values.mapM finite
  if eight : numbers.length = 8 then some ⟨numbers.toArray, eight⟩ else none

def noStableBox : DispatchError := noEffect "browser target has no stable box"

def stabilityToleranceCssPx : Float := 0.25

def isStable (first second : Quad) : Bool :=
  (first.toList.zip second.toList).all fun (a, b) =>
    !decide (stabilityToleranceCssPx < Float.abs (a - b))

def outsideViewport : DispatchError := noEffect "browser target is outside the viewport"

/-- The middle of the box, in the viewport. -/
def viewportPoint (quad : Quad) (layout : Json) : Except DispatchError (Int64 × Int64) := do
  let unavailable := noEffect "browser viewport is unavailable"
  let viewport ← (viewportOf layout).elim (throw unavailable) pure
  let pageX := ((viewport.get? "pageX").bind asF64).getD 0
  let pageY := ((viewport.get? "pageY").bind asF64).getD 0
  let size (key : String) : Option Float :=
    ((viewport.get? key).bind finite).filter fun value => decide (0 < value)
  let width ← (size "clientWidth").elim (throw unavailable) pure
  let height ← (size "clientHeight").elim (throw unavailable) pure
  let inside (x y : Float) : Bool := isWithin (x - pageX) width && isWithin (y - pageY) height
  if !(inside quad[0] quad[1] && inside quad[2] quad[3] && inside quad[4] quad[5] &&
      inside quad[6] quad[7]) then throw outsideViewport
  else
    let x := ((quad[0] + quad[2] + quad[4] + quad[6]) / 4 - pageX).round
    let y := ((quad[1] + quad[3] + quad[5] + quad[7]) / 4 - pageY).round
    if !(isWithin x width && isWithin y height) then throw outsideViewport
    else pure (x.toInt64, y.toInt64)

def stabilitySampleDelay : Nat := 16000000

def stabilityWaitSlice : Nat := 2000000

/-- What of the time is left of the deadline, in nanoseconds. -/
def remainingOf (deadlineAtMs nowMs : Int64) : Option Nat :=
  let remaining := saturatingSub deadlineAtMs nowMs
  if remaining ≤ 0 then none else some (remaining.toInt.toNat * 1000000)

/-- The rounds of the loop; a wait that has not come to an end after them stays in it. -/
def waitFrom (started : Nat) : Nat → EffectM Unit
  | 0 => do
    let _ ← live (.browser .spin)
    throw noStableBox
  | rounds + 1 => do
    checkEffectBoundary deadlineAtMs
    let remaining := stabilitySampleDelay - ((← live .instant) - started)
    if remaining = 0 then pure ()
    else match remainingOf deadlineAtMs (← live (.browser .nowMs)) with
      | none => checkEffectBoundary deadlineAtMs
      | some deadlineRemaining => do
        live (.sleep (min (min remaining stabilityWaitSlice) deadlineRemaining))
        waitFrom started rounds

def waitForStabilitySample (rounds : Nat) : EffectM Unit := do
  waitFrom deadlineAtMs (← live .instant) rounds

def notScrollable : DispatchError := noEffect "browser target is not scrollable"

/-- The offset went where it was to go, and in the direction. -/
def scrolled (direction : Direction) (before intended after : Float) : Bool :=
  (after == intended) && match direction with
    | .up | .left => decide (after < before)
    | .down | .right => decide (before < after)

def scrollUnknown : DispatchError := unknown "browser scroll outcome is unknown"

def settleScroll (direction : Direction) (response : Json) : EffectM DispatchReceipt := do
  checkAfterEffectBoundary deadlineAtMs
  if (response.get? "exceptionDetails").isSome then throw scrollUnknown
  else
    let result ← present scrollUnknown (pointer response ["result", "value"])
    match (result.get? "eligible").bind asBool with
    | some false => throw notScrollable
    | none => throw scrollUnknown
    | some true => do
      let before ← present scrollUnknown ((result.get? "before").bind finite)
      let intended ← present scrollUnknown ((result.get? "intended").bind finite)
      let after ← present scrollUnknown ((result.get? "after").bind finite)
      if scrolled direction before intended after then pure successReceipt
      else throw (unknown "browser scroll verification failed")

def dispatchScroll (rounds : Nat) (target : NodeIdentity) (direction : Direction) :
    EffectM DispatchReceipt := do
  let boxModel : EffectM Json := queryForEffect deadlineAtMs "DOM.getBoxModel"
    (.obj [("backendNodeId", ofUInt64 target.backendNodeId)])
  checkEffectBoundary deadlineAtMs
  verifyProcessForEffect deadlineAtMs
  let objectId ← resolveObjectForEffect deadlineAtMs target.backendNodeId target.executionContextId
  let probe ← queryForEffect deadlineAtMs callMethod (scrollProbeParameters scripts objectId)
  let probe ← present (noEffect "browser target changed") (pointer probe ["result", "value"])
  if !(isTrue probe "connected" && isTrue probe "visible" && isTrue probe "enabled" &&
      isTrue probe "receives" && isTrue probe (scrollDirectionName direction)) then
    throw notScrollable
  else
    let firstBox ← boxModel
    waitForStabilitySample deadlineAtMs rounds
    let secondBox ← boxModel
    let firstQuad ← present noStableBox (borderQuad firstBox)
    let secondQuad ← present noStableBox (borderQuad secondBox)
    if !isStable firstQuad secondQuad then throw (noEffect "browser target is not stable")
    else
      let layout ← queryForEffect deadlineAtMs "Page.getLayoutMetrics" (.obj [])
      let point ← ExceptT.mk (.ret (viewportPoint secondQuad layout))
      let hit ← queryForEffect deadlineAtMs "DOM.getNodeForLocation" (.obj [
        ("x", ofInt64 point.1),
        ("y", ofInt64 point.2),
        ("includeUserAgentShadowDOM", .bool true),
        ("ignorePointerEventsNone", .bool false)])
      -- what is at the point is the element itself
      if (hit.get? "backendNodeId").bind asU64 ≠ some target.backendNodeId then
        throw (noEffect "browser target does not receive events")
      else
        checkEffectBoundary deadlineAtMs
        verifyProcessForEffect deadlineAtMs
        verifyLiveTargetForEffect build config deadlineAtMs target ⟨false, false⟩
        let probe ← queryForEffect deadlineAtMs callMethod (scrollProbeParameters scripts objectId)
        if !(pointer probe ["result", "value"]).any (isTrue · (scrollDirectionName direction)) then
          throw notScrollable
        else
          checkEffectBoundary deadlineAtMs
          verifyProcessForEffect deadlineAtMs
          settleScroll deadlineAtMs direction
            (← effectCommand deadlineAtMs callMethod (scrollParameters scripts objectId direction) false)

/-! ### The executor -/

/-- Only single steps are scrolled, and they are not verified. A click is no action of a page. -/
def isUnsupported (action : Action) (verification : VerificationPolicy) : Bool :=
  match action with
  | .scroll _ amount => amount ≠ 1 || !verification.isNone
  | .click .. => true
  | _ => false

/-- The routine of an action that the element was observed to be fit for. -/
def dispatchTo (rounds : Nat) (action : Action) (actionability : Actionability)
    (target : NodeIdentity) : EffectM DispatchReceipt :=
  match action with
  | .invoke =>
    if actionability.invokable then dispatchInvoke build config scripts deadlineAtMs target
    else throw unsupported
  | .setValue value =>
    if actionability.editable then dispatchSetValue build config scripts deadlineAtMs target value
    else throw unsupported
  | .scroll direction amount =>
    if amount = 1 then dispatchScroll build config scripts deadlineAtMs rounds target direction
    else throw unsupported
  | _ => throw unsupported

def dispatch (rounds : Nat) (action : Action) (target : ResolvedTarget)
    (verification : VerificationPolicy) : EffectM DispatchReceipt := do
  checkEffectBoundary deadlineAtMs
  match target with
  | .element element =>
    if element.backend ≠ backendName then throw (noEffect "browser semantic target changed")
    else if isUnsupported action verification then throw unsupported
    else
      let unavailable := noEffect "browser target is unavailable"
      let latest ← present unavailable (← live (.browser .latest))
      let stored : StoredObservation ← present unavailable latest
      let node ← present (noEffect "browser target changed") (stored.nodes.lookup element.id)
      let identity := NodeIdentity.fromStored node stored
      let actionability := node.element.actionability
      if (← currentDocumentIdForEffect build config deadlineAtMs) ≠ identity.documentId then
        throw (noEffect "browser document changed")
      else
        checkEffectBoundary deadlineAtMs
        if !actionability.visible || !actionability.enabled then
          throw (noEffect "browser target is not actionable")
        else dispatchTo build config scripts deadlineAtMs rounds action actionability identity
  | _ => throw (noEffect "browser semantic target required")

end

end Praefectus.Cdp.CdpExecutor
