import Praefectus.Observe.CdpObserve
import Praefectus.Protocol.Serialize

/-!
# Probing an element of a page

An element of the latest observation is looked at again: its document, its object, what a
function in the page reports of it, the viewport, and its node of the accessibility tree.
-/

namespace Praefectus.Cdp.CdpExecutor

open Prog Json

abbrev ProbeM := ExceptT ProtocolError (Prog Browser)

def backendError : ProtocolError := .executor "browser backend operation failed"

def targetChanged : ProtocolError := .staleTarget "browser target changed"

def mapCdpProtocolError : CdpError → ProtocolError
  | .cancelled => .observationCancelled
  | .expired => .observationExpired
  | .staleTarget => targetChanged
  | .targetNotFound => .targetNotFound "browser target was not found"
  | _ => backendError

def mapSemanticError : SemanticError → CdpError
  | .targetNotFound => .targetNotFound
  | .staleObservation | .staleTarget => .staleTarget
  | _ => .protocol

/-- A program with other errors. -/
def mapError {α : Type} (x : BrowserM α) : ProbeM α :=
  ExceptT.mk (x.run >>= fun result => .ret (result.mapError mapCdpProtocolError))

/-- What the channel answers. -/
def probeCommand (method : String) (parameters : Json) (deadlineAtMs : Int64) : ProbeM Json := do
  let result : Except CdpChannelError Json ←
    orError backendError (← query (.command method parameters deadlineAtMs))
  orFail (result.mapError fun _ => backendError)

def verifyProcess : ProbeM Unit := do
  let verified : Except CdpError Unit ← query .verifyProcess
  orFail (verified.mapError fun _ => backendError)

/-! ### Elements of the latest observation -/

structure NodeIdentity where
  backendNodeId : UInt64
  executionContextId : UInt64
  documentId : String
  isProtected : Bool
  fingerprintHash : String
  displayGeometryHash : String

def NodeIdentity.fromStored (node : CdpNode) (stored : StoredObservation) : NodeIdentity where
  backendNodeId := node.backendNodeId
  executionContextId := stored.executionContextId
  documentId := stored.observation.provenance.documentId.getD ""
  isProtected := node.isProtected
  fingerprintHash := node.element.fingerprintHash
  displayGeometryHash := stored.observation.provenance.displayGeometryHash

def storedNode (build : Build) (target : SemanticTargetRef) : BrowserM NodeIdentity := do
  let now ← query .nowMs
  let latest ← orError .protocol (← query .latest)
  let stored : StoredObservation ← orError .targetNotFound latest
  let _ ← orFail ((stored.observation.resolve build target now).mapError mapSemanticError)
  let node ← orError .targetNotFound (stored.nodes.lookup target.elementId)
  pure (.fromStored node stored)

/-! ### Parts of a probe -/

def currentDocumentId (build : Build) (config : CdpConfig) (deadlineAtMs : Int64) :
    ProbeM String := do
  let frameTree ← probeCommand "Page.getFrameTree" (.obj []) deadlineAtMs
  let frame ← orError backendError (pointer frameTree ["frameTree", "frame"])
  let frameId ← orError backendError (requiredString frame "id")
  let loaderId ← orError backendError (requiredString frame "loaderId")
  pure (documentIdOf build config frameId loaderId)

def resolveObject (backendNodeId executionContextId : UInt64) (deadlineAtMs : Int64) :
    ProbeM String := do
  let response ← probeCommand "DOM.resolveNode" (.obj [
    ("backendNodeId", ofUInt64 backendNodeId),
    ("executionContextId", ofUInt64 executionContextId)]) deadlineAtMs
  orError targetChanged
    (((pointer response ["object", "objectId"]).bind asStr).filter (· ≠ ""))

def isLive (backendNodeId : UInt64) (node : Json) : Bool :=
  (node.get? "backendDOMNodeId").bind asU64 = some backendNodeId &&
    (node.get? "ignored").bind asBool ≠ some true

/-- The one node, if there is one. -/
def single : List Json → Option Json
  | [node] => some node
  | _ => none

/-- The one node of the tree that is not ignored and has the identifier. -/
def liveAxSemantics (tree : Json) (backendNodeId : UInt64) : Option AxSemantics := do
  let nodes ← (tree.get? "nodes").bind asArray
  let node ← single (nodes.filter (isLive backendNodeId))
  (axSemantics node).toOption

def valueKeys : List (String × String) :=
  [("valueHash", "value_hash"), ("valueLength", "value_length"),
    ("valueTooLarge", "value_too_large")]

/-- A member under another key, or none of it. -/
def redactMember (isProtected : Bool) (members : List (String × Json)) (key : String × String) :
    List (String × Json) :=
  match members.lookup key.1 with
  | none => members
  | some field =>
    let others := members.filter (·.1 ≠ key.1)
    if isProtected then others else others.filter (·.1 ≠ key.2) ++ [(key.2, field)]

def redactedProbe (value : Json) (isProtected : Bool) : Json :=
  match value with
  | .obj members => .obj (valueKeys.foldl (redactMember isProtected) members)
  | _ => value

structure LiveProbe where
  state : Json
  fingerprintHash : String
  displayGeometryHash : String

/-! ### Probes -/

section

variable (build : Build) (config : CdpConfig) (probeFunction : Bool → String)

/-- The function in the page is one for protected elements, and another for the rest. -/
def liveProbe (target : SemanticTargetRef) (deadlineAtMs : Int64) : ProbeM LiveProbe := do
  verifyProcess
  let node ← mapError (storedNode build target)
  let documentId ← currentDocumentId build config deadlineAtMs
  if documentId ≠ node.documentId then throw (.staleTarget "browser document changed")
  else
    let objectId ← resolveObject node.backendNodeId node.executionContextId deadlineAtMs
    let response ← probeCommand "Runtime.callFunctionOn" (.obj [
      ("objectId", .str objectId),
      ("functionDeclaration", .str (probeFunction node.isProtected)),
      ("awaitPromise", .bool true),
      ("returnByValue", .bool true)]) deadlineAtMs
    if (response.get? "exceptionDetails").isSome then throw targetChanged
    else
      let value ← orError backendError (pointer response ["result", "value"])
      if (value.get? "connected").bind asBool ≠ some true then throw targetChanged
      else
        let layout ← probeCommand "Page.getLayoutMetrics" (.obj []) deadlineAtMs
        let viewport ← orError backendError (viewportOf layout)
        let displayGeometryHash := hashSerializable build viewport
        let tree ← probeCommand "Accessibility.getPartialAXTree" (.obj [
          ("backendNodeId", ofUInt64 node.backendNodeId),
          ("fetchRelatives", .bool false)]) deadlineAtMs
        let semantics ← orError targetChanged (liveAxSemantics tree node.backendNodeId)
        let fingerprintHash := axFingerprint build documentId node.backendNodeId semantics
        verifyProcess
        if displayGeometryHash ≠ node.displayGeometryHash ∨ fingerprintHash ≠ node.fingerprintHash then
          throw targetChanged
        else
          pure {
            state := redactedProbe value node.isProtected
            fingerprintHash
            displayGeometryHash }

/-- What an observation of an element comes to. -/
structure ObservedElement where
  evidence : Evidence
  state : Json

/-- The probe's own error is looked at after the boundary. -/
def observeWithBoundary (target : TargetRef) (deadlineAtMs : Int64) : ProbeM ObservedElement := do
  mapError (boundary deadlineAtMs)
  match target with
  | .element target => do
    let probe : Except ProtocolError LiveProbe ←
      monadLift (liveProbe build config probeFunction target deadlineAtMs).run
    mapError (boundary deadlineAtMs)
    let probe ← orFail probe
    let latest ← orError backendError (← query .latest)
    let _ : StoredObservation ← orError backendError latest
    let observationHash := hashSerializable build (.arr [target.toJson, probe.state])
    mapError (boundary deadlineAtMs)
    pure {
      evidence := {
        observationHash
        targetFingerprintHash := some probe.fingerprintHash
        displayGeometryHash := probe.displayGeometryHash
        observedAtMs := ← query .nowMs }
      state := probe.state }
  | _ => throw (.targetNotFound "browser semantic target required")

end

end Praefectus.Cdp.CdpExecutor
