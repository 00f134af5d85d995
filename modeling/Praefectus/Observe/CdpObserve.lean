import Praefectus.Observe.CdpChannel
import Praefectus.Observe.Linux

/-!
# Observing a page

The executor asks the browser for the page's target, frame, viewport, document and accessibility
tree, numbers what it found, and publishes it as the latest observation.
-/

namespace Praefectus.Cdp

open Prog Json

def backendName : String := "praefectus-chromium-cdp"

structure CdpConfig where
  targetId : String
  browserProcessId : UInt32
  processGeneration : String

structure StoredObservation where
  observation : SemanticObservation
  executionContextId : UInt64
  nodes : List (String × CdpNode)

namespace CdpExecutor

/-! ### What an executor asks -/

inductive BrowserOp where
  | isCancelled
  | nowMs
  | verifyProcess
  | command (method : String) (parameters : Json) (deadlineAtMs : Int64)
  | nextGeneration
  | publish (stored : StoredObservation)
  | latest
  | spin

/-- A poisoned lock has no value. A loop that does not come to an end is never answered. -/
abbrev Browser : Interface where
  Op := BrowserOp
  Ans
    | .isCancelled => Bool
    | .nowMs => Int64
    | .verifyProcess => Except CdpError Unit
    | .command .. => Option (Except CdpChannelError Json)
    | .nextGeneration => UInt64
    | .publish _ => Option Unit
    | .latest => Option (Option StoredObservation)
    | .spin => Unit

abbrev BrowserM := ExceptT CdpError (Prog Browser)

def query {ε : Type} (op : BrowserOp) : ExceptT ε (Prog Browser) (Browser.Ans op) :=
  monadLift (perform (I := Browser) op)

def orFail {α ε : Type} (answer : Except ε α) : ExceptT ε (Prog Browser) α := ExceptT.mk (.ret answer)

def orError {α ε : Type} (error : ε) : Option α → ExceptT ε (Prog Browser) α
  | some value => pure value
  | none => throw error

def boundary (deadlineAtMs : Int64) : BrowserM Unit := do
  if (← query .isCancelled) = true then throw .cancelled
  else if deadlineAtMs ≤ (← query .nowMs) then throw .expired
  else pure ()

/-- What the channel answers, unless its lock is poisoned. -/
def command (deadlineAtMs : Int64) (method : String) (parameters : Json) : BrowserM Json := do
  boundary deadlineAtMs
  let result : Except CdpChannelError Json ←
    orError .protocol (← query (.command method parameters deadlineAtMs))
  boundary deadlineAtMs
  orFail (result.mapError fun _ => .protocol)

section

variable {α ε : Type} {P : BrowserOp → Prop}

theorem only_orFail (answer : Except ε α) : (orFail answer).run.Only P := trivial

theorem only_orError (error : ε) (value : Option α) : (orError error value).run.Only P := by
  cases value <;> trivial

theorem only_query {op : BrowserOp} (allowed : P op) :
    (query op : ExceptT ε (Prog Browser) _).run.Only P := ⟨allowed, fun _ => trivial⟩

theorem only_boundary (deadlineAtMs : Int64) (token : P .isCancelled) (clock : P .nowMs) :
    (boundary deadlineAtMs).run.Only P := by
  unfold boundary
  refine only_try (only_query token) fun cancelled => ?_
  split
  · trivial
  · refine only_try (only_query clock) fun nowMs => ?_
    split <;> trivial

theorem only_command (deadlineAtMs : Int64) (method : String) (parameters : Json)
    (token : P .isCancelled) (clock : P .nowMs)
    (allowed : P (.command method parameters deadlineAtMs)) :
    (command deadlineAtMs method parameters).run.Only P := by
  unfold command
  refine only_try (only_boundary _ token clock) fun _ => only_try (only_query allowed) fun answer => ?_
  refine only_try (only_orError _ _) fun result => ?_
  exact only_try (only_boundary _ token clock) fun _ => only_orFail _

end

/-! ### Parts of the replies -/

def pointer (value : Json) (path : List String) : Option Json :=
  path.foldlM (fun value key => value.get? key) value

def isPage (config : CdpConfig) (targetInfo : Json) : Bool :=
  (targetInfo.get? "targetId").bind asStr = some config.targetId &&
    ((targetInfo.get? "type").bind asStr).any ["page", "webview"].contains

def viewportOf (layout : Json) : Option Json :=
  (layout.get? "cssVisualViewport").or (layout.get? "visualViewport")

def documentIdOf (build : Build) (config : CdpConfig) (frameId loaderId : String) : String :=
  hashSerializable build
    (.arr [.str backendName, .str config.targetId, .str frameId, .str loaderId])

def observationIdOf (build : Build) (config : CdpConfig) (documentId : String) (generation : UInt64)
    (observedAtMs : Int64) : String :=
  hashSerializable build (.arr [.str backendName, .str config.targetId, .str documentId,
    ofUInt64 generation, ofInt64 observedAtMs])

/-- The document is named by the frame, or by the place of its name among the strings. -/
def isRootDocument (strings : Option (List Json)) (rootFrameId : String) (document : Json) : Bool :=
  (document.get? "frameId").any fun frameId =>
    asStr frameId = some rootFrameId ||
      (do asStr (← (← strings)[(← asU64 frameId).toNat]?)) = some rootFrameId

def rootBackendNodeIds (snapshot : Json) (rootFrameId : String) : Option (List UInt64) := do
  let strings := (snapshot.get? "strings").bind asArray
  let documents ← (snapshot.get? "documents").bind asArray
  match documents.filter (isRootDocument strings rootFrameId) with
  | [document] =>
    ((← (pointer document ["nodes", "backendNodeId"]).bind asArray).mapM fun value =>
      (asU64 value).filter (0 < ·))
  | _ => none

/-! ### Observations -/

/-- A parse that has not come to an end after the rounds it was given stays in its loop. -/
def parsed {α : Type} : Option (Except CdpError α) → BrowserM α
  | some result => orFail result
  | none => do
    let _ ← query .spin
    throw .protocol

def provenanceOf (config : CdpConfig) (documentId displayGeometryHash : String) :
    SemanticProvenance where
  backend := .dom
  backendName
  processId := config.browserProcessId
  processGeneration := config.processGeneration
  windowId := config.targetId
  documentId := some documentId
  displayGeometryHash
  hostOptIns := []

def frameOf (frameTree : Json) : BrowserM (String × String) := do
  let frame ← orError .protocol (pointer frameTree ["frameTree", "frame"])
  let frameId ← orError .protocol (requiredString frame "id")
  let loaderId ← orError .protocol (requiredString frame "loaderId")
  pure (frameId, loaderId)

theorem only_frameOf {P : BrowserOp → Prop} (frameTree : Json) : (frameOf frameTree).run.Only P := by
  unfold frameOf
  refine only_try (only_orError _ _) fun frame => only_try (only_orError _ _) fun frameId => ?_
  exact only_try (only_orError _ _) fun loaderId => trivial

def snapshotParameters : Json := .obj [
  ("computedStyles", .arr []),
  ("includeDOMRects", .bool false),
  ("includePaintOrder", .bool false),
  ("includeBlendedBackgroundColors", .bool false),
  ("includeTextColorOpacities", .bool false)]

/-- What the browser has told about the page. -/
structure Page where
  documentId : String
  executionContextId : UInt64
  displayGeometryHash : String
  roots : List UInt64
  tree : Json

variable (build : Build) (config : CdpConfig) (deadlineAtMs : Int64)

def readPage : BrowserM Page := do
  let command := command deadlineAtMs
  boundary deadlineAtMs
  orFail (← query .verifyProcess)
  let target ← command "Target.getTargetInfo" (.obj [("targetId", .str config.targetId)])
  let targetInfo ← orError .protocol (target.get? "targetInfo")
  if !isPage config targetInfo then throw .staleTarget
  let (frameId, loaderId) ← frameOf (← command "Page.getFrameTree" (.obj []))
  let executionContext ← command "Page.createIsolatedWorld" (.obj [
    ("frameId", .str frameId),
    ("worldName", .str "praefectus"),
    ("grantUniversalAccess", .bool false)])
  let executionContextId ← orError .protocol
    (((executionContext.get? "executionContextId").bind asU64).filter (0 < ·))
  let layout ← command "Page.getLayoutMetrics" (.obj [])
  let viewport ← orError .protocol (viewportOf layout)
  let domSnapshot ← command "DOMSnapshot.captureSnapshot" snapshotParameters
  let roots ← orError .protocol (rootBackendNodeIds domSnapshot frameId)
  let tree ← command "Accessibility.getFullAXTree" (.obj [("frameId", .str frameId)])
  let finalFrameTree ← command "Page.getFrameTree" (.obj [])
  let finalFrame ← orError .protocol (pointer finalFrameTree ["frameTree", "frame"])
  if (← orError .protocol (requiredString finalFrame "id")) ≠ frameId then throw .staleTarget
  if (← orError .protocol (requiredString finalFrame "loaderId")) ≠ loaderId then
    throw .staleTarget
  boundary deadlineAtMs
  pure {
    documentId := documentIdOf build config frameId loaderId
    executionContextId
    displayGeometryHash := hashSerializable build viewport
    roots
    tree }

def observationOf (page : Page) (generation : UInt64) (observedAtMs : Int64)
    (elements : List SemanticElement) : SemanticObservation where
  protocolVersion
  observationId := observationIdOf build config page.documentId generation observedAtMs
  generation
  provenance := provenanceOf config page.documentId page.displayGeometryHash
  observedAtMs
  expiresAtMs := min deadlineAtMs (Atspi.saturatingAdd observedAtMs maxSemanticObservationAgeMs)
  truncated := false
  elements

def publishPage (rounds : Nat) (page : Page) (observedAtMs : Int64) (generation : UInt64) :
    BrowserM SemanticObservation := do
  let (elements, nodes) ← parsed (parseAxTree build rounds page.tree
    (observationIdOf build config page.documentId generation observedAtMs) page.documentId page.roots)
  let observation := observationOf build config deadlineAtMs page generation observedAtMs elements
  orFail ((observation.validate observedAtMs).mapError fun _ => .protocol)
  orError .protocol (← query
    (.publish { observation, executionContextId := page.executionContextId, nodes }))
  pure observation

/-- The number is taken before the tree is parsed; what was found is published after it. -/
def store (rounds : Nat) (page : Page) : BrowserM SemanticObservation := do
  let observedAtMs : Int64 ← query .nowMs
  let taken : UInt64 ← query .nextGeneration
  publishPage build config deadlineAtMs rounds page observedAtMs (taken + 1)

def semanticObservation (rounds : Nat) : BrowserM SemanticObservation := do
  store build config deadlineAtMs rounds (← readPage build config deadlineAtMs)

end CdpExecutor

end Praefectus.Cdp
