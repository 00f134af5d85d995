import Praefectus.Observe.Linux
import Praefectus.Observe.WindowsPaths

/-!
# Observation on Windows

A snapshot of a window, taken by a walk over the elements of a window, each found by way of its
ancestors. The automation client and the processes behind it may answer anything, and may fail.
-/

namespace Praefectus.Uia

open Json Prog

def backend : String := "praefectus-windows-uia"

def maxPrivateMappingBytes : Nat := 2 * 1024 * 1024

def runtimeIdText (values : RuntimeId) : String := ".".intercalate (values.map toString)

/-! ### Elements -/

structure ElementState where
  runtimeId : RuntimeId
  processId : UInt32
  processGeneration : String
  windowId : String
  role : String
  name : Option String
  bounds : NativeBounds
  visible : Bool
  enabled : Bool
  invokable : Bool
  editable : Bool
  horizontallyScrollable : Bool
  verticallyScrollable : Bool

/-- The window of a snapshot, by what was recorded of it. -/
structure SurfaceRecord where
  surfaceId : String
  processId : UInt32
  processGeneration : String
  windowId : String
  displayGeometryHash : String
  window : Int64

structure MappingEntry where
  elementId : String
  runtimeId : RuntimeId
  runtimePath : List RuntimeId
  fingerprintHash : String
  unambiguous : Bool
  stable : Bool

/-- What is stored of a snapshot. -/
structure Mapping where
  protocolVersion : UInt16
  observationId : String
  generation : UInt64
  provenanceHash : String
  processId : UInt32
  processGeneration : String
  surfaceId : String
  windowHandle : Int64
  windowId : String
  displayGeometryHash : String
  observedAtMs : Int64
  expiresAtMs : Int64
  entries : List MappingEntry

def boundsJson (bounds : NativeBounds) : Json := .obj [
  ("x", ofInt64 bounds.x),
  ("y", ofInt64 bounds.y),
  ("width", ofInt64 bounds.width),
  ("height", ofInt64 bounds.height)]

def MappingEntry.toJson (entry : MappingEntry) : Json := .obj [
  ("element_id", .str entry.elementId),
  ("runtime_id", idJson entry.runtimeId),
  ("runtime_path", pathJson entry.runtimePath),
  ("fingerprint_hash", .str entry.fingerprintHash),
  ("unambiguous", .bool entry.unambiguous),
  ("stable", .bool entry.stable)]

def Mapping.toJson (mapping : Mapping) : Json := .obj [
  ("protocol_version", ofUInt16 mapping.protocolVersion),
  ("observation_id", .str mapping.observationId),
  ("generation", ofUInt64 mapping.generation),
  ("provenance_hash", .str mapping.provenanceHash),
  ("process_id", ofUInt32 mapping.processId),
  ("process_generation", .str mapping.processGeneration),
  ("surface_id", .str mapping.surfaceId),
  ("window_handle", ofInt64 mapping.windowHandle),
  ("window_id", .str mapping.windowId),
  ("display_geometry_hash", .str mapping.displayGeometryHash),
  ("observed_at_ms", ofInt64 mapping.observedAtMs),
  ("expires_at_ms", ofInt64 mapping.expiresAtMs),
  ("entries", .arr (mapping.entries.map MappingEntry.toJson))]

def fingerprint (build : Build) (state : ElementState) : String := hashSerializable build (.arr [
  idJson state.runtimeId,
  ofUInt32 state.processId,
  .str state.processGeneration,
  .str state.windowId,
  .str state.role,
  ofOption .str state.name,
  boundsJson state.bounds,
  .bool state.visible,
  .bool state.enabled,
  .bool state.invokable,
  .bool state.editable,
  .bool state.horizontallyScrollable,
  .bool state.verticallyScrollable])

/-! ### Requests -/

variable {Element : Type}

inductive UiaOp (Element : Type) where
  | isCancelled
  | nowMs
  | newAutomation
  | validateSurfaceRecord
  | nextGeneration
  | elementFromHandle (window : Int64)
  | controlViewWalker
  | describe (element : Element)
  | getFirstChild (element : Element)
  | getNextSibling (element : Element)
  | runtimeValues (element : Element)
  | persist (observationId : String) (mapping : Mapping)

abbrev UiaClient (Element : Type) : Interface where
  Op := UiaOp Element
  Ans
    | .isCancelled => Bool
    | .nowMs => Int64
    | .newAutomation => Except NativeError Unit
    | .validateSurfaceRecord => Except ProtocolError Unit
    | .nextGeneration => UInt64
    | .elementFromHandle _ => Except NativeError Element
    | .controlViewWalker => Except NativeError Unit
    | .describe _ => Except NativeError ElementState
    | .getFirstChild _ => Except NativeError (Option Element)
    | .getNextSibling _ => Except NativeError (Option Element)
    | .runtimeValues _ => Except NativeError RuntimeId
    | .persist .. => Except ProtocolError Unit

abbrev UiaM (Element : Type) := ExceptT ProtocolError (Prog (UiaClient Element))

/-- A question that cannot fail. -/
def ask (op : UiaOp Element) : UiaM Element ((UiaClient Element).Ans op) :=
  monadLift (perform (I := UiaClient Element) op)

def snapshotFailed : ProtocolError := .executor "semantic snapshot failed"

def callFailed : ProtocolError := .executor "accessibility provider call failed"

/-- The value of a computation, or an error in place of its own. -/
def mapErr {ε α : Type} (error : ProtocolError) : Except ε α → UiaM Element α
  | .ok value => pure value
  | .error _ => throw error

def ofExcept {α : Type} : Except ProtocolError α → UiaM Element α
  | .ok value => pure value
  | .error e => throw e

section

variable (deadlineAtMs : Int64)

def checkObservationBoundary : UiaM Element Unit := do
  if ← ask .isCancelled then throw .observationCancelled
  else if (← ask .nowMs) ≥ deadlineAtMs then throw .observationExpired
  else pure ()

/-- The value of a call. One that failed is looked at again: the boundary may have been
crossed meanwhile. -/
def answered {ε α : Type} (fallback : ProtocolError) : Except ε α → UiaM Element α
  | .ok value => pure value
  | .error _ => do
    checkObservationBoundary deadlineAtMs
    throw fallback

/-! ### The walk -/

/-- An element that waits to be visited, with the path of its ancestors. -/
structure PendingElement (Element : Type) where
  element : Element
  parentId : Option String
  runtimePath : List RuntimeId

structure Walk (Element : Type) where
  queue : List (PendingElement Element)
  budget : RuntimePathBudget
  seen : List (RuntimeId × Nat)
  elements : List SemanticElement
  entries : List MappingEntry
  truncated : Bool

/-- The budget after a charge, unless it was refused. -/
def charged : Except ProtocolError Unit × RuntimePathBudget → UiaM Element RuntimePathBudget
  | (.ok (), budget) => pure budget
  | (.error e, _) => throw e

def acceptSibling (queueLength : Nat) (siblings : List RuntimeId) (runtimeId : RuntimeId) : Bool :=
  queueLength < maxSemanticElements && runtimeId ∉ siblings

/-- The children from one on. -/
def enqueueFrom (parentId : Option String) (runtimePath : List RuntimeId)
    (siblings : List RuntimeId) (walk : Walk Element) (child : Element) :
    UiaM Element (Walk Element) := do
  checkObservationBoundary deadlineAtMs
  let runtimeId ← answered deadlineAtMs callFailed (← ask (.runtimeValues child))
  checkObservationBoundary deadlineAtMs
  if _accepted : acceptSibling walk.queue.length siblings runtimeId then
    let budget ← charged (walk.budget.charge runtimePath)
    let next ← answered deadlineAtMs callFailed (← ask (.getNextSibling child))
    let walk' : Walk Element := { walk with
      budget, queue := walk.queue ++ [⟨child, parentId, runtimePath⟩] }
    match next with
    | none => pure walk'
    | some next => do
      checkObservationBoundary deadlineAtMs
      enqueueFrom parentId runtimePath (runtimeId :: siblings) walk' next
  else pure { walk with truncated := true }
termination_by maxSemanticElements - walk.queue.length
decreasing_by
  have room : walk.queue.length < maxSemanticElements := by
    simpa using (Bool.and_eq_true_iff.mp _accepted).1
  simp only [List.length_append, List.length_singleton]
  omega

def enqueueChildren (walk : Walk Element) (element : Element) (parentId : Option String)
    (runtimePath : List RuntimeId) : UiaM Element (Walk Element) := do
  checkObservationBoundary deadlineAtMs
  if runtimePath.length ≥ maxRuntimePathDepth then pure { walk with truncated := true }
  else
    match ← answered deadlineAtMs callFailed (← ask (.getFirstChild element)) with
    | none => pure walk
    | some child => do
      checkObservationBoundary deadlineAtMs
      enqueueFrom deadlineAtMs parentId runtimePath [] walk child

variable (build : Build) (record : SurfaceRecord) (observationId : String)

/-- An element that was found a second time. -/
def markAmbiguous (walk : Walk Element) (index : Nat) : Walk Element := { walk with
  elements := walk.elements.modify index fun element =>
    { element with actionability := { element.actionability with unambiguous := false } }
  entries := walk.entries.modify index fun entry => { entry with unambiguous := false } }

/-- An element that is found for the first time. -/
def register (walk : Walk Element) (next : PendingElement Element) (state : ElementState) :
    UiaM Element (Walk Element) := do
  let repeated ← ask (.describe next.element)
  let stable := match repeated with
    | .ok repeated => fingerprint build state = fingerprint build repeated
    | .error _ => false
  let truncated := match repeated with
    | .ok _ => walk.truncated
    | .error _ => true
  checkObservationBoundary deadlineAtMs
  let elementId ← mapErr snapshotFailed
    (opaqueElementId build observationId (runtimeIdText state.runtimeId))
  checkObservationBoundary deadlineAtMs
  let fingerprintHash := fingerprint build state
  let index := walk.elements.length
  let tag ← mapErr snapshotFailed (semanticTag index)
  let element : SemanticElement := {
    tag
    elementId
    parentId := next.parentId
    fingerprintHash
    role := state.role
    name := state.name
    bounds := some ⟨state.bounds.x, state.bounds.y, state.bounds.width, state.bounds.height⟩
    actionability := {
      visible := state.visible
      enabled := state.enabled
      unambiguous := true
      stable
      receivesEvents := state.visible && state.enabled
      invokable := state.invokable
      editable := state.editable } }
  let budget ← charged (walk.budget.chargeAppended next.runtimePath state.runtimeId)
  let entryPath := next.runtimePath ++ [state.runtimeId]
  let entry : MappingEntry := {
    elementId
    runtimeId := state.runtimeId
    runtimePath := entryPath
    fingerprintHash
    unambiguous := true
    stable }
  let walk' : Walk Element := { walk with
    budget
    seen := (state.runtimeId, index) :: walk.seen
    elements := walk.elements ++ [element]
    entries := walk.entries ++ [entry]
    truncated }
  enqueueChildren deadlineAtMs walk' next.element (some elementId) entryPath

def visit (walk : Walk Element) (next : PendingElement Element) : UiaM Element (Walk Element) := do
  match ← ask (.describe next.element) with
  | .error _ => do
    checkObservationBoundary deadlineAtMs
    enqueueChildren deadlineAtMs { walk with truncated := true } next.element next.parentId
      next.runtimePath
  | .ok state => do
    checkObservationBoundary deadlineAtMs
    if state.processId ≠ record.processId ∨ state.processGeneration ≠ record.processGeneration ∨
        state.windowId ≠ record.windowId then
      enqueueChildren deadlineAtMs walk next.element next.parentId next.runtimePath
    else
      match walk.seen.lookup state.runtimeId with
      | some index =>
        enqueueChildren deadlineAtMs (markAmbiguous walk index) next.element next.parentId
          next.runtimePath
      | none => register deadlineAtMs build observationId walk next state

/-- The rounds of the walk while there are visits left; the source counts those done. -/
def walkFrom : Nat → Walk Element → UiaM Element (Walk Element)
  | visitsLeft, walk =>
    match walk.queue, visitsLeft with
    | [], _ => pure walk
    | _ :: queue, 0 => do
      checkObservationBoundary deadlineAtMs
      pure { walk with queue, truncated := true }
    | next :: queue, visitsLeft + 1 => do
      checkObservationBoundary deadlineAtMs
      if walk.elements.length ≥ maxSemanticElements then
        pure { walk with queue, truncated := true }
      else
        let walk ← visit deadlineAtMs build record observationId { walk with queue } next
        walkFrom visitsLeft walk

/-! ### Snapshots -/

/-- The values the identifier of an observation is made of, in order. -/
def observationSeed (generation : UInt64) (observedAtMs : Int64) : Json := .arr [
  .str backend,
  ofUInt32 record.processId,
  .str record.processGeneration,
  .str record.windowId,
  .str record.displayGeometryHash,
  ofInt64 observedAtMs,
  ofUInt64 generation]

def provenanceSeed (generation : UInt64) (provenance : SemanticProvenance)
    (observedAtMs expiresAtMs : Int64) : Json := .arr [
  ofUInt16 Praefectus.protocolVersion,
  .str observationId,
  ofUInt64 generation,
  provenance.toJson,
  ofInt64 observedAtMs,
  ofInt64 expiresAtMs]

def ensureSerializedMappingBudget (mapping : Mapping) : UiaM Element Unit :=
  if encodedBytes mapping.toJson ≤ maxPrivateMappingBytes then pure ()
  else throw snapshotBudgetError

def rootUnavailable : ProtocolError :=
  .targetNotFound "selected accessibility root is unavailable"

def startWalk (root : Element) (budget : RuntimePathBudget) : Walk Element :=
  ⟨[⟨root, none, []⟩], budget, [], [], [], false⟩

def snapshotWindow : UiaM Element SemanticObservation := do
  checkObservationBoundary deadlineAtMs
  answered deadlineAtMs callFailed (← ask .newAutomation)
  ofExcept (← ask .validateSurfaceRecord)
  checkObservationBoundary deadlineAtMs
  let generation ← ask .nextGeneration
  if generation = 0 then throw snapshotFailed
  else
    let observedAtMs ← ask .nowMs
    let expiresAtMs := Atspi.saturatingAdd observedAtMs maxSemanticObservationAgeMs
    let observationId := hashSerializable build (observationSeed record generation observedAtMs)
    let provenance : SemanticProvenance := {
      backend := .accessibility
      backendName := backend
      processId := record.processId
      processGeneration := record.processGeneration
      windowId := record.windowId
      documentId := none
      displayGeometryHash := record.displayGeometryHash
      hostOptIns := [] }
    let root ← answered deadlineAtMs rootUnavailable (← ask (.elementFromHandle record.window))
    checkObservationBoundary deadlineAtMs
    answered deadlineAtMs snapshotFailed (← ask .controlViewWalker)
    checkObservationBoundary deadlineAtMs
    let budget ← charged (RuntimePathBudget.default.charge [])
    let walk ← walkFrom deadlineAtMs build record observationId maxSemanticElements
      (startWalk root budget)
    let observation : SemanticObservation := {
      protocolVersion := Praefectus.protocolVersion
      observationId
      generation
      provenance
      observedAtMs
      expiresAtMs
      truncated := walk.truncated
      elements := walk.elements }
    checkObservationBoundary deadlineAtMs
    mapErr snapshotFailed (observation.validate (← ask .nowMs))
    ofExcept (← ask .validateSurfaceRecord)
    let mapping : Mapping := {
      protocolVersion := Praefectus.protocolVersion
      observationId
      generation
      provenanceHash := hashSerializable build
        (provenanceSeed observationId generation provenance observedAtMs expiresAtMs)
      processId := record.processId
      processGeneration := record.processGeneration
      surfaceId := record.surfaceId
      windowHandle := record.window
      windowId := record.windowId
      displayGeometryHash := record.displayGeometryHash
      observedAtMs
      expiresAtMs
      entries := walk.entries }
    ensureSerializedMappingBudget mapping
    ofExcept (← ask (.persist observationId mapping))
    pure observation

end

end Praefectus.Uia
