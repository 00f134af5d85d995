import Praefectus.Native.Dispatch
import Praefectus.Semantic.Observation

/-!
# Observation on Linux

A snapshot of a window, taken by a walk over its accessible objects, and the check that an
object of a snapshot is still below its window. The accessibility bus and the processes
behind it may answer anything, and may fail.
-/

namespace Praefectus.Atspi

def backend : String := "praefectus-atspi2"

def maxElements : Nat := 512

def maxDepth : Nat := 64

def maxActions : Nat := 32

def observationLifetimeMs : Int64 := 30000

/-- The names that the bus library accepts. -/
structure Bus where
  isUniqueName : String → Bool
  isObjectPath : String → Bool

/-! ### Objects -/

structure StoredObject where
  busName : String
  path : String
  deriving DecidableEq

/-- A reference to an object as a provider sends it. -/
structure ObjectRef where
  name : String
  path : String
  deriving DecidableEq

def nullPath : String := "/org/a11y/atspi/null"

def ObjectRef.isNull (object : ObjectRef) : Bool := object.path = nullPath

namespace StoredObject

variable (bus : Bus)

def validate (object : StoredObject) : Except ProtocolError Unit :=
  if object.busName.utf8ByteSize > 255 || object.path.utf8ByteSize > 1792 ||
      (object.busName.toList ++ object.path.toList).any isControl ||
      !bus.isUniqueName object.busName || !bus.isObjectPath object.path then
    throw (.staleTarget "accessibility object is invalid")
  else pure ()

def id (object : StoredObject) : Except ProtocolError String := do
  object.validate bus
  let value := object.busName ++ ":" ++ object.path
  if value.utf8ByteSize > 2048 then throw (.staleTarget "accessibility object is invalid")
  else pure value

def fromRef (object : ObjectRef) : Except ProtocolError StoredObject :=
  if object.isNull then throw (.staleTarget "accessibility object disappeared")
  else do
    let stored : StoredObject := ⟨object.name, object.path⟩
    stored.validate bus
    pure stored

end StoredObject

structure InvokeAction where
  index : Int32
  name : String
  deriving DecidableEq

structure NodeIdentity where
  backendId : String
  role : String
  name : Option String
  bounds : Option Rect
  relevantStates : UInt64
  interfaces : UInt32
  actions : List String
  deriving DecidableEq

structure NodeSample where
  identity : NodeIdentity
  actionability : Actionability
  invokeAction : Option InvokeAction
  valueHash : Option String
  deriving DecidableEq

structure StoredTarget where
  object : StoredObject
  invokeAction : Option InvokeAction
  deriving DecidableEq

structure SurfaceWindow where
  object : StoredObject
  processId : UInt32
  processGeneration : String
  windowId : String
  fingerprintHash : String
  bounds : Option Rect
  deriving DecidableEq

/-- What is stored of a snapshot, the targets by the identifiers of their elements. -/
structure StoredSnapshot where
  protocolVersion : UInt16
  observation : SemanticObservation
  targets : List (String × StoredTarget)
  window : StoredObject
  windowFingerprintHash : String
  processId : UInt32
  processGeneration : String
  deriving DecidableEq

open Json in
def NodeIdentity.toJson (identity : NodeIdentity) : Json := .obj [
  ("backend_id", .str identity.backendId),
  ("role", .str identity.role),
  ("name", ofOption .str identity.name),
  ("bounds", ofOption Rect.toJson identity.bounds),
  ("relevant_states", ofUInt64 identity.relevantStates),
  ("interfaces", ofUInt32 identity.interfaces),
  ("actions", ofStrings identity.actions)]

/-! ### Requests -/

inductive ProviderCall where
  | unixProcessId (busName : String)
  | getChildren (object : StoredObject)
  | getParent (object : StoredObject)
  deriving DecidableEq

def ProviderCall.Result : ProviderCall → Type
  | .unixProcessId _ => UInt32
  | .getChildren _ => List ObjectRef
  | .getParent _ => ObjectRef

inductive AtspiOp where
  | isCancelled
  | nowMs
  | openProxy (object : StoredObject)
  | provider (request : ProviderCall)
  | processGeneration (processId : UInt32)
  | sample (object : StoredObject)
  | validateSurfaceWindow (window : SurfaceWindow)
  | displayGeometryHash
  | nextGeneration
  | observerProcessId
  | persist (observationId : String) (stored : StoredSnapshot)
  | setLatest (stored : StoredSnapshot)

abbrev AtspiBus : Interface where
  Op := AtspiOp
  Ans
    | .isCancelled => Bool
    | .nowMs => Int64
    | .openProxy _ => Except NativeError Unit
    | .provider request => Except NativeError request.Result
    | .processGeneration _ => Except ProtocolError String
    | .sample _ => Except ProtocolError NodeSample
    | .validateSurfaceWindow _ => Except ProtocolError Unit
    | .displayGeometryHash => Except ProtocolError String
    | .nextGeneration => UInt64
    | .observerProcessId => UInt32
    | .persist .. => Except ProtocolError Unit
    | .setLatest _ => Except ProtocolError Unit

abbrev AtspiM := ExceptT ProtocolError (Prog AtspiBus)

/-- A question that cannot fail. -/
def ask (op : AtspiOp) : AtspiM (AtspiBus.Ans op) := monadLift (Prog.perform (I := AtspiBus) op)

def executorError : ProtocolError := .executor "accessibility backend error"

def semanticError : ProtocolError := .staleTarget "semantic target changed"

/-- The value of a computation, or an error in place of its own. -/
def mapErr {ε α : Type} (error : ProtocolError) : Except ε α → AtspiM α
  | .ok value => pure value
  | .error _ => throw error

def ofExcept {α : Type} : Except ProtocolError α → AtspiM α
  | .ok value => pure value
  | .error e => throw e

section

variable (deadlineAtMs : Int64)

def checkObservationBoundary : AtspiM Unit := do
  if ← ask .isCancelled then throw .observationCancelled
  else if (← ask .nowMs) ≥ deadlineAtMs then throw .observationExpired
  else pure ()

/-- A call of a provider, through a proxy that is got ready between the checks. -/
def providerCall (request : ProviderCall) (proxy : AtspiM Unit) : AtspiM request.Result := do
  checkObservationBoundary deadlineAtMs
  proxy
  let answer ← ask (.provider request)
  checkObservationBoundary deadlineAtMs
  mapErr executorError answer

variable (bus : Bus)

def processId (object : StoredObject) : AtspiM UInt32 := do
  ofExcept (object.validate bus)
  mapErr executorError (← ask (.openProxy object))
  providerCall deadlineAtMs (.unixProcessId object.busName) (pure ())

def accessible (object : StoredObject) : AtspiM Unit := do
  ofExcept (object.validate bus)
  mapErr executorError (← ask (.openProxy object))

/-! ### Owners and parents -/

/-- The owner that every object of a window has. -/
structure Owner where
  busName : String
  processId : UInt32
  processGeneration : String
  deriving DecidableEq

def SurfaceWindow.owner (window : SurfaceWindow) : Owner :=
  ⟨window.object.busName, window.processId, window.processGeneration⟩

def validateObjectOwner (object : StoredObject) (expected : Owner) : AtspiM Unit := do
  checkObservationBoundary deadlineAtMs
  let processId ← processId deadlineAtMs bus object
  let generation ← ofExcept (← ask (.processGeneration processId))
  if object.busName = expected.busName ∧ processId = expected.processId ∧
      generation = expected.processGeneration then
    checkObservationBoundary deadlineAtMs
  else throw (.staleTarget "accessibility object owner changed")

def validateChildBinding (child parent : StoredObject) (expectedOwner : Owner) : AtspiM Unit := do
  if child = parent then throw (.staleTarget "accessibility tree changed")
  else
    validateObjectOwner deadlineAtMs bus child expectedOwner
    let liveParent ← providerCall deadlineAtMs (.getParent child) (accessible bus child)
    if liveParent.isNull then throw (.staleTarget "accessibility tree changed")
    else if (← ofExcept (StoredObject.fromRef bus liveParent)) = parent then pure ()
    else throw (.staleTarget "accessibility tree changed")

/-- The steps up from an object, no more than the fuel. -/
def climb (root : StoredObject) (owner : Owner) :
    Nat → StoredObject → List String → AtspiM Unit
  | 0, _, _ => throw (.staleTarget "accessibility ancestry limit exceeded")
  | fuel + 1, current, seen => do
    validateObjectOwner deadlineAtMs bus current owner
    let id ← ofExcept (current.id bus)
    if id ∈ seen then throw (.staleTarget "accessibility ancestry is ambiguous")
    else if current = root then pure ()
    else
      let parent ← providerCall deadlineAtMs (.getParent current) (accessible bus current)
      if parent.isNull then throw (.staleTarget "accessibility target left its surface")
      else climb root owner fuel (← ofExcept (StoredObject.fromRef bus parent)) (id :: seen)

def validateLiveDescendant (object root : StoredObject) (processId : UInt32)
    (processGeneration : String) : AtspiM Unit :=
  climb deadlineAtMs bus root ⟨root.busName, processId, processGeneration⟩ (maxDepth + 1) object []

/-! ### The walk -/

variable (build : Build) (window : SurfaceWindow) (observationId : String)

/-- An object that waits to be visited, under the element it was found in. -/
structure Pending where
  object : StoredObject
  parentId : Option String
  depth : Nat
  deriving DecidableEq

structure Walk where
  queue : List Pending
  seen : List String
  elements : List SemanticElement
  targets : List (String × StoredTarget)
  truncated : Bool

def insertTarget (targets : List (String × StoredTarget)) (id : String) (target : StoredTarget) :
    List (String × StoredTarget) :=
  targets.filter (fun entry => entry.1 ≠ id) ++ [(id, target)]

/-- A child that is taken into the queue. -/
def bindChild (parent : StoredObject) (child : ObjectRef) : AtspiM StoredObject := do
  checkObservationBoundary deadlineAtMs
  if child.isNull then throw (.staleTarget "accessibility tree changed")
  else
    let child ← ofExcept (StoredObject.fromRef bus child)
    validateChildBinding deadlineAtMs bus child parent window.owner
    pure child

/-- The element of an object, sampled twice. -/
def describe (object : StoredObject) (backendId : String) (parentId : Option String) (index : Nat) :
    AtspiM (SemanticElement × StoredTarget) := do
  let first ← ofExcept (← ask (.sample object))
  checkObservationBoundary deadlineAtMs
  let second ← ofExcept (← ask (.sample object))
  let stable := first.identity = second.identity ∧ first.valueHash = second.valueHash
  let elementId ← mapErr semanticError (opaqueElementId build observationId backendId)
  let fingerprintHash := hashSerializable build second.identity.toJson
  let tag ← mapErr semanticError (semanticTag index)
  pure ({
    tag
    elementId
    parentId
    fingerprintHash
    role := second.identity.role
    name := second.identity.name
    bounds := second.identity.bounds
    actionability := { second.actionability with stable } }, ⟨object, second.invokeAction⟩)

/-- The children that are queued once an object is visited. -/
def enqueueChildren (walk : Walk) (object : StoredObject) (elementId : String) (depth : Nat) :
    AtspiM Walk := do
  accessible bus object
  let children ← providerCall deadlineAtMs (.getChildren object) (pure ())
  if depth = maxDepth then
    pure { walk with truncated := walk.truncated || !children.isEmpty }
  else
    let remaining := maxElements - (walk.elements.length + walk.queue.length)
    let toRead := min children.length remaining
    let bound ← (children.take toRead).mapM (bindChild deadlineAtMs bus window object)
    pure { walk with
      truncated := walk.truncated || children.length > toRead
      queue := walk.queue ++ bound.map fun child => ⟨child, some elementId, depth + 1⟩ }

def visit (walk : Walk) (next : Pending) : AtspiM Walk := do
  let backendId ← ofExcept (next.object.id bus)
  if backendId ∈ walk.seen then throw (.executor "ambiguous accessibility tree")
  else
    validateObjectOwner deadlineAtMs bus next.object window.owner
    let (element, target) ← describe deadlineAtMs build observationId next.object backendId
      next.parentId walk.elements.length
    let visited : Walk := { walk with
      seen := backendId :: walk.seen
      elements := walk.elements ++ [element]
      targets := insertTarget walk.targets element.elementId target }
    enqueueChildren deadlineAtMs bus window visited next.object element.elementId next.depth

/-- The rounds of the walk, or nothing when the fuel does not suffice. -/
def walkFrom : Nat → Walk → AtspiM (Option Walk)
  | 0, _ => pure none
  | fuel + 1, walk =>
    match walk.queue with
    | [] => pure (some walk)
    | next :: queue => do
      checkObservationBoundary deadlineAtMs
      if walk.elements.length = maxElements then
        pure (some { walk with queue, truncated := true })
      else
        let walk ← visit deadlineAtMs bus build window observationId { walk with queue } next
        walkFrom fuel walk

def startWalk : Walk := ⟨[⟨window.object, none, 0⟩], [], [], [], false⟩

/-! ### Snapshots -/

def StoredTarget.validate (target : StoredTarget) : Except ProtocolError Unit := do
  target.object.validate bus
  if target.invokeAction.any fun action =>
      action.index < 0 || action.index.toInt.toNat ≥ maxActions ||
        !(["activate", "click", "press"].any fun allowed =>
          action.name.toList.map Char.toLower = allowed.toList) then
    throw (.staleTarget "accessibility action is invalid")
  else pure ()

def changedMapping : ProtocolError := .staleTarget "semantic mapping changed"

def changedWindow : ProtocolError := .staleTarget "target window changed"

def orThrow {ε α : Type} (error : ProtocolError) : Except ε α → Except ProtocolError α
  | .ok value => pure value
  | .error _ => throw error

/-- The target of an element is stored under its identifier. -/
def StoredSnapshot.validateElement (stored : StoredSnapshot) (element : SemanticElement) :
    Except ProtocolError Unit :=
  match stored.targets.lookup element.elementId with
  | none => throw changedMapping
  | some target => do
    target.validate bus
    let backendId ← target.object.id bus
    let elementId ←
      orThrow semanticError (opaqueElementId build stored.observation.observationId backendId)
    if elementId ≠ element.elementId ||
        target.invokeAction.isSome ≠ element.actionability.invokable then
      throw changedMapping
    else pure ()

def StoredSnapshot.validate (stored : StoredSnapshot) (nowMs : Int64) :
    Except ProtocolError Unit := do
  orThrow semanticError (stored.observation.validate nowMs)
  if stored.protocolVersion ≠ Praefectus.protocolVersion ||
      stored.observation.provenance.backend ≠ .accessibility ||
      stored.observation.provenance.backendName ≠ backend ||
      stored.observation.provenance.documentId.isSome ||
      stored.processId ≠ stored.observation.provenance.processId ||
      stored.processGeneration ≠ stored.observation.provenance.processGeneration ||
      stored.targets.length ≠ stored.observation.elements.length then
    throw (.staleTarget "semantic observation changed")
  else
    stored.window.validate bus
    let windowId ← stored.window.id bus
    if !semanticHash stored.windowFingerprintHash then throw changedWindow
    else if hashSerializable build (.str windowId) ≠ stored.observation.provenance.windowId then
      throw changedWindow
    else stored.observation.elements.forM (stored.validateElement bus build)

def saturatingAdd (a b : Int64) : Int64 := .ofIntClamp (a.toInt + b.toInt)

def checkDisplayGeometry (displayGeometryHash : String) : AtspiM Unit := do
  if (← ofExcept (← ask .displayGeometryHash)) = displayGeometryHash then pure ()
  else throw (.staleTarget "display geometry changed")

/-- The values the identifier of an observation is made of, in order. -/
def observationSeed (generation : UInt64) (observedAtMs : Int64) (observerProcessId : UInt32)
    (observerProcessGeneration windowBackendId displayGeometryHash : String) : Json := .arr [
  .str backend,
  .ofUInt64 generation,
  .ofInt64 observedAtMs,
  .ofUInt32 observerProcessId,
  .str observerProcessGeneration,
  .ofUInt32 window.processId,
  .str window.processGeneration,
  .str windowBackendId,
  .str window.fingerprintHash,
  .str displayGeometryHash]

/-- A snapshot of a window, or nothing when the fuel of its walk does not suffice. -/
def snapshotWindow (fuel : Nat) (displayGeometryHash : String) :
    AtspiM (Option SemanticObservation) := do
  checkObservationBoundary deadlineAtMs
  checkDisplayGeometry displayGeometryHash
  ofExcept (← ask (.validateSurfaceWindow window))
  let generation ← ask .nextGeneration
  let observedAtMs ← ask .nowMs
  let observerProcessId ← ask .observerProcessId
  let observerProcessGeneration ← ofExcept (← ask (.processGeneration observerProcessId))
  let windowBackendId ← ofExcept (window.object.id bus)
  let observationId := hashSerializable build (observationSeed window generation observedAtMs
    observerProcessId observerProcessGeneration windowBackendId displayGeometryHash)
  match ← walkFrom deadlineAtMs bus build window observationId fuel (startWalk window) with
  | none => pure none
  | some walk =>
    checkDisplayGeometry displayGeometryHash
    ofExcept (← ask (.validateSurfaceWindow window))
    let observation : SemanticObservation := {
      protocolVersion := Praefectus.protocolVersion
      observationId
      generation
      provenance := {
        backend := .accessibility
        backendName := backend
        processId := window.processId
        processGeneration := window.processGeneration
        windowId := window.windowId
        documentId := none
        displayGeometryHash
        hostOptIns := [] }
      observedAtMs
      expiresAtMs := saturatingAdd observedAtMs observationLifetimeMs
      truncated := walk.truncated
      elements := walk.elements }
    mapErr semanticError (observation.validate (← ask .nowMs))
    let stored : StoredSnapshot := {
      protocolVersion := Praefectus.protocolVersion
      observation
      targets := walk.targets
      window := window.object
      windowFingerprintHash := window.fingerprintHash
      processId := window.processId
      processGeneration := window.processGeneration }
    ofExcept (stored.validate bus build (← ask .nowMs))
    ofExcept (← ask (.persist observationId stored))
    ofExcept (← ask (.setLatest stored))
    pure (some observation)

end

end Praefectus.Atspi
