import Praefectus.Observe.Linux

/-!
# Observation of a target on Linux

The evidence of a target: the object that an earlier snapshot named is found again, sampled
twice, and its live identity and state are returned with a hash.
-/

namespace Praefectus.Atspi

open Json

def maxActionNameBytes : Nat := 128

def maxTextBytes : Nat := 1024

def maxValueCharacters : Nat := 16 * 1024

def maxValueBytes : Nat := 16 * 1024

/-! ### Requests -/

inductive State where
  | active | busy | defunct | editable | enabled | iconified | readOnly | sensitive | showing
  | visible
  deriving DecidableEq

abbrev StateSet := List State

inductive AccessibleInterface where
  | action | component | editableText | text
  deriving DecidableEq

/-- The interfaces of an object that are asked for, and the bits of all of them. -/
structure InterfaceSet where
  interfaces : List AccessibleInterface
  bits : UInt32
  deriving DecidableEq

structure Extents where
  x : Int32
  y : Int32
  width : Int32
  height : Int32
  deriving DecidableEq

inductive TargetCall where
  | getRole (object : StoredObject)
  | getRoleName (object : StoredObject)
  | name (object : StoredObject)
  | getState (object : StoredObject)
  | getInterfaces (object : StoredObject)
  | getExtents (object : StoredObject)
  | nActions (object : StoredObject)
  | getName (object : StoredObject) (index : Int32)
  | characterCount (object : StoredObject)
  | getText (object : StoredObject) (start stop : Int32)
  deriving DecidableEq

def TargetCall.Result : TargetCall → Type
  | .getRole _ => UInt32
  | .getRoleName _ => String
  | .name _ => String
  | .getState _ => StateSet
  | .getInterfaces _ => InterfaceSet
  | .getExtents _ => Extents
  | .nActions _ => Int32
  | .getName .. => String
  | .characterCount _ => Int32
  | .getText .. => String

/-- Beside the questions of a snapshot, those about what is stored and about one object. -/
inductive TargetOp where
  | bus (op : AtspiOp)
  | latest
  | loadPrivateObservation (observationId : String)
  | call (request : TargetCall)

abbrev TargetBus : Interface where
  Op := TargetOp
  Ans
    | .bus op => AtspiBus.Ans op
    | .latest => Except ProtocolError (Option StoredSnapshot)
    | .loadPrivateObservation _ => Except ProtocolError StoredSnapshot
    | .call request => Except NativeError request.Result

abbrev TargetM := ExceptT ProtocolError (Prog TargetBus)

def onBus {α : Type} : Prog AtspiBus α → Prog TargetBus α
  | .ret value => .ret value
  | .ask op next => .ask (.bus op) fun ans => onBus (next ans)

/-- What a snapshot does, done for a target. -/
def atspi {α : Type} (x : AtspiM α) : TargetM α := ExceptT.mk (onBus x.run)

def askTarget (op : TargetOp) : TargetM (TargetBus.Ans op) :=
  monadLift (Prog.perform (I := TargetBus) op)

/-! ### Texts -/

def boundedText (value : String) : Except ProtocolError String :=
  if value = "" || value.utf8ByteSize > maxTextBytes || value.toList.any isControl then
    throw (.executor "accessibility text is invalid")
  else pure value

def boundedOptionalText (value : String) : Except ProtocolError (Option String) :=
  if value = "" then pure none else some <$> boundedText value

def boundedActionName (value : String) : Except ProtocolError String :=
  if value = "" || value.utf8ByteSize > maxActionNameBytes || value.toList.any isControl then
    throw (.executor "accessibility action is invalid")
  else pure value

/-- The one action that invokes an object, with its index. -/
def selectInvokeAction (actions : List String) : Option InvokeAction :=
  match actions.zipIdx.filter fun action =>
    ["activate", "click", "press"].any fun allowed =>
      action.1.toList.map Char.toLower = allowed.toList with
  | [(name, index)] => if index < 2 ^ 31 then some ⟨.ofNat index, name⟩ else none
  | _ => none

/-! ### States -/

section

variable (bit : State → UInt64)

/-- The bits of those listed that an object is in. -/
def stateBits (listed : List State) (states : StateSet) : UInt64 :=
  listed.foldl (fun bits state => if state ∈ states then bits ||| bit state else bits) 0

def relevantStates (states : StateSet) : UInt64 :=
  stateBits bit [.active, .busy, .defunct, .editable, .enabled, .iconified, .readOnly, .sensitive,
    .showing, .visible] states

def surfaceStates (states : StateSet) : UInt64 :=
  stateBits bit [.defunct, .iconified, .showing, .visible] states

structure SurfaceIdentity where
  backendId : String
  roleCode : UInt32
  role : String
  name : Option String
  bounds : Option Rect
  states : UInt64
  deriving DecidableEq

def SurfaceIdentity.toJson (identity : SurfaceIdentity) : Json := .obj [
  ("backend_id", .str identity.backendId),
  ("role_code", ofUInt32 identity.roleCode),
  ("role", .str identity.role),
  ("name", ofOption .str identity.name),
  ("bounds", ofOption Rect.toJson identity.bounds),
  ("states", ofUInt64 identity.states)]

/-! ### Samples -/

variable (deadlineAtMs : Int64) (bus : Bus) (build : Build)

def checkTargetBoundary : TargetM Unit := atspi (checkObservationBoundary deadlineAtMs)

def targetCall (request : TargetCall) (proxy : TargetM Unit) : TargetM request.Result := do
  checkTargetBoundary deadlineAtMs
  proxy
  let answer ← askTarget (.call request)
  checkTargetBoundary deadlineAtMs
  atspi (mapErr executorError answer)

def accessibleProxy (object : StoredObject) : TargetM Unit := atspi (accessible bus object)

def action (object : StoredObject) : TargetM Unit := accessibleProxy bus object

def component (object : StoredObject) : TargetM Unit := accessibleProxy bus object

def text (object : StoredObject) : TargetM Unit := accessibleProxy bus object

def extentsBounds (extents : Extents) : Option Rect :=
  if 0 < extents.width ∧ 0 < extents.height then
    some ⟨extents.x.toInt64, extents.y.toInt64, extents.width.toInt64, extents.height.toInt64⟩
  else none

def states (object : StoredObject) : TargetM StateSet := do
  accessibleProxy bus object
  targetCall deadlineAtMs (.getState object) (pure ())

def surfaceIdentity (object : StoredObject) (states : StateSet) : TargetM SurfaceIdentity := do
  accessibleProxy bus object
  let roleCode ← targetCall deadlineAtMs (.getRole object) (pure ())
  let role ← atspi (ofExcept (boundedText
    (← targetCall deadlineAtMs (.getRoleName object) (pure ()))))
  let name ← atspi (ofExcept (boundedOptionalText
    (← targetCall deadlineAtMs (.name object) (pure ()))))
  let interfaces ← targetCall deadlineAtMs (.getInterfaces object) (pure ())
  let bounds ← if .component ∈ InterfaceSet.interfaces interfaces then
      extentsBounds <$> targetCall deadlineAtMs (.getExtents object) (component bus object)
    else pure none
  let backendId ← atspi (ofExcept (object.id bus))
  pure { backendId, roleCode, role, name, bounds, states := surfaceStates bit states }

def actionNames (object : StoredObject) : TargetM (List String) := do
  checkTargetBoundary deadlineAtMs
  let count ← targetCall deadlineAtMs (.nActions object) (pure ())
  if Int32.toInt count < 0 ∨ (Int32.toInt count).toNat > maxActions then
    throw (.executor "accessibility action limit exceeded")
  else
    (List.range (Int32.toInt count).toNat).mapM fun index => do
      checkTargetBoundary deadlineAtMs
      let name ← targetCall deadlineAtMs (.getName object (.ofNat index)) (pure ())
      atspi (ofExcept (boundedActionName name))

def valueHash (object : StoredObject) : TargetM (Option String) := do
  text bus object
  checkTargetBoundary deadlineAtMs
  let count ← targetCall deadlineAtMs (.characterCount object) (pure ())
  if Int32.toInt count < 0 ∨ (Int32.toInt count).toNat > maxValueCharacters then pure none
  else
    checkTargetBoundary deadlineAtMs
    let value ← targetCall deadlineAtMs (.getText object 0 count) (pure ())
    if String.utf8ByteSize value > maxValueBytes ∨
        (String.toList value).length ≠ (Int32.toInt count).toNat then pure none
    else pure (some (hashBytes build (String.asBytes value)))

def sample (object : StoredObject) (includeValue : Bool) : TargetM NodeSample := do
  accessibleProxy bus object
  let role ← atspi (ofExcept (boundedText
    (← targetCall deadlineAtMs (.getRoleName object) (pure ()))))
  let name ← atspi (ofExcept (boundedOptionalText
    (← targetCall deadlineAtMs (.name object) (pure ()))))
  let states : StateSet ← targetCall deadlineAtMs (.getState object) (pure ())
  let interfaces : InterfaceSet ← targetCall deadlineAtMs (.getInterfaces object) (pure ())
  let bounds ← if .component ∈ interfaces.interfaces then do
      component bus object
      extentsBounds <$> targetCall deadlineAtMs (.getExtents object) (pure ())
    else pure none
  let actions ← if .action ∈ interfaces.interfaces then do
      action bus object
      actionNames deadlineAtMs object
    else pure []
  let invokeAction := selectInvokeAction actions
  let valueHash ← if includeValue ∧ .text ∈ interfaces.interfaces then
      valueHash deadlineAtMs bus build object
    else pure none
  let visible := .visible ∈ states ∧ .showing ∈ states ∧ .defunct ∉ states ∧ .iconified ∉ states
  let enabled := .enabled ∈ states ∧ .sensitive ∈ states ∧ .busy ∉ states
  let editable :=
    .editableText ∈ interfaces.interfaces ∧ .editable ∈ states ∧ .readOnly ∉ states
  let backendId ← atspi (ofExcept (object.id bus))
  pure {
    identity := {
      backendId, role, name, bounds, relevantStates := relevantStates bit states,
      interfaces := interfaces.bits, actions }
    actionability := {
      visible, enabled, unambiguous := true, stable := false, receivesEvents := false,
      invokable := invokeAction.isSome, editable }
    invokeAction
    valueHash }

/-! ### The target -/

def changedTarget : ProtocolError := .staleTarget "semantic target changed"

def validateProcessAndWindow (stored : StoredSnapshot) : TargetM Unit := do
  checkTargetBoundary deadlineAtMs
  let processId ← atspi (processId deadlineAtMs bus stored.window)
  if processId ≠ stored.processId then throw (.staleTarget "target process changed")
  else if (← atspi (do ofExcept (← ask (.processGeneration processId)))) ≠
      stored.processGeneration then
    throw (.staleTarget "target process changed")
  else
    let states ← states deadlineAtMs bus stored.window
    if .visible ∉ states ∨ .showing ∉ states ∨ .defunct ∈ states ∨ .iconified ∈ states then
      throw changedWindow
    else
      let identity ← surfaceIdentity bit deadlineAtMs bus stored.window states
      if hashSerializable build identity.toJson ≠ stored.windowFingerprintHash then
        throw changedWindow
      else pure ()

def latestSnapshot : TargetM (Option StoredSnapshot) := do
  let latest : Except ProtocolError (Option StoredSnapshot) ← askTarget .latest
  atspi (ofExcept latest)

def loadPrivateObservation (observationId : String) : TargetM StoredSnapshot := do
  let loaded : Except ProtocolError StoredSnapshot ←
    askTarget (.loadPrivateObservation observationId)
  atspi (ofExcept loaded)

/-- The snapshot that the target is of: the one in memory, or else the one on disk. -/
def storedOf (target : SemanticTargetRef) : TargetM StoredSnapshot := do
  match ← latestSnapshot with
  | some stored =>
    if stored.observation.observationId = target.observationId then pure stored
    else loadPrivateObservation target.observationId
  | none => loadPrivateObservation target.observationId

/-- The one object that is stored for the target's element. -/
def storedTarget (stored : StoredSnapshot) (target : SemanticTargetRef) :
    Except ProtocolError StoredTarget :=
  match stored.targets.filter fun entry => entry.1 = target.elementId with
  | [] => throw changedTarget
  | [(_, found)] => pure found
  | _ => throw (.staleTarget "semantic target is ambiguous")

def resolveLive (target : SemanticTargetRef) (includeValue : Bool) :
    TargetM (StoredSnapshot × StoredObject × NodeSample) := do
  checkTargetBoundary deadlineAtMs
  let stored ← storedOf target
  checkTargetBoundary deadlineAtMs
  atspi (checkDisplayGeometry stored.observation.provenance.displayGeometryHash)
  atspi (do ofExcept (stored.validate bus build (← ask .nowMs)))
  if stored.observation.observationId ≠ target.observationId then
    throw (.staleTarget "semantic observation changed")
  else
    let expected ← atspi do
      mapErr semanticError (stored.observation.resolve build target (← ask .nowMs))
    let found ← atspi (ofExcept (storedTarget stored target))
    atspi (ofExcept (found.validate bus))
    validateProcessAndWindow bit deadlineAtMs bus build stored
    atspi (validateLiveDescendant deadlineAtMs bus found.object stored.window stored.processId
      stored.processGeneration)
    let first ← sample bit deadlineAtMs bus build found.object includeValue
    checkTargetBoundary deadlineAtMs
    let second ← sample bit deadlineAtMs bus build found.object includeValue
    let stable : Bool := first.identity = second.identity ∧ first.valueHash = second.valueHash
    let second : NodeSample :=
      { second with actionability := { second.actionability with stable } }
    if !stable || hashSerializable build second.identity.toJson ≠ expected.fingerprintHash ||
        second.invokeAction ≠ found.invokeAction then
      throw changedTarget
    else pure (stored, found.object, second)

def observationState (actionability : Actionability) (valueHash : Option String) : Value where
  json := .obj (("actionability", actionability.toJson) ::
    (valueHash.map fun hash => ("value_hash", .str hash)).toList)
  unique := by cases valueHash <;> rfl

/-- The values the hash of an observation is made of, in order. -/
def evidenceSeed (target : SemanticTargetRef) (fingerprintHash : String) (nowMs : Int64) : Json :=
  .arr [.str target.observationId, ofUInt64 target.generation, .str fingerprintHash, ofInt64 nowMs]

def observeTarget (target : SemanticTargetRef) : TargetM Observation := do
  checkTargetBoundary deadlineAtMs
  let (stored, _, sample) ← resolveLive bit deadlineAtMs bus build target true
  let fingerprintHash := hashSerializable build sample.identity.toJson
  let hashedAtMs ← atspi (ask .nowMs)
  let observationHash := hashSerializable build (evidenceSeed target fingerprintHash hashedAtMs)
  let observedAtMs ← atspi (ask .nowMs)
  pure {
    evidence := {
      observationHash
      targetFingerprintHash := some fingerprintHash
      displayGeometryHash := stored.observation.provenance.displayGeometryHash
      observedAtMs }
    state := observationState sample.actionability sample.valueHash }

end

end Praefectus.Atspi
