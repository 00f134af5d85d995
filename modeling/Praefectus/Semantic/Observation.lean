import Praefectus.Protocol.Request

/-!
# Semantic observations

A snapshot of the elements a backend found, the checks it passes before it is used,
and the two ways between its elements and the targets that name them.
-/

namespace Praefectus

open Json

def maxSemanticElements : Nat := 4096

def maxSemanticSnapshotBytes : Nat := 2 * 1024 * 1024

def maxSemanticObservationAgeMs : Int64 := 30000

def maxHostOptIns : Nat := 8

inductive SemanticBackend where
  | accessibility | dom
  deriving DecidableEq

structure SemanticProvenance where
  backend : SemanticBackend
  backendName : String
  processId : UInt32
  processGeneration : String
  windowId : String
  documentId : Option String
  displayGeometryHash : String
  hostOptIns : List String
  deriving DecidableEq

structure Actionability where
  visible : Bool
  enabled : Bool
  unambiguous : Bool
  stable : Bool
  receivesEvents : Bool
  invokable : Bool
  editable : Bool
  deriving DecidableEq

structure Rect where
  x : Int64
  y : Int64
  width : Int64
  height : Int64
  deriving DecidableEq

structure SemanticElement where
  tag : String
  elementId : String
  parentId : Option String
  fingerprintHash : String
  role : String
  name : Option String
  bounds : Option Rect
  actionability : Actionability
  deriving DecidableEq

structure SemanticObservation where
  protocolVersion : UInt16
  observationId : String
  generation : UInt64
  provenance : SemanticProvenance
  observedAtMs : Int64
  expiresAtMs : Int64
  truncated : Bool
  elements : List SemanticElement
  deriving DecidableEq

inductive SemanticError where
  | invalidObservation
  | staleObservation
  | targetNotFound
  | ambiguousTarget
  | staleTarget
  | targetNotActionable
  | unsupportedAction
  deriving DecidableEq

/-! ### JSON form -/

def SemanticBackend.text : SemanticBackend → String
  | .accessibility => "accessibility"
  | .dom => "dom"

def SemanticProvenance.toJson (provenance : SemanticProvenance) : Json := .obj [
  ("backend", .str provenance.backend.text),
  ("backend_name", .str provenance.backendName),
  ("process_id", ofUInt32 provenance.processId),
  ("process_generation", .str provenance.processGeneration),
  ("window_id", .str provenance.windowId),
  ("document_id", ofOption .str provenance.documentId),
  ("display_geometry_hash", .str provenance.displayGeometryHash),
  ("host_opt_ins", ofStrings provenance.hostOptIns)]

def Actionability.toJson (actionability : Actionability) : Json := .obj [
  ("visible", .bool actionability.visible),
  ("enabled", .bool actionability.enabled),
  ("unambiguous", .bool actionability.unambiguous),
  ("stable", .bool actionability.stable),
  ("receives_events", .bool actionability.receivesEvents),
  ("invokable", .bool actionability.invokable),
  ("editable", .bool actionability.editable)]

def Rect.toJson (bounds : Rect) : Json := .obj [
  ("x", ofInt64 bounds.x),
  ("y", ofInt64 bounds.y),
  ("width", ofInt64 bounds.width),
  ("height", ofInt64 bounds.height)]

def SemanticElement.toJson (element : SemanticElement) : Json := .obj [
  ("tag", .str element.tag),
  ("element_id", .str element.elementId),
  ("parent_id", ofOption .str element.parentId),
  ("fingerprint_hash", .str element.fingerprintHash),
  ("role", .str element.role),
  ("name", ofOption .str element.name),
  ("bounds", ofOption Rect.toJson element.bounds),
  ("actionability", element.actionability.toJson)]

def SemanticObservation.toJson (observation : SemanticObservation) : Json := .obj [
  ("protocol_version", ofUInt16 observation.protocolVersion),
  ("observation_id", .str observation.observationId),
  ("generation", ofUInt64 observation.generation),
  ("provenance", observation.provenance.toJson),
  ("observed_at_ms", ofInt64 observation.observedAtMs),
  ("expires_at_ms", ofInt64 observation.expiresAtMs),
  ("truncated", .bool observation.truncated),
  ("elements", .arr (observation.elements.map SemanticElement.toJson))]

/-! ### Checks of single values -/

/-- A text of a bounded number of bytes, without control characters and not blank. -/
def validText (value : String) (minimum maximum : Nat) : Bool :=
  minimum ≤ value.utf8ByteSize && value.utf8ByteSize ≤ maximum &&
    value.characters.all (fun c => !isControl c) && !value.characters.all isWhitespace

/-- `e` and an index of at most four digits. -/
def validTag (value : String) : Bool :=
  match value.toList with
  | 'e' :: index => index ≠ [] && (utf8 index).length ≤ 4 && index.all Char.isDigit
  | _ => false

def validHostOptIns (optIns : List String) : Bool :=
  optIns.length ≤ maxHostOptIns && decide (optIns.IsChain (· < ·)) &&
    optIns.all fun optIn =>
      validText optIn 1 128 && optIn.toList.all fun c => c.isAlphanum || c = '_'

def validProvenance (provenance : SemanticProvenance) : Bool :=
  provenance.processId > 0 &&
    validText provenance.backendName 1 128 &&
    validText provenance.processGeneration 1 256 &&
    validText provenance.windowId 1 512 &&
    semanticHash provenance.displayGeometryHash &&
    validHostOptIns provenance.hostOptIns &&
    match provenance.backend with
    | .accessibility => provenance.documentId.isNone
    | .dom => provenance.documentId.any fun value => validText value 1 512

def validElement (element : SemanticElement) : Bool :=
  validTag element.tag &&
    semanticHash element.elementId &&
    semanticHash element.fingerprintHash &&
    element.parentId.all semanticHash &&
    validText element.role 1 128 &&
    (element.name.all fun value => validText value 0 1024) &&
    element.bounds.all fun bounds => bounds.width > 0 && bounds.height > 0

/-! ### Identifiers of elements -/

/-- The identifier that stands for an element of a backend in one observation. -/
def opaqueElementId (build : Build) (observationId backendElementId : String) :
    Except SemanticError String :=
  if !semanticHash observationId || !validText backendElementId 1 2048 then
    throw .invalidObservation
  else pure (hashBytes build (observationId.asBytes ++ [0] ++ backendElementId.asBytes))

def semanticTag (index : Nat) : Except SemanticError String :=
  if index ≥ maxSemanticElements then throw .invalidObservation else pure ("e" ++ toString index)

/-! ### The elements as a forest -/

/-- The elements seen so far, by their identifiers. -/
abbrev Mapping := List SemanticElement

def Mapping.get (elements : Mapping) (id : String) : Option SemanticElement :=
  elements.find? fun element => element.elementId = id

def insertElement (elements : Mapping) (element : SemanticElement) :
    Except SemanticError Mapping :=
  if !validElement element then throw .invalidObservation
  else if elements.any fun earlier => earlier.tag = element.tag then throw .ambiguousTarget
  else if elements.any fun earlier => earlier.elementId = element.elementId then
    throw .ambiguousTarget
  else pure (elements ++ [element])

/-- Whether the walk from one element to its parent comes to an element twice. Every step
but the last is at an element of its own, so the fuel outlasts them. -/
def revisits (elements : Mapping) : Nat → List String → Option String → Bool
  | _, _, none => false
  | 0, _, some _ => true
  | fuel + 1, ancestors, some id =>
    ancestors.contains id ||
      revisits elements fuel (id :: ancestors) ((elements.get id).bind (·.parentId))

def checkParents (elements : Mapping) (element : SemanticElement) : Except SemanticError Unit :=
  if element.parentId.any fun parent =>
      parent = element.elementId || (elements.get parent).isNone then
    throw .invalidObservation
  else if revisits elements (elements.length + 2) [] element.parentId then
    throw .invalidObservation
  else pure ()

def buildMapping (elementsSlice : List SemanticElement) : Except SemanticError Mapping := do
  let elements ← elementsSlice.foldlM insertElement []
  elementsSlice.forM (checkParents elements)
  pure elements

/-! ### Observations and targets -/

def saturatingSub (a b : Int64) : Int64 := .ofIntClamp (a.toInt - b.toInt)

namespace SemanticObservation

def validate (observation : SemanticObservation) (nowMs : Int64) : Except SemanticError Unit :=
  if observation.protocolVersion ≠ Praefectus.protocolVersion ||
      !semanticHash observation.observationId ||
      observation.generation = 0 ||
      observation.observedAtMs ≤ 0 ||
      observation.expiresAtMs ≤ observation.observedAtMs ||
      saturatingSub observation.expiresAtMs observation.observedAtMs >
        maxSemanticObservationAgeMs ||
      nowMs < observation.observedAtMs ||
      observation.elements.length > maxSemanticElements ||
      !validProvenance observation.provenance ||
      (utf8 observation.toJson.print).length > maxSemanticSnapshotBytes then
    throw .invalidObservation
  else if nowMs ≥ observation.expiresAtMs then throw .staleObservation
  else do
    let _ ← buildMapping observation.elements
    pure ()

/-- The values the provenance hash covers, in order. -/
def fence (observation : SemanticObservation) : Json := .arr [
  ofUInt16 observation.protocolVersion,
  .str observation.observationId,
  ofUInt64 observation.generation,
  observation.provenance.toJson,
  ofInt64 observation.observedAtMs,
  ofInt64 observation.expiresAtMs]

def provenanceHash (build : Build) (observation : SemanticObservation) : String :=
  hashSerializable build observation.fence

def target (build : Build) (observation : SemanticObservation) (tag : String) :
    Except SemanticError SemanticTargetRef :=
  match observation.elements.filter fun element => element.tag = tag with
  | [] => throw .targetNotFound
  | [element] => pure {
      observationId := observation.observationId
      generation := observation.generation
      provenanceHash := observation.provenanceHash build
      elementId := element.elementId
      fingerprintHash := element.fingerprintHash }
  | _ => throw .ambiguousTarget

def resolve (build : Build) (observation : SemanticObservation) (target : SemanticTargetRef)
    (nowMs : Int64) : Except SemanticError SemanticElement := do
  observation.validate nowMs
  if target.observationId ≠ observation.observationId ||
      target.generation ≠ observation.generation ||
      target.provenanceHash ≠ observation.provenanceHash build ||
      !semanticHash target.elementId ||
      !semanticHash target.fingerprintHash then
    throw .staleTarget
  else match observation.elements.filter fun element => element.elementId = target.elementId with
    | [] => throw .targetNotFound
    | [element] =>
      if element.fingerprintHash ≠ target.fingerprintHash then throw .staleTarget
      else pure element
    | _ => throw .ambiguousTarget

end SemanticObservation

end Praefectus
