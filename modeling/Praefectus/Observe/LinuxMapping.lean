import Praefectus.Observe.Linux
import Praefectus.Semantic.ElementIds
import Praefectus.Text.Sha256
import Praefectus.Text.Joined

/-!
# Stored snapshots on Linux

A stored snapshot that validates maps each element of its observation to one object of
the bus, and no other file can map that element to another object.
-/

namespace Praefectus.Atspi

/-- The values of a composed computation. -/
theorem bind_ok {ε α β : Type} {x : Except ε α} {f : α → Except ε β} {b : β} :
    (x >>= f) = .ok b ↔ ∃ a, x = .ok a ∧ f a = .ok b := by
  cases x with
  | error e =>
    refine iff_of_false nofun ?_
    rintro ⟨_, failed, _⟩
    cases failed
  | ok a =>
    constructor
    · intro same
      exact ⟨a, rfl, same⟩
    · rintro ⟨_, ⟨rfl⟩, same⟩
      exact same

theorem orThrow_ok {ε α : Type} {error : ProtocolError} {x : Except ε α} {a : α} :
    orThrow error x = .ok a ↔ x = .ok a := by
  cases x with
  | error e => exact iff_of_false nofun nofun
  | ok a' =>
    constructor
    · rintro ⟨rfl⟩
      rfl
    · rintro ⟨rfl⟩
      rfl

/-! ### The texts of objects -/

/-- What the bus library accepts as a path has no colon. -/
def Bus.PathsAreBare (bus : Bus) : Prop :=
  ∀ path, bus.isObjectPath path = true → ':' ∉ path.toList

theorem id_ok {bus : Bus} {object : StoredObject} {id : String}
    (named : object.id bus = .ok id) :
    bus.isObjectPath object.path = true ∧ id = object.busName ++ ":" ++ object.path := by
  obtain ⟨_, valid, named⟩ := bind_ok.mp named
  have path : bus.isObjectPath object.path = true := by
    unfold StoredObject.validate at valid
    split at valid
    · cases valid
    next accepted =>
      simp only [Bool.or_eq_true, Bool.not_eq_true', not_or, Bool.not_eq_false] at accepted
      exact accepted.2
  dsimp only at named
  split at named
  · cases named
  · exact ⟨path, (Except.ok.inj named).symm⟩

/-- The name of a bus may hold colons; the path after the last one does not. -/
theorem id_injective {bus : Bus} (bare : bus.PathsAreBare) {object other : StoredObject}
    {id : String} (first : object.id bus = .ok id) (second : other.id bus = .ok id) :
    object = other := by
  obtain ⟨path, rfl⟩ := id_ok first
  obtain ⟨path', same⟩ := id_ok second
  have texts := congrArg String.toList same
  simp only [String.toList_append, List.append_assoc] at texts
  obtain ⟨names, paths⟩ := cut_last (bare _ path) (bare _ path') texts
  cases object
  cases other
  obtain rfl := String.toList_injective names
  obtain rfl := String.toList_injective paths
  rfl

/-! ### What a stored snapshot that validates says -/

/-- An action that may be invoked, at an index that is read. -/
structure AllowedAction (action : InvokeAction) : Prop where
  inside : 0 ≤ action.index.toInt ∧ action.index.toInt < maxActions
  named : action.name.toList.map Char.toLower ∈ ["activate", "click", "press"].map String.toList

theorem target_allowed {bus : Bus} {target : StoredTarget} (valid : target.validate bus = .ok ())
    {action : InvokeAction} (invokes : target.invokeAction = some action) :
    AllowedAction action := by
  obtain ⟨_, _, valid⟩ := bind_ok.mp valid
  rw [invokes, Option.any_some] at valid
  split at valid
  · cases valid
  next accepted =>
    simp only [Bool.or_eq_true, decide_eq_true_eq, Bool.not_eq_true', not_or,
      Bool.not_eq_false, List.any_eq_true] at accepted
    obtain ⟨⟨nonnegative, few⟩, allowed, listed, same⟩ := accepted
    have nonnegative : 0 ≤ action.index.toInt := Int.not_lt.mp fun below =>
      nonnegative (Int32.lt_iff_toInt_lt.mpr below)
    refine ⟨⟨nonnegative, ?_⟩, ?_⟩
    · omega
    · rw [same]
      exact List.mem_map_of_mem listed

variable {bus : Bus} {build : Build} {stored other : StoredSnapshot} {nowMs nowMs' : Int64}

/-- The target of an element. -/
structure Maps (bus : Bus) (build : Build) (stored : StoredSnapshot) (element : SemanticElement)
    (target : StoredTarget) : Prop where
  found : stored.targets.lookup element.elementId = some target
  named : ∃ backendId, target.object.id bus = .ok backendId ∧
    opaqueElementId build stored.observation.observationId backendId = .ok element.elementId
  invokable : element.actionability.invokable = true ↔
    ∃ action, target.invokeAction = some action ∧ AllowedAction action

theorem maps_of_validate {element : SemanticElement}
    (valid : stored.validateElement bus build element = .ok ()) :
    ∃ target, Maps bus build stored element target := by
  unfold StoredSnapshot.validateElement at valid
  split at valid
  · cases valid
  next target found =>
    obtain ⟨_, allowed, valid⟩ := bind_ok.mp valid
    obtain ⟨backendId, named, valid⟩ := bind_ok.mp valid
    obtain ⟨elementId, opaqueId, valid⟩ := bind_ok.mp valid
    split at valid
    · cases valid
    next accepted =>
      simp only [ne_eq, Bool.or_eq_true, decide_eq_true_eq, not_or, not_not] at accepted
      obtain ⟨rfl, invokes⟩ := accepted
      refine ⟨target, found, ⟨backendId, named, orThrow_ok.mp opaqueId⟩, ?_⟩
      rw [← invokes, Option.isSome_iff_exists]
      constructor
      · rintro ⟨action, same⟩
        exact ⟨action, same, target_allowed allowed same⟩
      · rintro ⟨action, same, _⟩
        exact ⟨action, same⟩

/-- The stored snapshot maps its elements, and nothing else, and is of the window and process
that its observation names. -/
structure Faithful (bus : Bus) (build : Build) (stored : StoredSnapshot) : Prop where
  entries : (stored.targets.map Prod.fst).Perm (stored.observation.elements.map (·.elementId))
  once : (stored.observation.elements.map (·.elementId)).Nodup
  mapped : ∀ element ∈ stored.observation.elements, ∃ target, Maps bus build stored element target
  apart : ∀ element ∈ stored.observation.elements, ∀ element' ∈ stored.observation.elements,
    ∀ target target', Maps bus build stored element target →
      Maps bus build stored element' target' → target.object = target'.object → element = element'
  window : ∃ windowId, stored.window.id bus = .ok windowId ∧
    stored.observation.provenance.windowId = hashSerializable build (.str windowId)
  processId : stored.processId = stored.observation.provenance.processId
  processGeneration :
    stored.processGeneration = stored.observation.provenance.processGeneration

/-- As many keys as there are identifiers, each of which is a key. -/
theorem keys_perm {targets : List (String × StoredTarget)} {ids : List String} (once : ids.Nodup)
    (length : targets.length = ids.length) (found : ∀ id ∈ ids, ∃ target,
      targets.lookup id = some target) : (targets.map Prod.fst).Perm ids := by
  have within : ids ⊆ targets.map Prod.fst := by
    intro id member
    obtain ⟨target, found⟩ := found id member
    obtain ⟨before, after, rfl, _⟩ := List.lookup_eq_some_iff.mp found
    simp
  refine ((List.subperm_of_subset once within).perm_of_length_le ?_).symm
  rw [List.length_map, length]

theorem faithful_of_validate (valid : stored.validate bus build nowMs = .ok ()) :
    Faithful bus build stored := by
  obtain ⟨_, observation, valid⟩ := bind_ok.mp valid
  have wellFormed := (validate_ok (orThrow_ok.mp observation)).2.2
  split at valid
  · cases valid
  next accepted =>
    simp only [ne_eq, Bool.or_eq_true, decide_eq_true_eq, not_or, not_not] at accepted
    obtain ⟨⟨⟨_, processId⟩, processGeneration⟩, length⟩ := accepted
    obtain ⟨_, _, valid⟩ := bind_ok.mp valid
    obtain ⟨windowId, window, valid⟩ := bind_ok.mp valid
    split at valid
    · cases valid
    split at valid
    · cases valid
    next same =>
      have mapped : ∀ element ∈ stored.observation.elements,
          ∃ target, Maps bus build stored element target := fun element member =>
        maps_of_validate (forM_ok.mp valid element member)
      refine ⟨?_, wellFormed.ids, mapped, ?_, ⟨windowId, window, (not_not.mp same).symm⟩,
        processId, processGeneration⟩
      · refine keys_perm wellFormed.ids (by rw [List.length_map, length]) fun id member => ?_
        obtain ⟨element, listed, rfl⟩ := List.mem_map.mp member
        obtain ⟨target, maps⟩ := mapped element listed
        exact ⟨target, maps.found⟩
      · intro element member element' member' target target' maps maps' same
        obtain ⟨backendId, named, opaqueId⟩ := maps.named
        obtain ⟨backendId', named', opaqueId'⟩ := maps'.named
        rw [same] at named
        obtain rfl := Except.ok.inj (named.symm.trans named')
        have ids := Except.ok.inj (opaqueId.symm.trans opaqueId')
        exact List.inj_on_of_nodup_map wellFormed.ids member member' ids

/-- An entry of the map is of an element. -/
theorem Faithful.entry (faithful : Faithful bus build stored) {id : String} {target : StoredTarget}
    (found : stored.targets.lookup id = some target) :
    ∃ element ∈ stored.observation.elements, element.elementId = id ∧
      Maps bus build stored element target := by
  have listed : id ∈ stored.targets.map Prod.fst := by
    obtain ⟨before, after, same, _⟩ := List.lookup_eq_some_iff.mp found
    rw [same]
    simp
  obtain ⟨element, member, rfl⟩ := List.mem_map.mp (faithful.entries.mem_iff.mp listed)
  obtain ⟨target', maps⟩ := faithful.mapped element member
  obtain rfl := Option.some.inj (found.symm.trans maps.found)
  exact ⟨element, member, rfl, maps⟩

/-- Two stored snapshots agree on the object of an element, and on the observation it is in. -/
theorem Faithful.agree (distinct : Function.Injective build.sha256) (bare : bus.PathsAreBare)
    (faithful : Faithful bus build stored) (faithful' : Faithful bus build other) {id : String}
    {target target' : StoredTarget} (found : stored.targets.lookup id = some target)
    (found' : other.targets.lookup id = some target') :
    stored.observation.observationId = other.observation.observationId ∧
      target.object = target'.object := by
  obtain ⟨element, _, same, maps⟩ := faithful.entry found
  obtain ⟨element', _, same', maps'⟩ := faithful'.entry found'
  obtain ⟨backendId, named, opaqueId⟩ := maps.named
  obtain ⟨backendId', named', opaqueId'⟩ := maps'.named
  rw [same] at opaqueId
  rw [same'] at opaqueId'
  obtain ⟨observations, rfl⟩ := opaqueElementId_injective distinct opaqueId opaqueId'
  exact ⟨observations, id_injective bare named named'⟩

theorem Faithful.window_agree (distinct : Function.Injective build.sha256)
    (bare : bus.PathsAreBare) (faithful : Faithful bus build stored)
    (faithful' : Faithful bus build other)
    (same : stored.observation.provenance.windowId = other.observation.provenance.windowId) :
    stored.window = other.window := by
  obtain ⟨windowId, named, window⟩ := faithful.window
  obtain ⟨windowId', named', window'⟩ := faithful'.window
  rw [window, window'] at same
  obtain rfl : windowId = windowId' := Json.str.inj (hashSerializable_injective distinct same)
  exact id_injective bare named named'

/-- **A stored snapshot that validates is a faithful mapping**, and the only one. -/
theorem stored_snapshot_faithful (bus : Bus) (build : Build) (bare : bus.PathsAreBare)
    (distinct : Function.Injective build.sha256) (stored : StoredSnapshot) (nowMs : Int64)
    (valid : stored.validate bus build nowMs = .ok ()) :
    Faithful bus build stored ∧
      ∀ (other : StoredSnapshot) (nowMs' : Int64), other.validate bus build nowMs' = .ok () →
        (∀ id target target', stored.targets.lookup id = some target →
          other.targets.lookup id = some target' →
          stored.observation.observationId = other.observation.observationId ∧
            target.object = target'.object) ∧
        (stored.observation.provenance.windowId = other.observation.provenance.windowId →
          stored.window = other.window) := by
  have faithful := faithful_of_validate valid
  refine ⟨faithful, fun other nowMs' valid' => ?_⟩
  have faithful' := faithful_of_validate valid'
  exact ⟨fun _ _ _ => faithful.agree distinct bare faithful',
    faithful.window_agree distinct bare faithful'⟩

/-! ### A window with a button and an entry -/

def plainObject (path : String) : StoredObject := ⟨":1.7", path⟩

def plainWindow : StoredObject := plainObject "/window"

def plainButton : StoredObject := plainObject "/window/1"

def plainEntry : StoredObject := plainObject "/window/2"

def plainBus : Bus where
  isUniqueName name := name = ":1.7"
  isObjectPath path := path ∈ [plainWindow, plainButton, plainEntry].map StoredObject.path

theorem plainBus_bare : plainBus.PathsAreBare := by
  intro path accepted
  have bare : [plainWindow, plainButton, plainEntry].all (':' ∉ ·.path.toList) = true := by decide
  obtain ⟨object, listed, rfl⟩ := List.mem_map.mp (of_decide_eq_true accepted)
  exact of_decide_eq_true (List.all_eq_true.mp bare object listed)

def plainHash (text : String) : String := hexEncode (Sha256.sha256 text.asBytes)

/-- What is hashed for the identifier of an element. -/
def plainBytes (path : String) : List UInt8 :=
  (plainHash "observation").asBytes ++ [0] ++ (":1.7:" ++ path).asBytes

/-- The identifiers of the window and of the three objects. -/
def plainMessages : Sha256.Messages where
  texts := [canonicalJsonBytes (.str ":1.7:/window"), plainBytes "/window", plainBytes "/window/1",
    plainBytes "/window/2"]
  apart := by decide +kernel

def plainBuild : Build := ⟨false, plainMessages.digest⟩

def plainId (object : StoredObject) : String := hashBytes plainBuild (plainBytes object.path)

def plainElement (tag role : String) (object : StoredObject) (parentId : Option String)
    (editable invokable : Bool) : SemanticElement where
  tag := tag
  elementId := plainId object
  parentId := parentId
  fingerprintHash := plainHash role
  role := role
  name := none
  bounds := none
  actionability := ⟨true, true, true, true, true, invokable, editable⟩

def plainObservation (elements : List SemanticElement) (truncated : Bool) : SemanticObservation where
  protocolVersion := Praefectus.protocolVersion
  observationId := plainHash "observation"
  generation := 1
  provenance := {
    backend := .accessibility
    backendName := backend
    processId := 4242
    processGeneration := "generation"
    windowId := hashSerializable plainBuild (.str ":1.7:/window")
    documentId := none
    displayGeometryHash := plainHash "geometry"
    hostOptIns := [] }
  observedAtMs := 1000
  expiresAtMs := 31000
  truncated := truncated
  elements := elements

def plainStored : StoredSnapshot where
  protocolVersion := Praefectus.protocolVersion
  observation := plainObservation [plainElement "e0" "frame" plainWindow none false false,
    plainElement "e1" "push button" plainButton (some (plainId plainWindow)) false true,
    plainElement "e2" "entry" plainEntry (some (plainId plainWindow)) true false] false
  targets := [(plainId plainWindow, ⟨plainWindow, none⟩),
    (plainId plainButton, ⟨plainButton, some ⟨0, "Press"⟩⟩),
    (plainId plainEntry, ⟨plainEntry, none⟩)]
  window := plainWindow
  windowFingerprintHash := plainHash "window"
  processId := 4242
  processGeneration := "generation"

/-- The same observation, cut off before the entry, of a window that has changed. -/
def plainCut : StoredSnapshot :=
  { plainStored with
    observation := plainObservation [plainElement "e0" "frame" plainWindow none false false,
      plainElement "e1" "push button" plainButton (some (plainId plainWindow)) false true] true
    targets := [(plainId plainWindow, ⟨plainWindow, none⟩),
      (plainId plainButton, ⟨plainButton, some ⟨1, "Click"⟩⟩)]
    windowFingerprintHash := plainHash "changed window" }

theorem plain_valid : plainStored.validate plainBus plainBuild 2000 = .ok () ∧
    plainCut.validate plainBus plainBuild 3000 = .ok () := by
  decide +kernel

theorem stored_snapshot_faithful_plain :
    Faithful plainBus plainBuild plainStored ∧
      (∀ id target target', plainStored.targets.lookup id = some target →
        plainCut.targets.lookup id = some target' → target.object = target'.object) ∧
      plainStored.window = plainCut.window := by
  obtain ⟨faithful, agree⟩ := stored_snapshot_faithful plainBus plainBuild plainBus_bare
    plainMessages.digest_injective plainStored 2000 plain_valid.1
  obtain ⟨objects, windows⟩ := agree plainCut 3000 plain_valid.2
  exact ⟨faithful, fun id target target' found found' => (objects id target target' found found').2,
    windows rfl⟩

end Praefectus.Atspi
