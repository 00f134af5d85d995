import Praefectus.Observe.LinuxEvidence

/-!
# What a resolution on Linux has seen

A target that is found was found by its providers' own answers: the identity with the recorded
fingerprint is put together from them, and so is the way up from the object to the window that
was recorded.
-/

namespace Praefectus.Atspi

open Prog

section

variable (bit : State → UInt64) (bus : Bus) (build : Build) (seen : Event TargetBus → Prop)

/-! ### Answers -/

def CallSeen (request : TargetCall) (value : request.Result) : Prop :=
  seen ⟨.call request, .ok value⟩

def ProviderSeen (request : ProviderCall) (value : request.Result) : Prop :=
  seen ⟨.bus (.provider request), .ok value⟩

def GenerationSeen (processId : UInt32) (generation : String) : Prop :=
  seen ⟨.bus (.processGeneration processId), .ok generation⟩

/-- The object has the owner, by what the bus and the process say. -/
structure OwnerSeen (owner : Owner) (object : StoredObject) : Prop where
  busName : object.busName = owner.busName
  process : ProviderSeen seen (.unixProcessId object.busName) owner.processId
  generation : GenerationSeen seen owner.processId owner.processGeneration

/-- The way up, from parent to parent, where every object has the owner. -/
inductive Ascends (root : StoredObject) (owner : Owner) : StoredObject → Prop where
  | here (owned : OwnerSeen seen owner root) : Ascends root owner root
  | up {object parent : StoredObject} {reference : ObjectRef} (owned : OwnerSeen seen owner object)
      (told : ProviderSeen seen (.getParent object) reference)
      (same : StoredObject.fromRef bus reference = .ok parent)
      (rest : Ascends root owner parent) : Ascends root owner object

/-- The bounds that a component has, and nothing else has. -/
def BoundsSeen (object : StoredObject) (interfaces : InterfaceSet) (bounds : Option Rect) : Prop :=
  if .component ∈ interfaces.interfaces then
    ∃ extents, CallSeen seen (.getExtents object) extents ∧ bounds = extentsBounds extents
  else bounds = none

def ActionsSeen (object : StoredObject) (names : List String) : Prop :=
  ∃ count : Int32, CallSeen seen (.nActions object) count ∧ 0 ≤ count.toInt ∧
    count.toInt.toNat ≤ maxActions ∧
    List.Forall₂ (fun index name => CallSeen seen (.getName object (.ofNat index)) name)
      (List.range count.toInt.toNat) names

def nonempty (name : String) : Option String := if name = "" then none else some name

/-- The identity of an object, of its answers. -/
structure IdentitySeen (object : StoredObject) (identity : NodeIdentity) (states : StateSet)
    (interfaces : InterfaceSet) : Prop where
  backendId : object.id bus = .ok identity.backendId
  role : CallSeen seen (.getRoleName object) identity.role
  name : ∃ name, CallSeen seen (.name object) name ∧ identity.name = nonempty name
  inStates : CallSeen seen (.getState object) states ∧
    identity.relevantStates = relevantStates bit states
  implements : CallSeen seen (.getInterfaces object) interfaces ∧
    identity.interfaces = interfaces.bits
  bounds : BoundsSeen seen object interfaces identity.bounds
  actions : if .action ∈ interfaces.interfaces then ActionsSeen seen object identity.actions
    else identity.actions = []

/-- What can be done with an object in these states. -/
structure FitSeen (states : StateSet) (interfaces : InterfaceSet) (sample : NodeSample) : Prop where
  visible : sample.actionability.visible = true ↔
    .visible ∈ states ∧ .showing ∈ states ∧ .defunct ∉ states ∧ .iconified ∉ states
  enabled : sample.actionability.enabled = true ↔
    .enabled ∈ states ∧ .sensitive ∈ states ∧ .busy ∉ states
  editable : sample.actionability.editable = true ↔
    .editableText ∈ interfaces.interfaces ∧ .editable ∈ states ∧ .readOnly ∉ states
  invokable : sample.actionability.invokable = sample.invokeAction.isSome
  invokeAction : sample.invokeAction = selectInvokeAction sample.identity.actions

def SampleSeen (object : StoredObject) (sample : NodeSample) : Prop :=
  ∃ states interfaces, IdentitySeen bit bus seen object sample.identity states interfaces ∧
    FitSeen states interfaces sample

def isShown (states : StateSet) : Prop :=
  .visible ∈ states ∧ .showing ∈ states ∧ .defunct ∉ states ∧ .iconified ∉ states

/-- The identity of a window in these states, of its answers. -/
structure SurfaceSeen (window : StoredObject) (identity : SurfaceIdentity)
    (states : StateSet) : Prop where
  backendId : window.id bus = .ok identity.backendId
  roleCode : CallSeen seen (.getRole window) identity.roleCode
  role : CallSeen seen (.getRoleName window) identity.role
  name : ∃ name, CallSeen seen (.name window) name ∧ identity.name = nonempty name
  inStates : CallSeen seen (.getState window) states ∧
    identity.states = surfaceStates bit states
  bounds : ∃ interfaces, CallSeen seen (.getInterfaces window) interfaces ∧
    BoundsSeen seen window interfaces identity.bounds

/-- The window is shown, and is the recorded one, in the same states. -/
def WindowSeen (window : StoredObject) (fingerprintHash : String) : Prop :=
  ∃ identity states, SurfaceSeen bit bus seen window identity states ∧ isShown states ∧
    hashSerializable build identity.toJson = fingerprintHash

/-- The snapshot that was read is the one of the target, and is valid. -/
structure SnapshotSeen (target : SemanticTargetRef) (stored : StoredSnapshot) : Prop where
  origin : seen ⟨.latest, .ok (some stored)⟩ ∨
    seen ⟨.loadPrivateObservation target.observationId, .ok stored⟩
  geometry : seen ⟨.bus .displayGeometryHash,
    .ok stored.observation.provenance.displayGeometryHash⟩
  valid : ∃ nowMs : Int64, seen ⟨.bus .nowMs, nowMs⟩ ∧ stored.validate bus build nowMs = .ok ()
  recorded : ∃ (nowMs : Int64) (element : SemanticElement), seen ⟨.bus .nowMs, nowMs⟩ ∧
    stored.observation.resolve build target nowMs = .ok element

/-- What a resolution has found, and by which answers. -/
structure Resolved (target : SemanticTargetRef) (stored : StoredSnapshot) (object : StoredObject)
    (sample : NodeSample) : Prop where
  snapshot : SnapshotSeen bus build seen target stored
  listed : storedTarget stored target = .ok ⟨object, sample.invokeAction⟩
  process : ProviderSeen seen (.unixProcessId stored.window.busName) stored.processId ∧
    GenerationSeen seen stored.processId stored.processGeneration
  window : WindowSeen bit bus build seen stored.window stored.windowFingerprintHash
  ascends : Ascends bus seen stored.window
    ⟨stored.window.busName, stored.processId, stored.processGeneration⟩ object
  sampled : SampleSeen bit bus seen object sample
  same : hashSerializable build sample.identity.toJson = target.fingerprintHash
  stable : sample.actionability.stable = true

end

/-! ### Single calls -/

section

variable {bit : State → UInt64} {bus : Bus} {build : Build} {seen : Event TargetBus → Prop}
  {deadlineAtMs : Int64} {α β : Type}

/-- What is found is found by answers that were seen. -/
abbrev Sees (seen : Event TargetBus → Prop) (P : α → Prop) (x : TargetM α) : Prop :=
  Finds seen P (fun _ => True) x

abbrev SeesBus (seen : Event TargetBus → Prop) (P : α → Prop) (x : AtspiM α) : Prop :=
  Finds (fun e => seen ⟨.bus e.op, e.ans⟩) P (fun _ => True) x

theorem sees_atspi {P : α → Prop} {x : AtspiM α} (sees : SeesBus seen P x) :
    Sees seen P (atspi x) := by
  unfold Sees SeesBus Finds atspi at *
  rw [run_mk]
  generalize x.run = p at sees
  induction p with
  | ret result => exact sees
  | ask op next ih => exact fun ans answered => ih ans (sees ans answered)

theorem sees_ofExcept {P : α → Prop} {result : Except ProtocolError α}
    (holds : ∀ value, result = .ok value → P value) : SeesBus seen P (ofExcept result) := by
  cases result with
  | ok value => exact finds_pure (holds value rfl)
  | error e => exact finds_throw trivial

theorem sees_known {P : α → Prop} {result : Except ProtocolError α}
    (holds : ∀ value, result = .ok value → P value) : Sees seen P (atspi (ofExcept result)) :=
  sees_atspi (sees_ofExcept holds)

theorem sees_mapErr {ε : Type} {P : α → Prop} {error : ProtocolError} {result : Except ε α}
    (holds : ∀ value, result = .ok value → P value) : SeesBus seen P (mapErr error result) := by
  cases result with
  | ok value => exact finds_pure (holds value rfl)
  | error e => exact finds_throw trivial

theorem sees_ask {op : AtspiOp} : SeesBus seen (fun ans => seen ⟨.bus op, ans⟩) (ask op) :=
  finds_perform fun _ => id

theorem sees_askTarget {op : TargetOp} : Sees seen (fun ans => seen ⟨op, ans⟩) (askTarget op) :=
  finds_perform fun _ => id

theorem sees_providerCall {request : ProviderCall} {proxy : AtspiM Unit} :
    SeesBus seen (ProviderSeen seen request) (providerCall deadlineAtMs request proxy) := by
  apply finds_skip; intro _
  apply finds_skip; intro _
  apply finds_after sees_ask
  intro answer answered
  apply finds_skip; intro _
  apply sees_mapErr
  rintro value rfl
  exact answered

theorem sees_targetCall {request : TargetCall} {proxy : TargetM Unit} :
    Sees seen (CallSeen seen request) (targetCall deadlineAtMs request proxy) := by
  apply finds_skip; intro _
  apply finds_skip; intro _
  apply finds_after sees_askTarget
  intro answer answered
  apply finds_skip; intro _
  apply sees_atspi
  apply sees_mapErr
  rintro value rfl
  exact answered

/-! ### Objects -/

theorem sees_processId {object : StoredObject} :
    SeesBus seen (fun pid : UInt32 => ProviderSeen seen (.unixProcessId object.busName) pid)
      (processId deadlineAtMs bus object) := by
  apply finds_skip; intro _
  apply finds_skip; intro _
  apply finds_skip; intro _
  exact @sees_providerCall _ _ (.unixProcessId object.busName) _

theorem sees_validateObjectOwner {object : StoredObject} {owner : Owner} :
    SeesBus seen (fun _ => OwnerSeen seen owner object)
      (validateObjectOwner deadlineAtMs bus object owner) := by
  apply finds_skip; intro _
  apply finds_after sees_processId
  intro processId process
  apply finds_after sees_ask
  intro answer answered
  have generated : SeesBus seen (GenerationSeen seen processId) (ofExcept answer) := by
    apply sees_ofExcept
    rintro generation rfl
    exact answered
  apply finds_after generated
  intro generation known
  apply finds_ite
  · rintro ⟨busName, rfl, rfl⟩
    exact finds_mono (finds_trivial _) (fun _ _ => ⟨busName, process, known⟩) fun _ => id
  · exact fun _ => finds_throw trivial

/-- The induction is on the steps that are left. -/
theorem sees_climb {root : StoredObject} {owner : Owner} {fuel : Nat} {object : StoredObject}
    {ids : List String} :
    SeesBus seen (fun _ => Ascends bus seen root owner object)
      (climb deadlineAtMs bus root owner fuel object ids) := by
  induction fuel generalizing object ids with
  | zero => exact finds_throw trivial
  | succ fuel ih =>
    apply finds_after sees_validateObjectOwner
    intro _ owned
    apply finds_skip; intro id
    apply finds_ite
    · exact fun _ => finds_throw trivial
    intro _
    apply finds_ite
    · rintro rfl
      exact finds_pure (.here owned)
    intro _
    apply finds_after sees_providerCall
    intro reference told
    cases reference.isNull with
    | true => exact finds_throw trivial
    | false =>
      apply finds_after (P := fun parent => StoredObject.fromRef bus reference = .ok parent)
      · exact sees_ofExcept fun _ same => same
      intro parent same
      exact finds_mono ih (fun _ rest => .up owned told same rest) fun _ known => known

theorem sees_validateLiveDescendant {object root : StoredObject} {processId : UInt32}
    {processGeneration : String} :
    SeesBus seen (fun _ => Ascends bus seen root ⟨root.busName, processId, processGeneration⟩ object)
      (validateLiveDescendant deadlineAtMs bus object root processId processGeneration) :=
  sees_climb

/-! ### Texts and bounds -/

theorem boundedText_same {value text : String} (bounded : boundedText value = .ok text) :
    text = value := by
  unfold boundedText at bounded
  split at bounded
  · cases bounded
  · exact (Except.ok.inj bounded).symm

theorem boundedOptionalText_same {value : String} {text : Option String}
    (bounded : boundedOptionalText value = .ok text) : text = nonempty value := by
  unfold boundedOptionalText at bounded
  unfold nonempty
  by_cases empty : value = ""
  · rw [if_pos empty] at bounded ⊢
    exact (Except.ok.inj bounded).symm
  · rw [if_neg empty] at bounded ⊢
    cases known : boundedText value with
    | error e =>
      rw [known] at bounded
      cases bounded
    | ok text' =>
      rw [known] at bounded
      rw [← Except.ok.inj bounded, boundedText_same known]

theorem boundedActionName_same {value name : String} (bounded : boundedActionName value = .ok name) :
    name = value := by
  unfold boundedActionName at bounded
  split at bounded
  · cases bounded
  · exact (Except.ok.inj bounded).symm

theorem sees_actionNames {object : StoredObject} :
    Sees seen (ActionsSeen seen object) (actionNames deadlineAtMs object) := by
  apply finds_skip; intro _
  apply finds_after sees_targetCall
  intro count told
  apply finds_ite
  · exact fun _ => finds_throw trivial
  intro within
  obtain ⟨positive, below⟩ := not_or.mp within
  apply finds_mono _ _ fun _ => id
  · exact List.Forall₂ (fun index name => CallSeen seen (.getName object (.ofNat index)) name)
      (List.range count.toInt.toNat)
  · apply finds_mapM
    intro index _
    apply finds_skip; intro _
    apply finds_after sees_targetCall
    intro value told
    apply sees_known
    intro name bounded
    rwa [boundedActionName_same bounded]
  · exact fun names each => ⟨count, told, Int.not_lt.mp positive, Nat.not_lt.mp below, each⟩

/-! ### Samples -/

theorem sees_map {f : α → β} {P : β → Prop} {x : TargetM α} (sees : Sees seen (fun a => P (f a)) x) :
    Sees seen P (f <$> x) := by
  rw [← bind_pure_comp]
  exact finds_after sees fun _ holds => finds_pure holds

theorem sees_extents {object : StoredObject} {interfaces : InterfaceSet} {proxy : TargetM Unit}
    (listed : .component ∈ interfaces.interfaces) :
    Sees seen (BoundsSeen seen object interfaces)
      (extentsBounds <$> targetCall deadlineAtMs (.getExtents object) proxy) := by
  apply sees_map
  refine finds_mono (@sees_targetCall _ _ (.getExtents object) _) ?_ fun _ => id
  intro extents told
  rw [BoundsSeen, if_pos listed]
  exact ⟨extents, told, rfl⟩

theorem sees_sample {object : StoredObject} {includeValue : Bool} :
    Sees seen (SampleSeen bit bus seen object)
      (sample bit deadlineAtMs bus build object includeValue) := by
  unfold sample
  apply finds_skip; intro _
  apply finds_after sees_targetCall
  intro role role_told
  apply finds_after (sees_known fun _ => id)
  intro role' bounded
  apply finds_after sees_targetCall
  intro name name_told
  apply finds_after (sees_known fun _ => id)
  intro name' bounded'
  apply finds_after sees_targetCall
  intro states states_told
  apply finds_after sees_targetCall
  intro interfaces interfaces_told
  extract_lets visible enabled editable withBounds
  have fit : ∀ bounds, BoundsSeen seen object interfaces bounds →
      Sees seen (SampleSeen bit bus seen object) (withBounds bounds) := by
    intro bounds bounds_told
    unfold withBounds
    extract_lets withActions
    have named : ∀ actions, (if .action ∈ interfaces.interfaces then ActionsSeen seen object actions
        else actions = []) → Sees seen (SampleSeen bit bus seen object) (withActions actions) := by
      intro actions actions_told
      unfold withActions
      extract_lets invokeAction withValue
      have whole : ∀ hash, Sees seen (SampleSeen bit bus seen object) (withValue hash) := by
        intro hash
        apply finds_after (sees_known fun _ => id)
        intro backendId named
        apply finds_pure
        refine ⟨states, interfaces, ⟨named, ?_, ⟨name, name_told, boundedOptionalText_same bounded'⟩,
          ⟨states_told, rfl⟩, ⟨interfaces_told, rfl⟩, bounds_told, actions_told⟩, ?_⟩
        · rw [boundedText_same bounded]
          exact role_told
        · constructor <;> simp [visible, enabled, editable, invokeAction]
      apply finds_ite
      · exact fun _ => finds_skip whole
      · exact fun _ => whole none
    apply finds_ite
    · intro listed
      apply finds_skip; intro _
      apply finds_after sees_actionNames
      intro actions told
      apply named
      rwa [if_pos listed]
    · intro unlisted
      apply named
      rw [if_neg unlisted]
  apply finds_ite
  · intro listed
    apply finds_skip; intro _
    exact finds_after (sees_extents listed) fit
  · intro unlisted
    exact fit none (by simp only [BoundsSeen, if_neg unlisted])

/-! ### The window -/

theorem sees_states {object : StoredObject} :
    Sees seen (fun states : StateSet => CallSeen seen (.getState object) states)
      (states deadlineAtMs bus object) := by
  apply finds_skip; intro _
  exact @sees_targetCall _ _ (.getState object) _

theorem sees_surfaceIdentity {window : StoredObject} {states : StateSet}
    (told : CallSeen seen (.getState window) states) :
    Sees seen (fun identity => SurfaceSeen bit bus seen window identity states)
      (surfaceIdentity bit deadlineAtMs bus window states) := by
  unfold surfaceIdentity
  apply finds_skip; intro _
  apply finds_after sees_targetCall
  intro roleCode code_told
  apply finds_after sees_targetCall
  intro role role_told
  apply finds_after (sees_known fun _ => id)
  intro role' bounded
  apply finds_after sees_targetCall
  intro name name_told
  apply finds_after (sees_known fun _ => id)
  intro name' bounded'
  apply finds_after sees_targetCall
  intro interfaces interfaces_told
  extract_lets withBounds
  have fit : ∀ bounds, BoundsSeen seen window interfaces bounds → Sees seen
      (fun identity => SurfaceSeen bit bus seen window identity states) (withBounds bounds) := by
    intro bounds bounds_told
    apply finds_after (sees_known fun _ => id)
    intro backendId named
    rw [← boundedText_same bounded] at role_told
    apply finds_pure
    exact {
      backendId := named
      roleCode := code_told
      role := role_told
      name := ⟨name, name_told, boundedOptionalText_same bounded'⟩
      inStates := ⟨told, rfl⟩
      bounds := ⟨interfaces, interfaces_told, bounds_told⟩ }
  apply finds_ite
  · exact fun listed => finds_after (sees_extents listed) fit
  · intro unlisted
    exact fit none (by simp only [BoundsSeen, if_neg unlisted])

theorem sees_validateProcessAndWindow {stored : StoredSnapshot} :
    Sees seen (fun _ => (ProviderSeen seen (.unixProcessId stored.window.busName) stored.processId ∧
        GenerationSeen seen stored.processId stored.processGeneration) ∧
        WindowSeen bit bus build seen stored.window stored.windowFingerprintHash)
      (validateProcessAndWindow bit deadlineAtMs bus build stored) := by
  unfold validateProcessAndWindow
  apply finds_skip; intro _
  apply finds_after (sees_atspi sees_processId)
  intro processId process
  apply finds_ite
  · exact fun _ => finds_throw trivial
  intro same
  obtain rfl := not_not.mp same
  have generated : SeesBus seen (GenerationSeen seen stored.processId)
      (do ofExcept (← ask (.processGeneration stored.processId))) := by
    apply finds_after sees_ask
    intro answer answered
    apply sees_ofExcept
    rintro generation rfl
    exact answered
  apply finds_after (sees_atspi generated)
  intro generation known
  apply finds_ite
  · exact fun _ => finds_throw trivial
  intro same
  obtain rfl := not_not.mp same
  apply finds_after sees_states
  intro states states_told
  apply finds_ite
  · exact fun _ => finds_throw trivial
  intro shown
  apply finds_after (sees_surfaceIdentity states_told)
  intro identity told
  apply finds_ite
  · exact fun _ => finds_throw trivial
  intro same
  apply finds_pure
  simp only [not_or, not_not] at shown
  obtain ⟨visible, showing, defunct, iconified⟩ := shown
  exact ⟨⟨process, known⟩, identity, states, told, ⟨visible, showing, defunct, iconified⟩,
    not_not.mp same⟩

/-! ### The target -/

theorem sees_storedOf {target : SemanticTargetRef} :
    Sees seen (fun stored => seen ⟨.latest, .ok (some stored)⟩ ∨
      seen ⟨.loadPrivateObservation target.observationId, .ok stored⟩) (storedOf target) := by
  have loaded : Sees seen (fun stored => seen ⟨.latest, .ok (some stored)⟩ ∨
      seen ⟨.loadPrivateObservation target.observationId, .ok stored⟩)
      (loadPrivateObservation target.observationId) := by
    apply finds_after sees_askTarget
    intro answer answered
    apply sees_known
    rintro stored rfl
    exact .inr answered
  have latest : Sees seen (fun found => seen ⟨.latest, .ok found⟩) latestSnapshot := by
    apply finds_after sees_askTarget
    intro answer answered
    apply sees_known
    rintro found rfl
    exact answered
  apply finds_after latest
  intro found answered
  cases found with
  | none => exact loaded
  | some stored =>
    apply finds_ite
    · exact fun _ => finds_pure (.inl answered)
    · exact fun _ => loaded

theorem sees_checkDisplayGeometry {hash : String} :
    SeesBus seen (fun _ => seen ⟨.bus .displayGeometryHash, .ok hash⟩) (checkDisplayGeometry hash) := by
  apply finds_after sees_ask
  intro answer answered
  apply finds_after (sees_ofExcept fun _ => id)
  rintro hash' rfl
  apply finds_ite
  · rintro rfl
    exact finds_pure answered
  · exact fun _ => finds_throw trivial

/-- All of a resolution that succeeds is by answers that were seen. -/
theorem sees_resolveLive {target : SemanticTargetRef} {includeValue : Bool} :
    Sees seen (fun found => Resolved bit bus build seen target found.1 found.2.1 found.2.2)
      (resolveLive bit deadlineAtMs bus build target includeValue) := by
  unfold resolveLive
  apply finds_skip; intro _
  apply finds_after sees_storedOf
  intro stored origin
  apply finds_skip; intro _
  apply finds_after (sees_atspi sees_checkDisplayGeometry)
  intro _ geometry
  have validated : SeesBus seen (fun _ => ∃ nowMs : Int64, seen ⟨.bus .nowMs, nowMs⟩ ∧
      stored.validate bus build nowMs = .ok ())
      (do ofExcept (stored.validate bus build (← ask .nowMs))) := by
    apply finds_after sees_ask
    intro nowMs answered
    apply sees_ofExcept
    intro _ valid
    exact ⟨nowMs, answered, valid⟩
  apply finds_after (sees_atspi validated)
  intro _ valid
  apply finds_ite
  · exact fun _ => finds_throw trivial
  intro _
  have found : SeesBus seen (fun element : SemanticElement => ∃ nowMs : Int64,
      seen ⟨.bus .nowMs, nowMs⟩ ∧ stored.observation.resolve build target nowMs = .ok element)
      (do mapErr semanticError (stored.observation.resolve build target (← ask .nowMs))) := by
    apply finds_after sees_ask
    intro nowMs answered
    apply sees_mapErr
    intro element resolved
    exact ⟨nowMs, answered, resolved⟩
  apply finds_after (sees_atspi found)
  rintro expected ⟨nowMs, answered, resolved⟩
  have recorded : expected.fingerprintHash = target.fingerprintHash :=
    (resolve_ok.mp resolved).2.2.2.2.2.2.2
  apply finds_after (sees_known fun _ => id)
  intro found listed
  apply finds_skip; intro _
  apply finds_after sees_validateProcessAndWindow
  rintro _ ⟨process, window⟩
  apply finds_after (sees_atspi sees_validateLiveDescendant)
  intro _ ascends
  apply finds_skip; intro first
  apply finds_skip; intro _
  apply finds_after sees_sample
  rintro second ⟨states, interfaces, identity, fit⟩
  apply finds_ite
  · exact fun _ => finds_throw trivial
  intro accepted
  simp only [Bool.or_eq_true, Bool.not_eq_true', decide_eq_true_eq, not_or, not_not] at accepted
  obtain ⟨⟨stable, same⟩, action⟩ := accepted
  apply finds_pure
  constructor
  case snapshot => exact ⟨origin, geometry, valid, nowMs, expected, answered, resolved⟩
  case listed =>
    rw [listed]
    exact congrArg Except.ok (congrArg (StoredTarget.mk found.object) action.symm)
  case process => exact process
  case window => exact window
  case ascends => exact ascends
  case sampled => exact ⟨states, interfaces, identity, fit.1, fit.2, fit.3, fit.4, fit.5⟩
  case same => exact same.trans recorded
  case stable => simpa using stable

end

end Praefectus.Atspi
