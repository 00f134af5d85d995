import Praefectus.Json.Size
import Praefectus.Observe.LinuxWalk
import Praefectus.Program.Answered
import Praefectus.Text.Sha256

/-!
# What a snapshot on Linux has found

A snapshot that succeeds lists the objects that its walk visited, each of which is still
found below the window as long as nothing changes.
-/

namespace Praefectus.Atspi

open Prog

/-! ### Objects that are still there -/

section Live

variable {tree : LiveTree} {bus : Bus} {window : SurfaceWindow} {deadlineAtMs : Int64}

/-- The run succeeds as long as nothing fails. -/
abbrev Works (tree : LiveTree) (deadlineAtMs : Int64) {α : Type} (P : α → Prop) (x : AtspiM α) :
    Prop :=
  Finds (tree.servesAll deadlineAtMs) P (fun _ => False) x

theorem works_checkObservationBoundary :
    Works tree deadlineAtMs (fun _ => True) (checkObservationBoundary deadlineAtMs) := by
  refine finds_after (P := (· = false)) (finds_perform fun _ => id) ?_
  rintro _ rfl
  refine finds_after (P := (· < deadlineAtMs)) (finds_perform fun _ => id) ?_
  intro now early
  apply finds_ite
  · intro late
    exact absurd early (Int64.not_lt.mpr late)
  · intro _
    exact finds_pure trivial

theorem works_ofExcept {α : Type} {value : α} {result : Except ProtocolError α}
    (found : result = .ok value) : Works tree deadlineAtMs (· = value) (ofExcept result) := by
  rw [found]
  exact finds_pure rfl

theorem works_openProxy {object : StoredObject} :
    Works tree deadlineAtMs (· = .ok ()) (ask (.openProxy object)) :=
  finds_perform fun _ => id

theorem works_accessible {object : StoredObject} (valid : object.validate bus = .ok ()) :
    Works tree deadlineAtMs (fun _ => True) (accessible bus object) := by
  apply finds_after (works_ofExcept valid)
  intro _ _
  apply finds_after works_openProxy
  rintro _ rfl
  exact finds_pure trivial

theorem works_providerCall {request : ProviderCall} {proxy : AtspiM Unit} {value : request.Result}
    (answers : ∀ ans, tree.servesAll deadlineAtMs ⟨.provider request, ans⟩ → ans = .ok value)
    (ready : Works tree deadlineAtMs (fun _ => True) proxy) :
    Works tree deadlineAtMs (· = value) (providerCall deadlineAtMs request proxy) := by
  apply finds_after works_checkObservationBoundary
  intro _ _
  apply finds_after ready
  intro _ _
  refine finds_after (P := (· = .ok value)) (finds_perform answers) ?_
  rintro _ rfl
  apply finds_after works_checkObservationBoundary
  intro _ _
  exact finds_pure rfl

theorem works_validateObjectOwner {object : StoredObject} {owner : Owner}
    (valid : object.validate bus = .ok ()) (owned : tree.Owned owner object) :
    Works tree deadlineAtMs (fun _ => True)
      (validateObjectOwner deadlineAtMs bus object owner) := by
  obtain ⟨busName, pid, generation⟩ := owned
  have process : Works tree deadlineAtMs (· = owner.processId)
      (processId deadlineAtMs bus object) := by
    apply finds_after (works_ofExcept valid)
    intro _ _
    apply finds_after works_openProxy
    rintro _ rfl
    apply finds_after (finds_pure trivial : Works tree deadlineAtMs (fun _ => True) (pure ()))
    intro _ _
    rw [← pid]
    exact @works_providerCall _ _ (.unixProcessId object.busName) _ (tree.processId object.busName)
      (fun _ answered => answered) (finds_pure trivial)
  apply finds_after works_checkObservationBoundary
  intro _ _
  apply finds_after process
  rintro _ rfl
  refine finds_after (P := (· = .ok owner.processGeneration)) (finds_perform ?_) ?_
  · rintro _ served
    rw [← generation]
    exact served
  · rintro _ rfl
    apply finds_after (works_ofExcept rfl)
    rintro _ rfl
    apply finds_ite
    · intro _
      exact works_checkObservationBoundary
    · intro differs
      exact absurd ⟨busName, rfl, rfl⟩ differs

theorem works_getParent {object : StoredObject} (valid : object.validate bus = .ok ()) :
    Works tree deadlineAtMs (fun parent : ObjectRef => parent = tree.parent object)
      (providerCall deadlineAtMs (.getParent object) (accessible bus object)) :=
  @works_providerCall _ _ (.getParent object) _ (tree.parent object) (fun _ answered => answered)
    (works_accessible valid)

/-- The steps up from an object lead to the window, where no identifier comes up twice. -/
theorem works_climb {object : StoredObject} {path : List StoredObject} {fuel : Nat}
    {seen : List String} (climbs : Climb tree bus window object path)
    (enough : path.length ≤ fuel) (named : ∀ step ∈ path, ∃ id, step.id bus = .ok id)
    (distinct : (path.map (·.id bus)).Nodup)
    (unseen : ∀ step ∈ path, ∀ id ∈ seen, step.id bus ≠ .ok id) :
    Works tree deadlineAtMs (fun _ => True)
      (climb deadlineAtMs bus window.object window.owner fuel object seen) := by
  induction climbs generalizing fuel seen with
  | window valid owned =>
    cases fuel with
    | zero => contradiction
    | succ fuel =>
      obtain ⟨name, same⟩ := named window.object List.mem_cons_self
      apply finds_after (works_validateObjectOwner valid owned)
      intro _ _
      apply finds_after (works_ofExcept same)
      rintro _ rfl
      apply finds_ite
      · intro again
        exact absurd same (unseen window.object List.mem_cons_self _ again)
      intro _
      apply finds_ite
      · intro _
        exact finds_pure trivial
      · intro differs
        exact absurd rfl differs
  | @step object parent path other bound climbs ih =>
    cases fuel with
    | zero => contradiction
    | succ fuel =>
      obtain ⟨name, same⟩ := named object List.mem_cons_self
      apply finds_after (works_validateObjectOwner bound.valid bound.owned)
      intro _ _
      apply finds_after (works_ofExcept same)
      rintro _ rfl
      apply finds_ite
      · intro again
        exact absurd same (unseen object List.mem_cons_self _ again)
      intro _
      apply finds_ite
      · intro window
        exact absurd window other
      intro _
      apply finds_after (works_getParent bound.valid)
      rintro _ rfl
      apply finds_ite
      · intro null
        rw [bound.upward] at null
        contradiction
      intro _
      apply finds_after (works_ofExcept bound.same)
      rintro _ rfl
      rw [List.map_cons, List.nodup_cons] at distinct
      apply ih
      · simpa using enough
      · intro step member
        exact named step (List.mem_cons_of_mem _ member)
      · exact distinct.2
      · intro step member seenId listed
        rcases List.mem_cons.mp listed with rfl | listed
        · intro again
          apply distinct.1
          rw [same, ← again]
          exact List.mem_map_of_mem member
        · exact unseen step (List.mem_cons_of_mem _ member) seenId listed

end Live

/-! ### Snapshots -/

section Snapshots

variable {tree : LiveTree} {bus : Bus} {build : Build} {window : SurfaceWindow}
  {deadlineAtMs : Int64} {observationId : String}

/-- The elements of a snapshot are those of the objects, the window first. -/
structure Snapshot (tree : LiveTree) (bus : Bus) (build : Build) (window : SurfaceWindow)
    (observation : SemanticObservation) (objects : List StoredObject) : Prop where
  described : List.Forall₂ (fun object (element : SemanticElement) => ∃ id,
    object.id bus = .ok id ∧
      opaqueElementId build observation.observationId id = .ok element.elementId)
    objects observation.elements
  few : observation.elements.length ≤ maxElements
  distinct : (observation.elements.map (·.elementId)).Nodup
  parentsFirst : ParentsFirst observation.elements
  accepted : buildMapping observation.elements = .ok observation.elements
  untruncated : observation.truncated = false ↔
    objects.map some = some window.object :: objects.flatMap (tree.kids bus)
  complete : observation.truncated = false →
    ∀ object, tree.Reachable bus window.object object → object ∈ objects
  simple : (∀ object, tree.Reachable bus window.object object → object ∈ objects) →
    (objects.flatMap (tree.kids bus)).Nodup →
    (∀ kid ∈ objects.flatMap (tree.kids bus), kid ≠ none ∧ kid ≠ some window.object) →
    observation.truncated = false
  live : ∀ object ∈ objects, ∀ deadlineAtMs trace result,
    (∀ e ∈ trace, tree.servesAll deadlineAtMs e) →
    Steps (validateLiveDescendant deadlineAtMs bus object window.object window.processId
      window.processGeneration).run trace (.ret result) → result = .ok ()

/-- Whatever refers to an object of a list that is closed under references is in it. -/
theorem reachable_mem {objects : List StoredObject}
    (closed : objects.map some = some window.object :: objects.flatMap (tree.kids bus))
    {object : StoredObject} (reachable : tree.Reachable bus window.object object) :
    object ∈ objects := by
  have member (object : StoredObject) (listed : some object ∈ objects.map some) :
      object ∈ objects := by
    simpa using listed
  induction reachable with
  | refl =>
    apply member
    rw [closed]
    exact List.mem_cons_self
  | tail _ child ih =>
    apply member
    rw [closed]
    exact List.mem_cons_of_mem _ (List.mem_flatMap.mpr ⟨_, ih, child⟩)

theorem snapshot_of_explored {visited : List Pending} {walk : Walk}
    {observation : SemanticObservation}
    (explored : Explored tree bus build window observation.observationId visited walk)
    (emptied : walk.queue = []) (elements : observation.elements = walk.elements)
    (truncated : observation.truncated = walk.truncated)
    (accepted : buildMapping observation.elements = .ok observation.elements) :
    Snapshot tree bus build window observation (visited.map (·.object)) := by
  have wellFormed := (buildMapping_ok.mp accepted).2
  have refs : references tree bus visited =
      (visited.map (·.object)).flatMap (tree.kids bus) := by
    simp [references, List.flatMap_map]
  have ids : (visited.map (·.object)).map (·.id bus) = walk.seen.reverse.map .ok := by
    rw [← explored.ids, List.map_map]
    rfl
  have names : ((visited.map (·.object)).map (·.id bus)).Nodup := by
    rw [ids]
    exact (List.nodup_reverse.mpr explored.distinct).map fun _ _ => Except.ok.inj
  have few : observation.elements.length ≤ maxElements := by
    have fits := explored.fits
    rw [emptied] at fits
    simpa [elements] using fits
  have untruncated : observation.truncated = false ↔
      (visited.map (·.object)).map some =
        some window.object :: (visited.map (·.object)).flatMap (tree.kids bus) := by
    rw [truncated, ← refs]
    constructor
    · intro whole
      have covers := explored.covers whole
      rw [emptied, List.append_nil] at covers
      rwa [List.map_map]
    · intro covers
      cases cut : walk.truncated with
      | false => rfl
      | true =>
        have short := explored.short cut
        have lengths := congrArg List.length covers
        simp [emptied] at short lengths
        omega
  refine ⟨?_, few, wellFormed.ids, ?_, accepted, untruncated, ?_, ?_, ?_⟩
  · rw [elements, List.forall₂_map_left_iff]
    refine explored.described.imp ?_
    rintro _ _ ⟨id, named, opaqueId, _⟩
    exact ⟨id, named, opaqueId⟩
  · rw [elements]
    exact explored.parents
  · intro whole object reachable
    exact reachable_mem (untruncated.mp whole) reachable
  · intro all distinct proper
    cases cut : walk.truncated with
    | false => exact truncated.trans cut
    | true =>
      have short := explored.short cut
      let others := (visited.map (·.object)).filter (· ≠ window.object)
      have fewer : others.length < (visited.map (·.object)).length := by
        refine List.length_filter_lt_length_iff_exists.mpr ⟨window.object, all _ .refl, by simp⟩
      have inside : (visited.map (·.object)).flatMap (tree.kids bus) ⊆ others.map some := by
        intro kid member
        obtain ⟨present, apart⟩ := proper kid member
        obtain ⟨object, rfl⟩ := Option.ne_none_iff_exists'.mp present
        obtain ⟨parent, listed, child⟩ := List.mem_flatMap.mp member
        obtain ⟨next, visits, rfl⟩ := List.mem_map.mp listed
        have found := all object ((explored.placed next visits).reachable.tail child)
        exact List.mem_map_of_mem (List.mem_filter.mpr ⟨found, by simpa using apart⟩)
      have bounded := (distinct.subperm inside).length_le
      rw [refs, emptied] at short
      simp at bounded fewer short
      omega
  · intro object member deadline trace result served run
    obtain ⟨next, listed, rfl⟩ := List.mem_map.mp member
    obtain ⟨shallow, _, path, climb, length, nodup, inside⟩ := explored.placed next listed
    have works : Works tree deadline (fun _ => True) (validateLiveDescendant deadline bus next.object
        window.object window.processId window.processGeneration) := by
      refine works_climb climb (by omega) ?_ ?_ fun _ _ _ none => absurd none List.not_mem_nil
      · intro step found
        have named : step.id bus ∈ (visited.map (·.object)).map (·.id bus) :=
          List.mem_map_of_mem (inside found)
        rw [ids] at named
        obtain ⟨id, _, same⟩ := List.mem_map.mp named
        exact ⟨id, same.symm⟩
      · exact nodup.map_on fun first member second member' =>
          List.inj_on_of_nodup_map names (inside member) (inside member')
    have outcome := finds_run works served run
    cases result with
    | ok => rfl
    | error => exact absurd outcome id

theorem gives_snapshotWindow {fuel : Nat} {displayGeometryHash : String}
    (enough : maxElements < fuel) :
    Gives tree (fun found => ∃ observation objects, found = some observation ∧
        Snapshot tree bus build window observation objects)
      (snapshotWindow deadlineAtMs bus build window fuel displayGeometryHash) := by
  iterate 10
    apply finds_skip
    intro _
  refine finds_after (gives_walkFrom explored_start (by simpa [startWalk] using enough)) ?_
  rintro _ ⟨visited, walk, rfl, emptied, explored⟩
  iterate 4
    apply finds_skip
    intro _
  refine finds_after (gives_mapErr fun _ => id) ?_
  intro _ valid
  have accepted := buildMapping_ok.mpr ⟨rfl, (validate_ok valid).2.2⟩
  iterate 6
    apply finds_skip
    intro _
  exact finds_pure ⟨_, _, rfl, snapshot_of_explored explored emptied rfl rfl accepted⟩

/-- Where the tree stays as it is, a walk comes to an end, and a snapshot that succeeds lists
the objects it visited. -/
theorem snapshot_explores (tree : LiveTree) (bus : Bus) (build : Build) (window : SurfaceWindow)
    (deadlineAtMs : Int64) (fuel : Nat) (displayGeometryHash : String)
    (enough : maxElements < fuel) (trace : List (Event AtspiBus))
    (result : Except ProtocolError (Option SemanticObservation))
    (served : ∀ e ∈ trace, tree.serves e)
    (run : Steps (snapshotWindow deadlineAtMs bus build window fuel displayGeometryHash).run trace
      (.ret result)) :
    result ≠ .ok none ∧ ∀ observation, result = .ok (some observation) →
      ∃ objects, Snapshot tree bus build window observation objects := by
  have outcome := finds_run (gives_snapshotWindow enough) served run
  cases result with
  | error e => exact ⟨nofun, nofun⟩
  | ok found =>
    obtain ⟨observation, objects, rfl, snapshot⟩ := outcome
    refine ⟨nofun, fun other same => ?_⟩
    obtain rfl := Option.some.inj (Except.ok.inj same)
    exact ⟨objects, snapshot⟩

end Snapshots

/-! ### A deep tree -/

/-- The objects of a chain. -/
def chainObject (n : Nat) : StoredObject :=
  ⟨":1.1", String.ofList ['/', Nat.digitChar (n / 10), Nat.digitChar (n % 10)]⟩

def chainIndex (object : StoredObject) : Nat :=
  match object.path.toList with
  | [_, tens, ones] => (tens.toNat - 48) * 10 + (ones.toNat - 48)
  | _ => 0

def ObjectRef.of (object : StoredObject) : ObjectRef := ⟨object.busName, object.path⟩

/-- A chain as long as a walk goes, whose last object refers back to the window. -/
def chainTree : LiveTree where
  children object :=
    if chainIndex object < maxDepth then [.of (chainObject (chainIndex object + 1))]
    else [.of (chainObject 0)]
  parent object := .of (chainObject (chainIndex object - 1))
  processId _ := 4242
  generation _ := "generation"

def chainBus : Bus := ⟨fun name => name = ":1.1", fun path => path.toList.head? = some '/'⟩

def chainBuild : Build := ⟨false, Sha256.sha256⟩

def chainId (n : Nat) : String := ":1.1" ++ ":" ++ (chainObject n).path

def chainSample (object : StoredObject) : NodeSample where
  identity := ⟨":1.1" ++ ":" ++ object.path, "panel", none, none, 0, 0, []⟩
  actionability := ⟨true, true, true, false, false, false, false⟩
  invokeAction := none
  valueHash := none

def chainGeometry : String := hashSerializable chainBuild (.str "geometry")

def chainWindow : SurfaceWindow where
  object := chainObject 0
  processId := 4242
  processGeneration := "generation"
  windowId := hashSerializable chainBuild (.str (chainId 0))
  fingerprintHash := hashSerializable chainBuild (.str "window")
  bounds := none

/-- Nothing fails, and the clock stands still. -/
def chainAnswer : (op : AtspiOp) → AtspiBus.Ans op
  | .isCancelled => false
  | .nowMs => (1000 : Int64)
  | .openProxy _ => Except.ok ()
  | .provider (.unixProcessId busName) => Except.ok (chainTree.processId busName)
  | .provider (.getChildren object) => Except.ok (chainTree.children object)
  | .provider (.getParent object) => Except.ok (chainTree.parent object)
  | .processGeneration processId => Except.ok (chainTree.generation processId)
  | .sample object => Except.ok (chainSample object)
  | .validateSurfaceWindow _ => Except.ok ()
  | .displayGeometryHash => Except.ok chainGeometry
  | .nextGeneration => (1 : UInt64)
  | .observerProcessId => (9 : UInt32)
  | .persist .. => Except.ok ()
  | .setLatest _ => Except.ok ()

theorem chainAnswer_serves (op : AtspiOp) : chainTree.serves ⟨op, chainAnswer op⟩ := by
  rcases op with _ | _ | _ | request | _ | _ | _ | _ | _ | _ | _ | _
  case provider => cases request <;> exact rfl
  all_goals first | exact trivial | exact rfl

def chainObservationId : String :=
  hashSerializable chainBuild
    (observationSeed chainWindow 1 1000 9 "generation" (chainId 0) chainGeometry)

theorem chainBuild_hash (bytes : List UInt8) : semanticHash (hashBytes chainBuild bytes) = true := by
  apply semanticHash_hexEncode
  exact Sha256.sha256_length bytes

def chainElementId (n : Nat) : String :=
  hashBytes chainBuild (chainObservationId.asBytes ++ [0] ++ (chainId n).asBytes)

def chainParent : Nat → Option String
  | 0 => none
  | n + 1 => some (chainElementId n)

def chainElement (n : Nat) : SemanticElement where
  tag := "e" ++ toString n
  elementId := chainElementId n
  parentId := chainParent n
  fingerprintHash := hashSerializable chainBuild (chainSample (chainObject n)).identity.toJson
  role := "panel"
  name := none
  bounds := none
  actionability := ⟨true, true, true, true, false, false, false⟩

/-- The walk before the object of the index. -/
def chainWalk (n : Nat) : Walk where
  queue := if n ≤ 64 then [⟨chainObject n, chainParent n, n⟩] else []
  seen := ((List.range n).map chainId).reverse
  elements := (List.range n).map chainElement
  targets := (List.range n).map fun k => (chainElementId k, ⟨chainObject k, none⟩)
  truncated := n = 65

/-! #### Its objects -/

theorem chain_path (n : Nat) :
    (chainObject n).path.toList = ['/', Nat.digitChar (n / 10), Nat.digitChar (n % 10)] :=
  String.toList_ofList

theorem chain_text (n : Nat) : (chainId n).toList =
    [':', '1', '.', '1', ':', '/', Nat.digitChar (n / 10), Nat.digitChar (n % 10)] := by
  rw [chainId, String.toList_append, chain_path]
  rfl

theorem chain_digit : ∀ d : Fin 10, isControl (Nat.digitChar d) = false ∧
    (Nat.digitChar d).toNat = 48 + d ∧
    String.utf8EncodeChar (Nat.digitChar d) = [UInt8.ofNat (48 + d)] := by
  decide

theorem chain_tens {n : Nat} (small : n < 65) : isControl (Nat.digitChar (n / 10)) = false ∧
    (Nat.digitChar (n / 10)).toNat = 48 + n / 10 ∧
    String.utf8EncodeChar (Nat.digitChar (n / 10)) = [UInt8.ofNat (48 + n / 10)] :=
  chain_digit ⟨n / 10, by omega⟩

theorem chain_ones (n : Nat) : isControl (Nat.digitChar (n % 10)) = false ∧
    (Nat.digitChar (n % 10)).toNat = 48 + n % 10 ∧
    String.utf8EncodeChar (Nat.digitChar (n % 10)) = [UInt8.ofNat (48 + n % 10)] :=
  chain_digit ⟨n % 10, by omega⟩

theorem chain_asBytes {n : Nat} (small : n < 65) : (chainId n).asBytes =
    [58, 49, 46, 49, 58, 47, UInt8.ofNat (48 + n / 10), UInt8.ofNat (48 + n % 10)] := by
  have prefixed : utf8 [':', '1', '.', '1', ':', '/'] = [58, 49, 46, 49, 58, 47] := by decide
  rw [String.asBytes_eq, chain_text]
  change utf8 ([':', '1', '.', '1', ':', '/'] ++
    [Nat.digitChar (n / 10), Nat.digitChar (n % 10)]) = _
  rw [utf8_append, prefixed]
  simp [(chain_tens small).2.2, (chain_ones n).2.2]

theorem chain_valid {n : Nat} (small : n < 65) : (chainObject n).validate chainBus = .ok () := by
  have size : (chainObject n).path.utf8ByteSize = 3 := by
    have slash : String.utf8EncodeChar '/' = [47] := by decide
    rw [String.utf8ByteSize_eq, chain_path]
    simp only [utf8_cons, utf8_nil, slash, (chain_tens small).2.2, (chain_ones n).2.2]
    rfl
  have plain : (":1.1".toList ++ (chainObject n).path.toList).any isControl = false := by
    have name : (":1.1".toList ++ ['/']).any isControl = false := by decide
    rw [chain_path]
    change ((":1.1".toList ++ ['/']) ++ [Nat.digitChar (n / 10), Nat.digitChar (n % 10)]).any
      isControl = false
    rw [List.any_append, name]
    simp [(chain_tens small).1, (chain_ones n).1]
  have name : (chainObject n).busName = ":1.1" := rfl
  have path : chainBus.isObjectPath (chainObject n).path = true := by
    simp [chainBus, chain_path]
  rw [StoredObject.validate, size, name, plain, path]
  decide

theorem chain_id {n : Nat} (small : n < 65) : (chainObject n).id chainBus = .ok (chainId n) := by
  have size : (chainId n).utf8ByteSize = 8 := by
    have bytes := congrArg List.length (chain_asBytes small)
    rwa [String.asBytes_eq, ← String.utf8ByteSize_eq] at bytes
  have joined : (chainObject n).busName ++ ":" ++ (chainObject n).path = chainId n := rfl
  simp only [StoredObject.id, chain_valid small, joined, size]
  rfl

theorem chain_index {n : Nat} (small : n < 65) : chainIndex (chainObject n) = n := by
  have tens := (chain_tens small).2.1
  have ones := (chain_ones n).2.1
  simp only [chainIndex, chain_path, tens, ones]
  omega

theorem chain_present (n : Nat) : (ObjectRef.of (chainObject n)).isNull = false := by
  have other : (chainObject n).path ≠ nullPath := by
    intro null
    have lengths := congrArg (fun path => path.toList.length) null
    simp [chain_path, nullPath] at lengths
  simp only [ObjectRef.isNull, ObjectRef.of, other, decide_false]

theorem chain_fromRef {n : Nat} (small : n < 65) :
    StoredObject.fromRef chainBus (.of (chainObject n)) = .ok (chainObject n) := by
  have valid := chain_valid small
  rw [StoredObject.fromRef, chain_present n]
  change (do StoredObject.validate chainBus (chainObject n); pure (chainObject n)) = _
  rw [valid]
  rfl

theorem chain_elementId {n : Nat} (small : n < 65) :
    opaqueElementId chainBuild chainObservationId (chainId n) = .ok (chainElementId n) := by
  have valid : validText (chainId n) 1 2048 = true := by
    have size : (chainId n).utf8ByteSize = 8 := by
      have bytes := congrArg List.length (chain_asBytes small)
      rwa [String.asBytes_eq, ← String.utf8ByteSize_eq] at bytes
    have colon : isControl ':' = false ∧ isControl '1' = false ∧ isControl '.' = false ∧
        isControl '/' = false ∧ isWhitespace ':' = false := by decide
    rw [validText, String.characters_eq, size, chain_text]
    simp [colon, (chain_tens small).1, (chain_ones n).1]
  rw [opaqueElementId, valid, chainObservationId, hashSerializable, chainBuild_hash]
  rfl

theorem chain_digests : ((List.range 65).map fun n =>
    chainBuild.sha256 (chainObservationId.asBytes ++ [0] ++ (chainId n).asBytes)).Nodup := by
  decide +kernel

theorem chainElementId_injective {m n : Nat} (small : m < 65) (small' : n < 65)
    (same : chainElementId m = chainElementId n) : m = n := by
  have digests := hexEncode_injective same
  exact List.inj_on_of_nodup_map chain_digests (List.mem_range.mpr small)
    (List.mem_range.mpr small') digests

/-! #### Its walk -/

theorem chain_ask (op : AtspiOp) : attempt chainAnswer (ask op) = .ok (chainAnswer op) := rfl

theorem chain_boundary : attempt chainAnswer (checkObservationBoundary 2000) = .ok () := by
  decide +kernel

theorem chain_proxy {n : Nat} (small : n < 65) :
    attempt chainAnswer (accessible chainBus (chainObject n)) = .ok () := by
  rw [accessible, chain_valid small]
  rfl

theorem chain_call {request : ProviderCall} {proxy : AtspiM Unit} {value : request.Result}
    (ready : attempt chainAnswer proxy = .ok ())
    (answers : chainAnswer (.provider request) = Except.ok value) :
    attempt chainAnswer (providerCall 2000 request proxy) = .ok value := by
  rw [providerCall, attempt_then _ chain_boundary, attempt_then _ ready, ask,
    attempt_then _ (attempt_perform ..), attempt_then _ chain_boundary, answers]
  rfl

theorem chain_owner {n : Nat} (small : n < 65) :
    attempt chainAnswer (validateObjectOwner 2000 chainBus (chainObject n) chainWindow.owner) =
      .ok () := by
  have process : attempt chainAnswer (processId 2000 chainBus (chainObject n)) = .ok 4242 := by
    rw [processId, chain_valid small]
    exact @chain_call (.unixProcessId _) (pure ()) (4242 : UInt32) rfl rfl
  rw [validateObjectOwner, attempt_then _ chain_boundary, attempt_then _ process]
  exact chain_boundary

theorem chain_bind {n : Nat} (small : n + 1 < 65) :
    attempt chainAnswer (bindChild 2000 chainBus chainWindow (chainObject n)
      (.of (chainObject (n + 1)))) = .ok (chainObject (n + 1)) := by
  have apart : chainObject (n + 1) ≠ chainObject n := by
    intro same
    have index := congrArg chainIndex same
    rw [chain_index small, chain_index (by omega)] at index
    omega
  have parent : attempt chainAnswer (providerCall 2000 (.getParent (chainObject (n + 1)))
      (accessible chainBus (chainObject (n + 1)))) = .ok (.of (chainObject n)) := by
    refine chain_call (chain_proxy small) ?_
    change Except.ok (ObjectRef.of (chainObject (chainIndex (chainObject (n + 1)) - 1))) = _
    rw [chain_index small]
    rfl
  have bound : attempt chainAnswer (validateChildBinding 2000 chainBus (chainObject (n + 1))
      (chainObject n) chainWindow.owner) = .ok () := by
    rw [validateChildBinding, if_neg apart, attempt_then _ (chain_owner small),
      attempt_then _ parent, chain_present n, chain_fromRef (by omega)]
    simp [ofExcept]
  rw [bindChild, attempt_then _ chain_boundary, chain_present (n + 1), chain_fromRef small]
  simp only [Bool.false_eq_true, if_false, ofExcept]
  rw [attempt_then _ (attempt_pure ..), attempt_then _ bound]
  rfl

theorem chain_describe {n : Nat} (small : n < 65) :
    attempt chainAnswer (describe 2000 chainBuild chainObservationId (chainObject n) (chainId n)
      (chainParent n) n) = .ok (chainElement n, ⟨chainObject n, none⟩) := by
  have tag : semanticTag n = .ok ("e" ++ toString n) := by
    rw [semanticTag, if_neg]
    · rfl
    · simp only [maxSemanticElements]
      omega
  have sampled : attempt chainAnswer (ofExcept (chainAnswer (.sample (chainObject n)))) =
      .ok (chainSample (chainObject n)) := rfl
  rw [describe, chain_elementId small, tag, attempt_then _ (chain_ask _), attempt_then _ sampled,
    attempt_then _ chain_boundary, attempt_then _ (chain_ask _), attempt_then _ sampled]
  simp only [and_self, decide_true]
  rfl

theorem chain_fresh {n : Nat} (small : n < 65) : chainId n ∉ (chainWalk n).seen := by
  intro member
  obtain ⟨k, below, same⟩ := List.mem_map.mp (List.mem_reverse.mp member)
  have index : (chainObject k).path = (chainObject n).path := by
    simpa [chainId, String.append_assoc] using same
  have objects : chainObject k = chainObject n := by
    rw [chainObject, chainObject, StoredObject.mk.injEq]
    exact ⟨rfl, index⟩
  have indices := congrArg chainIndex objects
  have less := List.mem_range.mp below
  rw [chain_index (by omega), chain_index small] at indices
  omega

theorem chain_targets {n : Nat} (small : n < 65) :
    insertTarget (chainWalk n).targets (chainElementId n) ⟨chainObject n, none⟩ =
      (chainWalk (n + 1)).targets := by
  have kept : (chainWalk n).targets.filter (fun entry => entry.1 ≠ chainElementId n) =
      (chainWalk n).targets := by
    rw [List.filter_eq_self]
    intro entry member
    obtain ⟨k, below, rfl⟩ := List.mem_map.mp member
    have less := List.mem_range.mp below
    simp only [decide_eq_true_eq]
    intro same
    have indices := chainElementId_injective (by omega) small same
    omega
  rw [insertTarget, kept]
  simp [chainWalk, List.range_succ]

theorem chain_enqueue {n : Nat} (small : n < 65) (targets : List (String × StoredTarget)) :
    attempt chainAnswer (enqueueChildren 2000 chainBus chainWindow
      { queue := [], seen := (chainWalk (n + 1)).seen, elements := (chainWalk (n + 1)).elements,
        targets, truncated := false } (chainObject n) (chainElementId n) n) =
      .ok { chainWalk (n + 1) with targets } := by
  have call := @chain_call (.getChildren (chainObject n)) (pure ())
    (chainTree.children (chainObject n)) rfl rfl
  rw [enqueueChildren, attempt_then _ (chain_proxy small), attempt_then _ call]
  simp only [chainTree, chain_index small]
  by_cases last : n = maxDepth
  · subst last
    simp [chainWalk, maxDepth]
  · have deeper : n + 1 < 65 := by
      simp only [maxDepth] at last
      omega
    have child := chain_bind deeper
    have one : min 1 (maxElements - ((chainWalk (n + 1)).elements.length + 0)) = 1 := by
      simp [chainWalk, maxElements]
      omega
    have below : n < maxDepth := by
      simp only [maxDepth]
      omega
    simp only [last, below, if_true, if_false, List.length_singleton, List.length_nil, one,
      List.take_succ_cons, List.take_zero, attempt_bind, List.mapM_cons, List.mapM_nil, child,
      attempt_pure]
    have within : n + 1 ≤ 64 := by omega
    have more : n ≠ 64 := by omega
    simp [chainWalk, chainParent, within, more]

theorem chain_visit {n : Nat} (small : n < 65) :
    attempt chainAnswer (visit 2000 chainBus chainBuild chainWindow chainObservationId
      { chainWalk n with queue := [] } ⟨chainObject n, chainParent n, n⟩) =
      .ok (chainWalk (n + 1)) := by
  have length : (chainWalk n).elements.length = n := by simp [chainWalk]
  rw [visit, chain_id small]
  simp only [ofExcept, length]
  rw [attempt_then _ (attempt_pure ..), if_neg (chain_fresh small),
    attempt_then _ (chain_owner small), attempt_then _ (chain_describe small)]
  have enqueue := chain_enqueue small (chainWalk (n + 1)).targets
  have seen : (chainWalk (n + 1)).seen = chainId n :: (chainWalk n).seen := by
    simp [chainWalk, List.range_succ]
  have elements : (chainWalk (n + 1)).elements = (chainWalk n).elements ++ [chainElement n] := by
    simp [chainWalk, List.range_succ]
  have more : (chainWalk n).truncated = false := by
    simp only [chainWalk, decide_eq_false_iff_not]
    omega
  have targets : insertTarget (chainWalk n).targets (chainElement n).elementId
      ⟨chainObject n, none⟩ = (chainWalk (n + 1)).targets := chain_targets small
  rw [seen, elements] at enqueue
  simp only [more, targets]
  exact enqueue

theorem chain_walk {n fuel : Nat} (small : n < 66) (enough : 65 < n + fuel) :
    attempt chainAnswer (walkFrom 2000 chainBus chainBuild chainWindow chainObservationId fuel
      (chainWalk n)) = .ok (some (chainWalk 65)) := by
  induction fuel generalizing n with
  | zero => omega
  | succ fuel ih =>
    by_cases last : n = 65
    · subst last
      rfl
    · have more : n < 65 := by omega
      have queue : (chainWalk n).queue = [⟨chainObject n, chainParent n, n⟩] := by
        rw [chainWalk, if_pos (by omega)]
      have room : (chainWalk n).elements.length ≠ maxElements := by
        simp only [chainWalk, List.length_map, List.length_range, maxElements]
        omega
      rw [walkFrom, queue]
      simp only
      rw [attempt_then _ chain_boundary, if_neg room, attempt_then _ (chain_visit more)]
      exact ih (by omega) (by omega)

/-! #### Its observation -/

def chainObservation : SemanticObservation where
  protocolVersion := Praefectus.protocolVersion
  observationId := chainObservationId
  generation := 1
  provenance := {
    backend := .accessibility
    backendName := backend
    processId := 4242
    processGeneration := "generation"
    windowId := chainWindow.windowId
    documentId := none
    displayGeometryHash := chainGeometry
    hostOptIns := [] }
  observedAtMs := 1000
  expiresAtMs := 31000
  truncated := true
  elements := (chainWalk 65).elements

theorem chain_hash_length (bytes : List UInt8) : (hashBytes chainBuild bytes).length ≤ 64 :=
  semanticHash_length (chainBuild_hash bytes)

theorem chain_span {n : Nat} (small : n < 65) : (chainElement n).toJson.span ≤ 3000 := by
  have parent : (Json.ofOption Json.str (chainParent n)).span ≤ 6 * 64 + 2 := by
    cases n with
    | zero => decide
    | succ n =>
      have hash : (chainElementId n).length ≤ 64 := chain_hash_length _
      simp only [chainParent, Json.ofOption, Json.span]
      omega
  have tag : (chainElement n).tag.length ≤ 3 := by
    have digits : (Nat.toDigits 10 n).length ≤ 2 :=
      (Nat.length_toDigits_le_iff (by omega) (by omega)).mpr (by omega)
    have text : (chainElement n).tag.toList = 'e' :: Nat.toDigits 10 n := tag_text n
    rw [← String.length_toList, text, List.length_cons]
    omega
  have elementId : (chainElement n).elementId.length ≤ 64 := chain_hash_length _
  have fingerprint : (chainElement n).fingerprintHash.length ≤ 64 := chain_hash_length _
  change (Json.obj [("tag", .str (chainElement n).tag), ("element_id", .str (chainElement n).elementId),
    ("parent_id", Json.ofOption .str (chainParent n)), ("fingerprint_hash", .str (chainElement n).fingerprintHash),
    ("role", .str "panel"), ("name", .null), ("bounds", .null),
    ("actionability", (chainElement 0).actionability.toJson)]).span ≤ 3000
  have rest : (chainElement 0).actionability.toJson.span ≤ 1000 := by decide +kernel
  simp only [Json.span, Json.spanMembers, ← String.length_toList] at tag elementId fingerprint ⊢
  simp
  omega

theorem provenance_span (provenance : SemanticProvenance) :
    provenance.toJson.span ≤ 1000 + 6 * (provenance.backendName.length +
        provenance.processGeneration.length + provenance.windowId.length +
        provenance.displayGeometryHash.length) + (Json.ofUInt32 provenance.processId).span +
      (Json.ofOption .str provenance.documentId).span +
      (Json.ofStrings provenance.hostOptIns).span := by
  have name : provenance.backend.text.length ≤ 13 := by
    cases provenance.backend <;> decide
  simp only [SemanticProvenance.toJson, Json.span, Json.spanMembers]
  simp only [← String.length_toList] at name ⊢
  simp
  omega

theorem observation_span (observation : SemanticObservation) :
    observation.toJson.span ≤ 1000 + (Json.ofUInt16 observation.protocolVersion).span +
      6 * observation.observationId.length + (Json.ofUInt64 observation.generation).span +
      observation.provenance.toJson.span + (Json.ofInt64 observation.observedAtMs).span +
      (Json.ofInt64 observation.expiresAtMs).span +
      Json.spanItems (observation.elements.map SemanticElement.toJson) := by
  simp only [SemanticObservation.toJson, Json.span, Json.spanMembers, ← String.length_toList]
  simp
  omega

theorem chain_bytes : (utf8 chainObservation.toJson.print).length ≤ maxSemanticSnapshotBytes := by
  have elements : Json.spanItems (chainObservation.elements.map SemanticElement.toJson) ≤
      65 * 3001 := by
    have bound := @Json.spanItems_le (chainObservation.elements.map SemanticElement.toJson) 3000 ?_
    · simpa [chainObservation, chainWalk] using bound
    · intro item member
      simp only [chainObservation, chainWalk, List.map_map, List.mem_map, List.mem_range] at member
      obtain ⟨n, small, rfl⟩ := member
      exact chain_span small
  have observationId : chainObservation.observationId.length ≤ 64 := chain_hash_length _
  have windowId : chainObservation.provenance.windowId.length ≤ 64 := chain_hash_length _
  have geometry : chainObservation.provenance.displayGeometryHash.length ≤ 64 := chain_hash_length _
  have provenance := provenance_span chainObservation.provenance
  have name : chainObservation.provenance.backendName.length ≤ 20 := by decide +kernel
  have generated : chainObservation.provenance.processGeneration.length ≤ 20 := by decide +kernel
  have process : (Json.ofUInt32 chainObservation.provenance.processId).span ≤ 10 := by decide +kernel
  have document : (Json.ofOption .str chainObservation.provenance.documentId).span ≤ 10 := by
    decide +kernel
  have optIns : (Json.ofStrings chainObservation.provenance.hostOptIns).span ≤ 10 := by
    decide +kernel
  have whole := observation_span chainObservation
  have version : (Json.ofUInt16 chainObservation.protocolVersion).span ≤ 10 := by decide +kernel
  have generation : (Json.ofUInt64 chainObservation.generation).span ≤ 10 := by decide +kernel
  have observed : (Json.ofInt64 chainObservation.observedAtMs).span ≤ 10 := by decide +kernel
  have expires : (Json.ofInt64 chainObservation.expiresAtMs).span ≤ 10 := by decide +kernel
  have bytes := Json.print_bytes chainObservation.toJson
  simp only [maxSemanticSnapshotBytes]
  omega

theorem chain_parentsFirst (n : Nat) : ParentsFirst (chainWalk n).elements := by
  induction n with
  | zero =>
    intro before element after whole
    simp [chainWalk] at whole
  | succ n ih =>
    have elements : (chainWalk (n + 1)).elements = (chainWalk n).elements ++ [chainElement n] := by
      simp [chainWalk, List.range_succ]
    rw [elements]
    apply parentsFirst_concat ih
    intro id parentId
    cases n with
    | zero => cases parentId
    | succ n =>
      simp only [chainElement, chainParent, Option.some.injEq] at parentId
      subst parentId
      exact List.mem_map.mpr ⟨chainElement n,
        List.mem_map.mpr ⟨n, List.mem_range.mpr (Nat.lt_succ_self n), rfl⟩, rfl⟩

theorem chain_parent (n : Nat) : (chainParent n).all semanticHash = true := by
  cases n with
  | zero => rfl
  | succ n =>
    rw [chainParent, Option.all_some]
    exact chainBuild_hash _

theorem chain_wellFormed : WellFormed chainObservation.elements := by
  have ids : (chainObservation.elements.map (·.elementId)).Nodup := by
    simp only [chainObservation, chainWalk, List.map_map]
    refine List.nodup_range.map_on fun m less n less' same => ?_
    exact chainElementId_injective (List.mem_range.mp less) (List.mem_range.mp less') same
  have tags : (chainObservation.elements.map (·.tag)).Nodup := by
    simp only [chainObservation, chainWalk, List.map_map]
    exact List.nodup_range.map_on fun m _ n _ same => tag_injective same
  refine wellFormed_of_parentsFirst ?_ tags ids (chain_parentsFirst 65)
  intro element member
  simp only [chainObservation, chainWalk, List.mem_map, List.mem_range] at member
  obtain ⟨n, small, rfl⟩ := member
  have tag : validTag (chainElement n).tag = true := validTag_index (by omega)
  have elementId : semanticHash (chainElement n).elementId = true := chainBuild_hash _
  have fingerprint : semanticHash (chainElement n).fingerprintHash = true := chainBuild_hash _
  have parentId : (chainElement n).parentId.all semanticHash = true := chain_parent n
  have role : validText (chainElement n).role 1 128 = true := by
    change validText "panel" 1 128 = true
    decide +kernel
  rw [validElement, tag, elementId, fingerprint, parentId, role]
  rfl

theorem chain_observation_valid : chainObservation.validate 1000 = .ok () := by
  have fits : ¬ (utf8 chainObservation.toJson.print).length > maxSemanticSnapshotBytes :=
    Nat.not_lt.mpr chain_bytes
  have few : ¬ chainObservation.elements.length > maxSemanticElements := by
    simp [chainObservation, chainWalk, maxSemanticElements]
  have id : semanticHash chainObservation.observationId = true := chainBuild_hash _
  have provenance : validProvenance chainObservation.provenance = true := by
    have windowId := @validText_semanticHash chainObservation.provenance.windowId 512
      (chainBuild_hash _) (by omega)
    have geometry : semanticHash chainObservation.provenance.displayGeometryHash = true :=
      chainBuild_hash _
    have name : validText chainObservation.provenance.backendName 1 128 = true := by
      change validText "praefectus-atspi2" 1 128 = true
      decide +kernel
    have generation : validText chainObservation.provenance.processGeneration 1 256 = true := by
      change validText "generation" 1 256 = true
      decide +kernel
    rw [validProvenance, windowId, geometry, name, generation]
    rfl
  have mapped := buildMapping_ok.mpr ⟨rfl, chain_wellFormed⟩
  rw [SemanticObservation.validate, id, provenance, mapped]
  simp only [fits, few, decide_false, Bool.or_false, Bool.not_true]
  rfl

def chainStored : StoredSnapshot where
  protocolVersion := Praefectus.protocolVersion
  observation := chainObservation
  targets := (chainWalk 65).targets
  window := chainWindow.object
  windowFingerprintHash := chainWindow.fingerprintHash
  processId := chainWindow.processId
  processGeneration := chainWindow.processGeneration

theorem chain_lookup {n m : Nat} (small : n < m) (few : m ≤ 65) :
    ((List.range m).map fun k => (chainElementId k, (⟨chainObject k, none⟩ : StoredTarget))).lookup
      (chainElementId n) = some ⟨chainObject n, none⟩ := by
  induction m with
  | zero => contradiction
  | succ m ih =>
    rw [List.range_succ, List.map_append, List.lookup_append]
    by_cases last : n = m
    · subst last
      have fresh : ((List.range n).map fun k =>
          (chainElementId k, (⟨chainObject k, none⟩ : StoredTarget))).lookup (chainElementId n) =
            none := by
        rw [List.lookup_eq_none_iff]
        intro entry member
        obtain ⟨k, below, rfl⟩ := List.mem_map.mp member
        have less := List.mem_range.mp below
        rw [bne_iff_ne]
        intro same
        have index := chainElementId_injective (by omega) (by omega) same
        omega
      rw [fresh]
      simp
    · rw [ih (by omega) (by omega)]
      rfl

theorem validateElement_ok {bus : Bus} {build : Build} {stored : StoredSnapshot}
    {element : SemanticElement} {target : StoredTarget} {backendId : String}
    (found : stored.targets.lookup element.elementId = some target)
    (valid : target.validate bus = .ok ()) (id : target.object.id bus = .ok backendId)
    (same : opaqueElementId build stored.observation.observationId backendId =
      .ok element.elementId)
    (invokes : target.invokeAction.isSome = element.actionability.invokable) :
    stored.validateElement bus build element = .ok () := by
  simp [StoredSnapshot.validateElement, found, valid, id, same, orThrow, invokes, Bind.bind,
    Except.bind, pure, Except.pure]

/-- The snapshot, of a window with the fingerprint. -/
def chainStoredOf (fingerprintHash : String) : StoredSnapshot :=
  { chainStored with windowFingerprintHash := fingerprintHash }

theorem chain_stored_element {fingerprintHash : String} {n : Nat} (small : n < 65) :
    (chainStoredOf fingerprintHash).validateElement chainBus chainBuild (chainElement n) = .ok () := by
  have found : (chainStoredOf fingerprintHash).targets.lookup (chainElement n).elementId =
      some ⟨chainObject n, none⟩ := chain_lookup small (Nat.le_refl 65)
  have target : (⟨chainObject n, none⟩ : StoredTarget).validate chainBus = .ok () := by
    rw [StoredTarget.validate, chain_valid small]
    rfl
  exact validateElement_ok found target (chain_id small) (chain_elementId small) rfl

theorem validate_stored {bus : Bus} {build : Build} {stored : StoredSnapshot} {nowMs : Int64}
    {windowId : String} (observation : stored.observation.validate nowMs = .ok ())
    (version : stored.protocolVersion = Praefectus.protocolVersion)
    (accessibility : stored.observation.provenance.backend = .accessibility)
    (named : stored.observation.provenance.backendName = backend)
    (document : stored.observation.provenance.documentId = none)
    (process : stored.processId = stored.observation.provenance.processId)
    (generation : stored.processGeneration = stored.observation.provenance.processGeneration)
    (length : stored.targets.length = stored.observation.elements.length)
    (window : stored.window.validate bus = .ok ()) (id : stored.window.id bus = .ok windowId)
    (fingerprint : semanticHash stored.windowFingerprintHash = true)
    (same : hashSerializable build (.str windowId) = stored.observation.provenance.windowId)
    (elements : stored.observation.elements.forM (stored.validateElement bus build) = .ok ()) :
    stored.validate bus build nowMs = .ok () := by
  simp [StoredSnapshot.validate, observation, version, accessibility, named, document, process,
    generation, length, window, id, fingerprint, same, elements, orThrow, Bind.bind, Except.bind,
    pure, Except.pure]

theorem chain_stored_window {fingerprintHash : String} (hash : semanticHash fingerprintHash = true) :
    (chainStoredOf fingerprintHash).validate chainBus chainBuild 1000 = .ok () := by
  have window : chainWindow.object.validate chainBus = .ok () := chain_valid (by omega)
  have windowId : chainWindow.object.id chainBus = .ok (chainId 0) := chain_id (by omega)
  have length : (chainStoredOf fingerprintHash).targets.length =
      (chainStoredOf fingerprintHash).observation.elements.length := by
    simp only [chainStoredOf, chainStored, chainObservation, chainWalk, List.length_map]
  have elements : (chainStoredOf fingerprintHash).observation.elements.forM
      ((chainStoredOf fingerprintHash).validateElement chainBus chainBuild) = .ok () := by
    rw [forM_ok]
    intro element member
    obtain ⟨n, below, rfl⟩ := List.mem_map.mp member
    exact chain_stored_element (List.mem_range.mp below)
  exact validate_stored chain_observation_valid rfl rfl rfl rfl rfl rfl length window windowId hash
    rfl elements

theorem chain_stored_valid : chainStored.validate chainBus chainBuild 1000 = .ok () :=
  @chain_stored_window chainStored.windowFingerprintHash (chainBuild_hash _)

theorem chain_snapshot :
    attempt chainAnswer (snapshotWindow 2000 chainBus chainBuild chainWindow 513 chainGeometry) =
      .ok (some chainObservation) := by
  have geometry : attempt chainAnswer (checkDisplayGeometry chainGeometry) = .ok () := by
    rw [checkDisplayGeometry, attempt_then _ (chain_ask _)]
    simp [chainAnswer, ofExcept]
  have surface : attempt chainAnswer
      (ofExcept (chainAnswer (.validateSurfaceWindow chainWindow))) = .ok () := rfl
  have generation : attempt chainAnswer
      (ofExcept (chainAnswer (.processGeneration (chainAnswer .observerProcessId)))) =
        .ok "generation" := rfl
  have windowId : attempt chainAnswer (ofExcept (chainWindow.object.id chainBus)) =
      .ok (chainId 0) := by
    have id : chainWindow.object.id chainBus = .ok (chainId 0) := chain_id (by omega)
    rw [id]
    rfl
  have walk := @chain_walk 0 513 (by omega) (by omega)
  have start : chainWalk 0 = startWalk chainWindow := rfl
  rw [start] at walk
  have valid : attempt chainAnswer
      (mapErr semanticError (chainObservation.validate (chainAnswer .nowMs))) = .ok () := by
    have now : chainAnswer .nowMs = (1000 : Int64) := rfl
    rw [now, chain_observation_valid]
    rfl
  have stored : attempt chainAnswer
      (ofExcept (chainStored.validate chainBus chainBuild (chainAnswer .nowMs))) = .ok () := by
    have now : chainAnswer .nowMs = (1000 : Int64) := rfl
    rw [now, chain_stored_valid]
    rfl
  rw [snapshotWindow, attempt_then _ chain_boundary, attempt_then _ geometry,
    attempt_then _ (chain_ask _), attempt_then _ surface, attempt_then _ (chain_ask _),
    attempt_then _ (chain_ask _), attempt_then _ (chain_ask _), attempt_then _ (chain_ask _),
    attempt_then _ generation, attempt_then _ windowId]
  refine (attempt_then _ walk).trans ?_
  simp only
  rw [attempt_then _ geometry, attempt_then _ (chain_ask _), attempt_then _ surface,
    attempt_then _ (chain_ask _)]
  refine (attempt_then _ valid).trans ?_
  rw [attempt_then _ (chain_ask _)]
  refine (attempt_then _ stored).trans ?_
  rfl

theorem chain_reachable {object : StoredObject}
    (reachable : chainTree.Reachable chainBus chainWindow.object object) :
    ∃ n < 65, object = chainObject n := by
  induction reachable with
  | refl => exact ⟨0, by omega, rfl⟩
  | tail _ child ih =>
    obtain ⟨n, small, rfl⟩ := ih
    simp only [LiveTree.kids, chainTree, chain_index small] at child
    by_cases last : n < maxDepth
    · have deeper : n + 1 < 65 := by
        simp only [maxDepth] at last
        omega
      rw [if_pos last, List.map_singleton, chain_fromRef deeper] at child
      obtain rfl := Option.some.inj (List.mem_singleton.mp child)
      exact ⟨n + 1, deeper, rfl⟩
    · rw [if_neg last, List.map_singleton, chain_fromRef (by omega)] at child
      obtain rfl := Option.some.inj (List.mem_singleton.mp child)
      exact ⟨0, by omega, rfl⟩

theorem chain_succeeds : Succeeds chainTree.serves (· = some chainObservation)
    (snapshotWindow 2000 chainBus chainBuild chainWindow 513 chainGeometry) :=
  @succeeds_attempt AtspiBus _ _ chainAnswer chainTree.serves chainAnswer_serves
    (snapshotWindow 2000 chainBus chainBuild chainWindow 513 chainGeometry)
    (some chainObservation) chain_snapshot

theorem snapshot_explores_chain :
    ∃ objects, Snapshot chainTree chainBus chainBuild chainWindow chainObservation objects := by
  obtain ⟨trace, value, served, run, found⟩ := chain_succeeds
  rw [found] at run
  have explores := snapshot_explores chainTree chainBus chainBuild chainWindow 2000 513
    chainGeometry (by decide) trace (.ok (some chainObservation)) served run
  exact explores.2 chainObservation rfl

/-- A snapshot that has every object and says that it is cut short. -/
theorem complete_truncated : ¬ ∀ (tree : LiveTree) (bus : Bus) (build : Build)
    (window : SurfaceWindow) (deadlineAtMs : Int64) (fuel : Nat) (displayGeometryHash : String)
    (trace : List (Event AtspiBus)) (observation : SemanticObservation),
    (∀ e ∈ trace, tree.serves e) →
    Steps (snapshotWindow deadlineAtMs bus build window fuel displayGeometryHash).run trace
      (.ret (.ok (some observation))) →
    (observation.truncated = false ↔ ∀ object, tree.Reachable bus window.object object →
      ∃ id, object.id bus = .ok id ∧ ∃ element ∈ observation.elements,
        opaqueElementId build observation.observationId id = .ok element.elementId) := by
  intro claimed
  obtain ⟨trace, value, served, run, found⟩ := chain_succeeds
  rw [found] at run
  have cut : chainObservation.truncated ≠ false := fun same => Bool.noConfusion same
  apply cut
  rw [claimed chainTree chainBus chainBuild chainWindow 2000 513 chainGeometry trace
    chainObservation served run]
  intro object reachable
  obtain ⟨n, small, rfl⟩ := chain_reachable reachable
  refine ⟨chainId n, chain_id small, chainElement n, ?_, chain_elementId small⟩
  exact List.mem_map_of_mem (List.mem_range.mpr small)

end Praefectus.Atspi
