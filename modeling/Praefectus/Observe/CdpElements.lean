import Praefectus.Observe.CdpTree

/-!
# What the elements of a browser's tree are

Where the nodes are told apart and no node is above itself, a parse that succeeds yields one
element for each node of the document that has a role, in order, below the nearest ancestor
that is an element.
-/

namespace Praefectus.Cdp

open Relation

/-! ### Ancestors -/

/-- A node of the first identifier names the second one as its parent. -/
def HasParent (nodes : List Json) (id parent : String) : Prop :=
  ∃ raw ∈ nodes, nodeId raw = some id ∧ parentId raw = some parent

/-- The identifier is that of a node that becomes an element. -/
def IsElementId (roots : List UInt64) (nodes : List Json) (id : String) : Prop :=
  ∃ raw ∈ nodes, isElement roots raw = true ∧ nodeId raw = some id

/-- The first element on the way up, from the identifier itself on. -/
inductive FirstElement (roots : List UInt64) (nodes : List Json) : String → String → Prop where
  | here {id : String} : IsElementId roots nodes id → FirstElement roots nodes id id
  | above {id parent element : String} : ¬ IsElementId roots nodes id → HasParent nodes id parent →
      FirstElement roots nodes parent element → FirstElement roots nodes id element

/-- The nearest ancestor that is an element. -/
def NearestElement (roots : List UInt64) (nodes : List Json) (id element : String) : Prop :=
  ∃ parent, HasParent nodes id parent ∧ FirstElement roots nodes parent element

section

variable {roots : List UInt64} {nodes : List Json}

theorem firstElement_isElement {id element : String} (first : FirstElement roots nodes id element) :
    IsElementId roots nodes element ∧ ReflTransGen (HasParent nodes) id element := by
  induction first with
  | here element => exact ⟨element, .refl⟩
  | above _ parent _ ih => exact ⟨ih.1, .head parent ih.2⟩

/-- Below an element there is a first one. -/
theorem firstElement_exists {id element : String} (above : ReflTransGen (HasParent nodes) id element)
    (isElement : IsElementId roots nodes element) : ∃ first, FirstElement roots nodes id first := by
  induction above using ReflTransGen.head_induction_on with
  | refl => exact ⟨element, .here isElement⟩
  | @head id parent step _ ih =>
    by_cases here : IsElementId roots nodes id
    · exact ⟨id, .here here⟩
    · obtain ⟨first, found⟩ := ih
      exact ⟨first, .above here step found⟩

/-- There is a nearest ancestor that is an element exactly where there is any. -/
theorem nearestElement_exists {id : String} : (∃ element, NearestElement roots nodes id element) ↔
    ∃ element, TransGen (HasParent nodes) id element ∧ IsElementId roots nodes element := by
  constructor
  · rintro ⟨element, parent, step, first⟩
    obtain ⟨isElement, above⟩ := firstElement_isElement first
    exact ⟨element, .head' step above, isElement⟩
  · rintro ⟨element, above, isElement⟩
    obtain ⟨parent, step, above⟩ := TransGen.head'_iff.mp above
    obtain ⟨first, found⟩ := firstElement_exists above isElement
    exact ⟨first, parent, step, found⟩

theorem firstElement_here {id element : String} (here : IsElementId roots nodes id) :
    FirstElement roots nodes id element ↔ id = element := by
  constructor
  · intro first
    cases first with
    | here => rfl
    | above other => exact absurd here other
  · rintro rfl
    exact .here here

theorem firstElement_above {id element : String} (other : ¬ IsElementId roots nodes id) :
    FirstElement roots nodes id element ↔ NearestElement roots nodes id element := by
  constructor
  · intro first
    cases first with
    | here here => exact absurd here other
    | above _ step first => exact ⟨_, step, first⟩
  · rintro ⟨parent, step, first⟩
    exact .above other step first

theorem isElementId_iff (accepts : Accepts roots nodes) {id : String} :
    IsElementId roots nodes id ↔ id ∈ elementNodeIds roots nodes := by
  have same := @endless_node roots nodes accepts (· = id)
  rw [elementNodeIds, List.mem_map, ← same]
  constructor
  · rintro ⟨raw, member, element, named⟩
    exact ⟨raw, member, id, element, named, rfl⟩
  · rintro ⟨raw, member, _, element, named, rfl⟩
    exact ⟨raw, member, element, named⟩

/-! ### Nodes that are told apart -/

theorem parentEntry_keys (nodes : List Json) :
    ((nodes.filterMap parentEntry).map Prod.fst).Sublist (nodes.filterMap nodeId) := by
  induction nodes with
  | nil => exact .slnil
  | cons raw nodes ih =>
    cases named : nodeId raw with
    | none =>
      have entry : parentEntry raw = none := by simp [parentEntry, named]
      simpa [entry, named] using ih
    | some id =>
      cases above : parentId raw with
      | none =>
        have entry : parentEntry raw = none := by simp [parentEntry, named, above]
        simpa [entry, named] using ih.cons id
      | some parent =>
        have entry : parentEntry raw = some (id, parent) := by simp [parentEntry, named, above]
        simpa [entry, named] using ih.cons_cons id

theorem parentOf_iff (distinct : (nodes.filterMap nodeId).Nodup) {id parent : String} :
    parentOf nodes id = some parent ↔ HasParent nodes id parent := by
  have keys : ((nodes.filterMap parentEntry).reverse.map Prod.fst).Nodup := by
    rw [List.map_reverse, List.nodup_reverse]
    exact distinct.sublist (parentEntry_keys nodes)
  rw [parentOf, lookup_iff keys, List.mem_reverse, List.mem_filterMap]
  refine exists_congr fun raw => and_congr_right fun _ => ?_
  cases named : nodeId raw with
  | none => simp [parentEntry, named]
  | some id' => cases above : parentId raw <;> simp [parentEntry, named, above]

theorem hasParent_unique (distinct : (nodes.filterMap nodeId).Nodup) {id parent parent' : String}
    (first : HasParent nodes id parent) (second : HasParent nodes id parent') : parent = parent' := by
  rw [← parentOf_iff distinct] at first second
  exact Option.some.inj (first.symm.trans second)

/-- The loop finds the first element on the way up. -/
theorem skip_first (accepts : Accepts roots nodes) (distinct : (nodes.filterMap nodeId).Nodup)
    {fuel : Nat} {start : String} {found : Option String}
    (ended : skipUnselected (nodes.filterMap parentEntry).reverse (elementNodeIds roots nodes) fuel
      (some start) = some found) (element : String) :
    found = some element ↔ FirstElement roots nodes start element := by
  have selected {id : String} : (elementNodeIds roots nodes).contains id = true ↔
      IsElementId roots nodes id := by
    rw [isElementId_iff accepts, List.contains_iff_mem]
  induction fuel generalizing start with
  | zero =>
    rw [skipUnselected] at ended
    split at ended
    next here =>
      obtain rfl := Option.some.inj ended
      rw [firstElement_here (selected.mp here), Option.some.injEq]
    next => contradiction
  | succ fuel ih =>
    rw [skipUnselected] at ended
    split at ended
    next here =>
      obtain rfl := Option.some.inj ended
      rw [firstElement_here (selected.mp here), Option.some.injEq]
    next other =>
      rw [firstElement_above (other ∘ selected.mpr)]
      have above : (nodes.filterMap parentEntry).reverse.lookup start = parentOf nodes start := rfl
      rw [above] at ended
      cases next : parentOf nodes start with
      | none =>
        rw [next, skip_none] at ended
        obtain rfl := Option.some.inj ended
        constructor
        · intro same
          cases same
        · rintro ⟨parent, step, _⟩
          rw [← parentOf_iff distinct, next] at step
          cases step
      | some parent =>
        rw [next] at ended
        refine (ih ended).trans ?_
        constructor
        · exact fun first => ⟨parent, (parentOf_iff distinct).mp next, first⟩
        · rintro ⟨parent', step, first⟩
          rwa [hasParent_unique distinct ((parentOf_iff distinct).mp next) step]

theorem skip_nearest (accepts : Accepts roots nodes) (distinct : (nodes.filterMap nodeId).Nodup)
    {fuel : Nat} {id : String} {found : Option String}
    (ended : skipUnselected (nodes.filterMap parentEntry).reverse (elementNodeIds roots nodes) fuel
      (parentOf nodes id) = some found) (element : String) :
    found = some element ↔ NearestElement roots nodes id element := by
  cases next : parentOf nodes id with
  | none =>
    rw [next, skip_none] at ended
    obtain rfl := Option.some.inj ended
    refine ⟨nofun, ?_⟩
    rintro ⟨parent, step, _⟩
    rw [← parentOf_iff distinct, next] at step
    contradiction
  | some parent =>
    rw [next] at ended
    refine (skip_first accepts distinct ended element).trans ?_
    constructor
    · exact fun first => ⟨parent, (parentOf_iff distinct).mp next, first⟩
    · rintro ⟨parent', step, first⟩
      rwa [hasParent_unique distinct ((parentOf_iff distinct).mp next) step]

/-! ### The elements -/

/-- The element of a node, at its place in the list. -/
structure Describes (build : Build) (observationId documentId : String) (roots : List UInt64)
    (nodes : List Json) (index : Nat) (raw : Json) (node : CdpNode) : Prop where
  backend : backendId raw = some node.backendNodeId
  isProtected : node.isProtected = (axBoolProperty raw "protected").getD false
  tag : node.element.tag = "e" ++ toString index
  elementId : node.element.elementId = elementIdOf build observationId node.backendNodeId
  semantics : axRole raw = some node.element.role ∧
    node.element.name = (axSemanticsOf raw node.element.role).name ∧
    node.element.actionability = axActionability (axSemanticsOf raw node.element.role)
  fingerprint : node.element.fingerprintHash =
    axFingerprint build documentId node.backendNodeId (axSemanticsOf raw node.element.role)
  bounds : node.element.bounds = none
  parent : ∀ id parentId, nodeId raw = some id → (node.element.parentId = some parentId ↔
    ∃ ancestor ∈ nodes, ∃ ancestorId b, isElement roots ancestor = true ∧
      nodeId ancestor = some ancestorId ∧ backendId ancestor = some b ∧
      NearestElement roots nodes id ancestorId ∧ parentId = elementIdOf build observationId b)
  root : ∀ id, nodeId raw = some id → (node.element.parentId = none ↔
    ∀ ancestorId, TransGen (HasParent nodes) id ancestorId → ¬ IsElementId roots nodes ancestorId)

/-- The selected nodes are what the elements' nodes are read as. -/
theorem selected_filter {items : List Json}
    (read : ∀ raw ∈ items, (selectedOf roots raw).isSome = isElement roots raw) :
    (items.filter (isElement roots)).map (selectedOf roots) =
      (items.filterMap (selectedOf roots)).map some := by
  induction items with
  | nil => rfl
  | cons raw items ih =>
    have rest := ih fun other member => read other (List.mem_cons_of_mem _ member)
    have first := read raw List.mem_cons_self
    cases selected : selectedOf roots raw with
    | none =>
      rw [selected] at first
      rw [List.filter_cons, if_neg (by rw [← first]; simp), List.filterMap_cons, selected]
      exact rest
    | some node =>
      rw [selected] at first
      have element : isElement roots raw = true := first.symm
      rw [List.filter_cons, if_pos element, List.filterMap_cons, selected, List.map_cons, rest,
        selected]
      rfl

theorem selected_ids (nodes : List Json) :
    ((nodes.filterMap (selectedOf roots)).map (·.rawId)).Sublist (nodes.filterMap nodeId) := by
  induction nodes with
  | nil => exact .slnil
  | cons raw nodes ih =>
    cases selected : selectedOf roots raw with
    | none =>
      cases named : nodeId raw with
      | none => simpa [selected, named] using ih
      | some id => simpa [selected, named] using ih.cons id
    | some node =>
      obtain ⟨_, _, named, _⟩ := selectedOf_iff.mp selected
      simpa [selected, named] using ih.cons_cons node.rawId

theorem elementIds_lookup {build : Build} {observationId : String}
    (distinct : (nodes.filterMap nodeId).Nodup) {id elementId : String} :
    (elementIds build observationId roots nodes).lookup id = some elementId ↔
      ∃ raw ∈ nodes, ∃ b, isElement roots raw = true ∧ nodeId raw = some id ∧
        backendId raw = some b ∧ elementId = elementIdOf build observationId b := by
  have keys : ((elementIds build observationId roots nodes).map Prod.fst).Nodup := by
    rw [elementIds, List.map_reverse, List.nodup_reverse, List.map_map]
    exact distinct.sublist (selected_ids nodes)
  rw [lookup_iff keys, elementIds, List.mem_reverse, List.mem_map]
  constructor
  · rintro ⟨node, member, same⟩
    obtain ⟨raw, listed, selected⟩ := List.mem_filterMap.mp member
    obtain ⟨element, _, named, backend, _⟩ := selectedOf_iff.mp selected
    obtain ⟨rfl, rfl⟩ := Prod.mk.inj same
    exact ⟨raw, listed, _, element, named, backend, rfl⟩
  · rintro ⟨raw, listed, b, element, named, backend, rfl⟩
    obtain ⟨role, found⟩ : ∃ role, axRole raw = some role := by
      cases found : axRole raw with
      | none => simp [isElement, found] at element
      | some role => exact ⟨role, rfl⟩
    refine ⟨⟨id, b, axSemanticsOf raw role⟩, List.mem_filterMap.mpr ⟨raw, listed, ?_⟩, rfl⟩
    exact selectedOf_iff.mpr ⟨element, role, named, backend, found, rfl⟩

/-- What the loop finds for a node decides its parent. -/
theorem describes_nodeOf {build : Build} {observationId documentId : String}
    (accepts : Accepts roots nodes) (distinct : (nodes.filterMap nodeId).Nodup) {fuel index : Nat}
    {raw : Json} {node : AxSelected} {found : Option String} (listed : raw ∈ nodes)
    (selected : selectedOf roots raw = some node)
    (ended : skipUnselected (nodes.filterMap parentEntry).reverse (elementNodeIds roots nodes) fuel
      (parentOf nodes node.rawId) = some found) :
    Describes build observationId documentId roots nodes index raw
      (nodeOf build documentId (elementIds build observationId roots nodes) index node found) := by
  obtain ⟨rawId, b, semantics⟩ := node
  obtain ⟨element, role, named, backend, role', rfl⟩ := selectedOf_iff.mp selected
  dsimp only at named backend role' ended
  have nearest := skip_nearest accepts distinct ended
  have own : (elementIds build observationId roots nodes).lookup rawId =
      some (elementIdOf build observationId b) :=
    (elementIds_lookup distinct).mpr ⟨raw, listed, b, element, named, backend, rfl⟩
  have parent (parentId : String) :
      (found.bind fun id => (elementIds build observationId roots nodes).lookup id) = some parentId ↔
        ∃ ancestor ∈ nodes, ∃ ancestorId b, isElement roots ancestor = true ∧
          nodeId ancestor = some ancestorId ∧ backendId ancestor = some b ∧
          NearestElement roots nodes rawId ancestorId ∧
          parentId = elementIdOf build observationId b := by
    rw [Option.bind_eq_some_iff]
    constructor
    · rintro ⟨ancestorId, here, looked⟩
      obtain ⟨ancestor, member, b', element', named', backend', rfl⟩ :=
        (elementIds_lookup distinct).mp looked
      exact ⟨ancestor, member, ancestorId, b', element', named', backend', (nearest _).mp here, rfl⟩
    · rintro ⟨ancestor, member, ancestorId, b', element', named', backend', above, rfl⟩
      exact ⟨ancestorId, (nearest _).mpr above,
        (elementIds_lookup distinct).mpr ⟨ancestor, member, b', element', named', backend', rfl⟩⟩
  refine ⟨backend, rfl, rfl, ?_, ⟨role', rfl, rfl⟩, rfl, rfl, ?_, ?_⟩
  · exact congrArg (Option.getD · "") own
  · intro id parentId named'
    obtain rfl := Option.some.inj (named.symm.trans named')
    exact parent parentId
  · intro id named'
    obtain rfl := Option.some.inj (named.symm.trans named')
    have none_iff : (∀ ancestorId, TransGen (HasParent nodes) rawId ancestorId →
        ¬ IsElementId roots nodes ancestorId) ↔ found = none := by
      have some_iff := @nearestElement_exists roots nodes rawId
      simp only [← nearest] at some_iff
      rw [← Option.not_isSome_iff_eq_none, Option.isSome_iff_exists, some_iff]
      push Not
      rfl
    rw [none_iff]
    constructor
    · intro parentless
      cases found with
      | none => rfl
      | some ancestorId =>
        obtain ⟨_, _, above⟩ := (nearest ancestorId).mp rfl
        obtain ⟨⟨ancestor, member, element', named'⟩, _⟩ := firstElement_isElement above
        obtain ⟨b', backend'⟩ : ∃ b', backendId ancestor = some b' := by
          cases backend' : backendId ancestor with
          | none => simp [isElement, inRoot, backend'] at element'
          | some b' => exact ⟨b', rfl⟩
        have looked := (@elementIds_lookup roots nodes build observationId distinct ancestorId _).mpr
          ⟨ancestor, member, b', element', named', backend', rfl⟩
        have known : (some ancestorId).bind (fun id =>
            (elementIds build observationId roots nodes).lookup id) = none := parentless
        rw [Option.bind_some, looked] at known
        contradiction
    · rintro rfl
      rfl

/-- The nodes that a parse finds describe those of the elements, one for one. -/
theorem found_describes {build : Build} {observationId documentId : String}
    (accepts : Accepts roots nodes) (distinct : (nodes.filterMap nodeId).Nodup) {fuel : Nat}
    {found : List CdpNode}
    (ran : ((nodes.filterMap (selectedOf roots)).zipIdx.mapM fun p =>
      (skipUnselected (nodes.filterMap parentEntry).reverse (elementNodeIds roots nodes) fuel
        (parentOf nodes p.1.rawId)).map
        (nodeOf build documentId (elementIds build observationId roots nodes) p.2 p.1)) = some found) :
    (nodes.filter (isElement roots)).length = found.length ∧
      ∀ index raw, (nodes.filter (isElement roots))[index]? = some raw → ∃ node,
        found[index]? = some node ∧
        Describes build observationId documentId roots nodes index raw node := by
  have read := selected_filter fun raw member => selectedOf_isSome accepts member
  have lengths := congrArg List.length read
  rw [List.length_map, List.length_map] at lengths
  have each := mapM_some.mp ran
  have lengths' := each.length_eq
  rw [List.length_zipIdx] at lengths'
  refine ⟨lengths.trans lengths', fun index raw here => ?_⟩
  have listed := (List.mem_filter.mp (List.mem_of_getElem? here)).1
  obtain ⟨node, there, selected⟩ : ∃ node, (nodes.filterMap (selectedOf roots))[index]? = some node ∧
      selectedOf roots raw = some node := by
    have same := congrArg (·[index]?) read
    simp only [List.getElem?_map, here, Option.map_some] at same
    cases there : (nodes.filterMap (selectedOf roots))[index]? with
    | none => rw [there] at same; contradiction
    | some node =>
      rw [there] at same
      exact ⟨node, rfl, Option.some.inj same⟩
  have zipped : (nodes.filterMap (selectedOf roots)).zipIdx[index]? = some (node, index) := by
    rw [List.getElem?_zipIdx, there, Nat.zero_add]
    rfl
  obtain ⟨inside, at_index⟩ := List.getElem?_eq_some_iff.mp zipped
  have inside' : index < found.length := by rw [← each.length_eq]; exact inside
  have step := each.get inside inside'
  rw [List.get_eq_getElem, List.get_eq_getElem, at_index] at step
  obtain ⟨parent, ended, shape⟩ := Option.map_eq_some_iff.mp step
  refine ⟨found[index], List.getElem?_eq_getElem inside', ?_⟩
  rw [← shape]
  exact describes_nodeOf accepts distinct listed selected ended

/-! ### The map and the forest -/

/-- The hash does not mix up the identifiers of the document's nodes. -/
def HashesApart (build : Build) (observationId : String) (roots : List UInt64) (nodes : List Json) :
    Prop :=
  ∀ a ∈ documentIds roots nodes, ∀ b ∈ documentIds roots nodes,
    elementIdOf build observationId a = elementIdOf build observationId b → a = b

/-- What the found nodes have to do with those of the tree. -/
structure Found (build : Build) (observationId documentId : String) (roots : List UInt64)
    (nodes : List Json) (found : List CdpNode) : Prop where
  length : (nodes.filter (isElement roots)).length = found.length
  each : ∀ index raw, (nodes.filter (isElement roots))[index]? = some raw → ∃ node,
    found[index]? = some node ∧ Describes build observationId documentId roots nodes index raw node

namespace Found

variable {build : Build} {observationId documentId : String} {found : List CdpNode}

/-- The node that a found one describes. -/
theorem source (shape : Found build observationId documentId roots nodes found) {index : Nat}
    {node : CdpNode} (here : found[index]? = some node) :
    ∃ raw, (nodes.filter (isElement roots))[index]? = some raw ∧ raw ∈ nodes ∧
      isElement roots raw = true ∧
      Describes build observationId documentId roots nodes index raw node := by
  obtain ⟨inside, _⟩ := List.getElem?_eq_some_iff.mp here
  rw [← shape.length] at inside
  have there := List.getElem?_eq_getElem inside
  obtain ⟨node', here', describes⟩ := shape.each index _ there
  obtain rfl := Option.some.inj (here.symm.trans here')
  obtain ⟨member, element⟩ := List.mem_filter.mp (List.mem_of_getElem? there)
  exact ⟨_, there, member, element, describes⟩

/-- Every node of an element is described. -/
theorem described (shape : Found build observationId documentId roots nodes found) {raw : Json}
    (member : raw ∈ nodes) (element : isElement roots raw = true) : ∃ index node,
      (nodes.filter (isElement roots))[index]? = some raw ∧ found[index]? = some node ∧
      Describes build observationId documentId roots nodes index raw node := by
  obtain ⟨index, there⟩ := List.mem_iff_getElem?.mp (List.mem_filter.mpr ⟨member, element⟩)
  obtain ⟨node, here, describes⟩ := shape.each index raw there
  exact ⟨index, node, there, here, describes⟩

/-- The backend identifiers of the elements are among those of the document, in order. -/
theorem backends (shape : Found build observationId documentId roots nodes found) :
    (found.map (·.backendNodeId)).Sublist (documentIds roots nodes) := by
  have same : (nodes.filter (isElement roots)).map backendId =
      (found.map (·.backendNodeId)).map some := by
    refine List.ext_getElem? fun index => ?_
    simp only [List.getElem?_map]
    cases there : (nodes.filter (isElement roots))[index]? with
    | none =>
      have outside := List.getElem?_eq_none_iff.mp there
      rw [List.getElem?_eq_none (shape.length ▸ outside)]
      rfl
    | some raw =>
      obtain ⟨node, here, describes⟩ := shape.each index raw there
      rw [here]
      exact congrArg some describes.backend
  have read : (nodes.filter (isElement roots)).filterMap backendId = found.map (·.backendNodeId) := by
    have values := congrArg (List.filterMap id) same
    rw [List.filterMap_map, List.filterMap_map] at values
    exact values.trans List.filterMap_some
  have both : nodes.filter (isElement roots) =
      (nodes.filter (inRoot roots)).filter (isElement roots) := by
    rw [List.filter_filter]
    refine List.filter_congr fun raw _ => ?_
    cases inside : inRoot roots raw <;> simp [isElement, inside]
  rw [← read, both]
  exact List.Sublist.filterMap _ List.filter_sublist

theorem ids_apart (shape : Found build observationId documentId roots nodes found)
    (accepts : Accepts roots nodes) (apart : HashesApart build observationId roots nodes) :
    (found.map (·.element.elementId)).Nodup := by
  have ids : found.map (·.element.elementId) =
      (found.map (·.backendNodeId)).map (elementIdOf build observationId) := by
    rw [List.map_map]
    refine List.map_congr_left fun node member => ?_
    obtain ⟨index, inside, rfl⟩ := List.mem_iff_getElem.mp member
    obtain ⟨_, _, _, _, describes⟩ := shape.source (List.getElem?_eq_getElem inside)
    exact describes.elementId
  rw [ids]
  refine List.Nodup.map_on ?_ (accepts.distinct.sublist shape.backends)
  exact fun a first b second =>
    apart a (shape.backends.subset first) b (shape.backends.subset second)

theorem tags_apart (shape : Found build observationId documentId roots nodes found) :
    (found.map (·.element.tag)).Nodup := by
  have tags : found.map (·.element.tag) = (List.range found.length).map fun index =>
      "e" ++ toString index := by
    refine List.ext_getElem? fun index => ?_
    simp only [List.getElem?_map]
    cases here : found[index]? with
    | none =>
      rw [List.getElem?_eq_none (by simpa using List.getElem?_eq_none_iff.mp here)]
      rfl
    | some node =>
      obtain ⟨inside, _⟩ := List.getElem?_eq_some_iff.mp here
      obtain ⟨_, _, _, _, describes⟩ := shape.source here
      simp [inside, describes.tag]
  rw [tags]
  exact List.Nodup.map (fun _ _ same => tag_injective same) List.nodup_range

/-- The element of a node, and the identifier of the node. -/
def At (roots : List UInt64) (nodes : List Json) (found : List CdpNode) (element : SemanticElement)
    (id : String) : Prop :=
  ∃ (index : Nat) (raw : Json) (node : CdpNode),
    (nodes.filter (isElement roots))[index]? = some raw ∧ found[index]? = some node ∧
      node.element = element ∧ nodeId raw = some id

/-- A parent of an element is that of an ancestor of its node. -/
theorem parent_above (shape : Found build observationId documentId roots nodes found)
    (ids : (found.map (·.element.elementId)).Nodup) {child parent : SemanticElement} {id : String}
    (step : IsParent (found.map (·.element)) child parent) (here : At roots nodes found child id) :
    ∃ above, TransGen (HasParent nodes) id above ∧ At roots nodes found parent above := by
  obtain ⟨_, listed, parentId⟩ := step
  obtain ⟨index, raw, node, there, here, rfl, named⟩ := here
  obtain ⟨node', here', describes⟩ := shape.each index raw there
  obtain rfl := Option.some.inj (here.symm.trans here')
  obtain ⟨ancestor, member, above, b, element, named', backend, ⟨next, first, rest⟩, same⟩ :=
    (describes.parent id _ named).mp parentId
  obtain ⟨index', node', there', here', describes'⟩ := shape.described member element
  obtain rfl := Option.some.inj (backend.symm.trans describes'.backend)
  obtain ⟨other, inside, rfl⟩ := List.mem_map.mp listed
  rw [← describes'.elementId] at same
  obtain rfl := List.inj_on_of_nodup_map ids inside (List.mem_of_getElem? here') same
  exact ⟨above, .head' first (firstElement_isElement rest).2, index', ancestor, _, there', here', rfl,
    named'⟩

/-- An element is that of one node only. -/
theorem at_unique (shape : Found build observationId documentId roots nodes found)
    {element : SemanticElement} {id id' : String} (here : At roots nodes found element id)
    (here' : At roots nodes found element id') : id = id' := by
  obtain ⟨i, raw, node, there, at_i, rfl, named⟩ := here
  obtain ⟨j, raw', node', there', at_j, same, named'⟩ := here'
  obtain ⟨_, at_i', describes⟩ := shape.each i raw there
  obtain ⟨_, at_j', describes'⟩ := shape.each j raw' there'
  obtain rfl := Option.some.inj (at_i.symm.trans at_i')
  obtain rfl := Option.some.inj (at_j.symm.trans at_j')
  have tags := congrArg SemanticElement.tag same
  rw [describes.tag, describes'.tag] at tags
  obtain rfl := tag_injective tags
  obtain rfl := Option.some.inj (there.symm.trans there')
  exact Option.some.inj (named.symm.trans named')

/-- A way up through elements is one through nodes. -/
theorem transGen_above (shape : Found build observationId documentId roots nodes found)
    (ids : (found.map (·.element.elementId)).Nodup) {child ancestor : SemanticElement} {id : String}
    (path : TransGen (IsParent (found.map (·.element))) child ancestor)
    (here : At roots nodes found child id) :
    ∃ above, TransGen (HasParent nodes) id above ∧ At roots nodes found ancestor above := by
  induction path with
  | single step => exact shape.parent_above ids step here
  | tail _ step ih =>
    obtain ⟨middle, first, there⟩ := ih
    obtain ⟨above, rest, place⟩ := shape.parent_above ids step there
    exact ⟨above, first.trans rest, place⟩

/-- The elements are a forest, if their texts are valid. -/
theorem validForest (shape : Found build observationId documentId roots nodes found)
    (accepts : Accepts roots nodes) (few : nodes.length ≤ maxSemanticElements)
    (acyclic : ∀ id, ¬ TransGen (HasParent nodes) id id)
    (digest : ∀ bytes, (build.sha256 bytes).length = 32)
    (apart : HashesApart build observationId roots nodes)
    (texts : ∀ element ∈ found.map (·.element), validText element.role 1 128 = true ∧
      ∀ name ∈ element.name, validText name 0 1024 = true) :
    ValidForest (found.map (·.element)) := by
  have ids := shape.ids_apart accepts apart
  have hash (bytes : List UInt8) : semanticHash (hashBytes build bytes) = true :=
    semanticHash_hexEncode (digest bytes)
  have named (raw : Json) (member : raw ∈ nodes) : ∃ id, nodeId raw = some id :=
    Option.isSome_iff_exists.mp (accepts.named raw member)
  refine ⟨?_, ?_, ?_, ?_, ?_⟩
  · intro element member
    obtain ⟨role, name⟩ := texts element member
    obtain ⟨node, listed, rfl⟩ := List.mem_map.mp member
    obtain ⟨index, here⟩ := List.mem_iff_getElem?.mp listed
    obtain ⟨raw, _, inside, _, describes⟩ := shape.source here
    obtain ⟨id, idOf⟩ := named raw inside
    have small : index < 10000 := by
      obtain ⟨within, _⟩ := List.getElem?_eq_some_iff.mp here
      have shorter := List.length_filter_le (isElement roots) nodes
      have := shape.length
      rw [maxSemanticElements] at few
      omega
    have parent : node.element.parentId.all semanticHash = true := by
      cases above : node.element.parentId with
      | none => rfl
      | some parentId =>
        obtain ⟨_, _, _, b, _, _, _, _, rfl⟩ := (describes.parent id parentId idOf).mp above
        exact hash _
    have nameOk : (node.element.name.all fun value => validText value 0 1024) = true := by
      cases text : node.element.name with
      | none => rfl
      | some value => exact name value text
    simp only [validElement, describes.tag, validTag_index small, describes.elementId, elementIdOf,
      describes.fingerprint, axFingerprint, hashSerializable, hash, parent, role, nameOk,
      describes.bounds, Option.all_none, Bool.and_self]
  · rw [List.map_map]
    exact shape.tags_apart
  · rw [List.map_map]
    exact ids
  · intro element member parentId above
    obtain ⟨node, listed, rfl⟩ := List.mem_map.mp member
    obtain ⟨index, here⟩ := List.mem_iff_getElem?.mp listed
    obtain ⟨raw, _, inside, _, describes⟩ := shape.source here
    obtain ⟨id, idOf⟩ := named raw inside
    obtain ⟨ancestor, member', _, b, element', _, backend, _, rfl⟩ :=
      (describes.parent id parentId idOf).mp above
    obtain ⟨_, node', _, here', describes'⟩ := shape.described member' element'
    obtain rfl := Option.some.inj (backend.symm.trans describes'.backend)
    exact ⟨node'.element, List.mem_map_of_mem (List.mem_of_getElem? here'), describes'.elementId⟩
  · intro element circle
    obtain ⟨_, ⟨member, _, _⟩, _⟩ := TransGen.head'_iff.mp circle
    obtain ⟨node, listed, rfl⟩ := List.mem_map.mp member
    obtain ⟨index, here⟩ := List.mem_iff_getElem?.mp listed
    obtain ⟨raw, there, inside, _, _⟩ := shape.source here
    obtain ⟨id, idOf⟩ := named raw inside
    have start : At roots nodes found node.element id := ⟨index, raw, node, there, here, rfl, idOf⟩
    obtain ⟨above, path, place⟩ := shape.transGen_above ids circle start
    obtain rfl := shape.at_unique start place
    exact acyclic _ path

end Found

/-- Nodes of different identifiers are all kept. -/
theorem insert_all {found : List CdpNode} (distinct : (found.map (·.element.elementId)).Nodup) :
    found.foldl insertNode [] = (found.map fun node => (node.element.elementId, node)).reverse := by
  induction found using List.reverseRecOn with
  | nil => rfl
  | append_singleton found node ih =>
    rw [List.map_append, List.nodup_append] at distinct
    rw [List.foldl_append, ih distinct.1, List.map_append, List.reverse_append]
    have others : ((found.map fun node => (node.element.elementId, node)).reverse.filter
        (·.1 ≠ node.element.elementId)) =
        (found.map fun node => (node.element.elementId, node)).reverse := by
      refine List.filter_eq_self.mpr fun entry member => ?_
      rw [List.mem_reverse] at member
      obtain ⟨other, listed, rfl⟩ := List.mem_map.mp member
      have differs := distinct.2.2 other.element.elementId
        (List.mem_map_of_mem (f := (·.element.elementId)) listed) node.element.elementId (by simp)
      simpa using differs
    simp only [List.foldl_cons, List.foldl_nil, insertNode, others]
    rfl

/-- **A parsed tree is exact**: with nodes that are told apart and none above itself, the
elements describe, in order, the nodes of the document that have a role; the map has one entry
for each, and if the texts are valid the elements are accepted as an observation's. -/
theorem parse_exact (build : Build) (fuel : Nat) (tree : Json) (observationId documentId : String)
    (roots : List UInt64) (nodes : List Json) (elements : List SemanticElement)
    (map : List (String × CdpNode)) (listed : (tree.get? "nodes").bind asArray = some nodes)
    (distinct : (nodes.filterMap nodeId).Nodup) (acyclic : ∀ id, ¬ TransGen (HasParent nodes) id id)
    (digest : ∀ bytes, (build.sha256 bytes).length = 32)
    (apart : HashesApart build observationId roots nodes)
    (returned : (parseAxTree build fuel tree observationId documentId roots).run =
      some (.ok (elements, map))) :
    ∃ found, Found build observationId documentId roots nodes found ∧
      elements = found.map (·.element) ∧
      (map.map Prod.fst).Nodup ∧ map.length = elements.length ∧
      (∀ node ∈ found, map.lookup node.element.elementId = some node) ∧
      ((∀ element ∈ elements, validText element.role 1 128 = true ∧
        ∀ name ∈ element.name, validText name 0 1024 = true) →
        ∃ mapping, buildMapping elements = .ok mapping) := by
  have parses : Parses roots tree observationId nodes := by
    by_contra refused
    obtain ⟨e, failed⟩ := @parse_refused build tree observationId documentId roots fuel
      fun nodes' parses => refused
        (Option.some.inj (listed.symm.trans parses.listed) ▸ parses)
    rw [failed] at returned
    cases returned
  rw [parse_run parses] at returned
  obtain ⟨found, ran, shape⟩ := Option.map_eq_some_iff.mp returned
  obtain ⟨rfl, rfl⟩ := Prod.mk.inj (Except.ok.inj shape)
  obtain ⟨length, each⟩ := found_describes parses.accepts distinct ran
  have shape : Found build observationId documentId roots nodes found := ⟨length, each⟩
  have ids := shape.ids_apart parses.accepts apart
  have keys : ((found.foldl insertNode []).map Prod.fst).Nodup := by
    rw [insert_all ids, List.map_reverse, List.nodup_reverse, List.map_map]
    exact ids
  refine ⟨found, shape, rfl, keys, ?_, ?_, ?_⟩
  · rw [insert_all ids]
    simp
  · intro node member
    rw [lookup_iff keys, insert_all ids, List.mem_reverse]
    exact List.mem_map_of_mem member
  · intro texts
    have forest := shape.validForest parses.accepts parses.few acyclic digest apart texts
    exact ⟨_, buildMapping_ok.mpr ⟨rfl, wellFormed_iff.mpr forest⟩⟩

end

/-! ### A tree of two elements -/

/-- A button whose parent is ignored; the element above it comes last. -/
def layeredNodes : List Json := [
  .obj [("nodeId", .str "1"), ("parentId", .str "2"), ("backendDOMNodeId", .ofUInt64 1),
    ("role", .obj [("value", .str "button")])],
  .obj [("nodeId", .str "2"), ("parentId", .str "3"), ("ignored", .bool true)],
  .obj [("nodeId", .str "3"), ("backendDOMNodeId", .ofUInt64 2),
    ("role", .obj [("value", .str "main")])]]

def layeredTree : Json := .obj [("nodes", .arr layeredNodes)]

def layeredBuild : Build := ⟨false, Sha256.sha256⟩

theorem layered_acyclic (id : String) : ¬ TransGen (HasParent layeredNodes) id id := by
  have upward : ∀ a b, HasParent layeredNodes a b → a < b := by
    rintro a b ⟨raw, member, named, above⟩
    have checked : ∀ raw ∈ layeredNodes, (nodeId raw).all fun id =>
        (parentId raw).all fun parent => decide (id < parent) := by decide +kernel
    have ordered := checked raw member
    rw [named, above] at ordered
    exact of_decide_eq_true ordered
  exact fun circle => lt_irrefl id (transGen_minimal upward id id circle)

theorem parse_exact_layered : ∃ elements map mapping,
    (parseAxTree layeredBuild 4 layeredTree ("".pushn 'e' 64) "" [1, 2]).run = some (.ok (elements, map)) ∧
      elements.map (fun element => (element.tag, element.role)) = [("e0", "button"), ("e1", "main")] ∧
      map.length = elements.length ∧ buildMapping elements = .ok mapping := by
  have read : ((parseAxTree layeredBuild 4 layeredTree ("".pushn 'e' 64) "" [1, 2]).run.bind
      fun result => result.toOption.map fun parsed =>
        parsed.1.map fun element => (element.tag, element.role, element.name)) =
      some [("e0", "button", none), ("e1", "main", none)] := by
    decide +kernel
  obtain ⟨result, ran, parsed⟩ := Option.bind_eq_some_iff.mp read
  obtain ⟨⟨elements, map⟩, ok, shown⟩ := Option.map_eq_some_iff.mp parsed
  obtain rfl : result = .ok (elements, map) := by
    cases result with
    | error => cases ok
    | ok value => exact congrArg Except.ok (Option.some.inj ok)
  have digest (bytes : List UInt8) : (layeredBuild.sha256 bytes).length = 32 :=
    Sha256.sha256_length bytes
  have apart : HashesApart layeredBuild ("".pushn 'e' 64) [1, 2] layeredNodes := by
    -- Checked over the list, not over all identifiers.
    have checked : ((documentIds [1, 2] layeredNodes).all fun a =>
        (documentIds [1, 2] layeredNodes).all fun b =>
          decide (elementIdOf layeredBuild ("".pushn 'e' 64) a = elementIdOf layeredBuild ("".pushn 'e' 64) b →
            a = b)) = true := by decide +kernel
    intro a first b second
    exact of_decide_eq_true (List.all_eq_true.mp (List.all_eq_true.mp checked a first) b second)
  obtain ⟨found, _, _, _, length, _, maps⟩ := parse_exact layeredBuild 4 layeredTree ("".pushn 'e' 64) ""
    [1, 2] layeredNodes elements map rfl (by decide +kernel) layered_acyclic digest apart ran
  have texts : ∀ element ∈ elements, validText element.role 1 128 = true ∧
      ∀ name ∈ element.name, validText name 0 1024 = true := by
    intro element member
    have listed := List.mem_map_of_mem (f := fun element => (element.tag, element.role, element.name))
      member
    rw [shown, List.mem_cons, List.mem_singleton] at listed
    rcases listed with same | same <;>
    · simp only [Prod.mk.injEq] at same
      rw [same.2.1, same.2.2]
      exact ⟨by decide, nofun⟩
  obtain ⟨mapping, mapped⟩ := maps texts
  refine ⟨elements, map, mapping, ran, ?_, length, mapped⟩
  have tags := congrArg (List.map fun entry => (entry.1, entry.2.1)) shown
  rwa [List.map_map] at tags

end Praefectus.Cdp
