import Praefectus.Program.Ascents
import Praefectus.Semantic.Forest
import Praefectus.Semantic.Mapping
import Praefectus.Semantic.ProviderText

/-!
# Accessibility trees of a browser

A page's accessibility tree arrives as a list of nodes that name their parents. The nodes of
the root document become elements; each hangs below its nearest ancestor that is one.
-/

namespace Praefectus.Cdp

open Json

inductive CdpError where
  | invalidConfig
  | protocol
  | staleTarget
  | targetNotFound
  | cancelled
  | expired
  | unsupported
  deriving DecidableEq

/-! ### Members of a node -/

def asU64 : Json → Option UInt64
  | .int n => if 0 ≤ n.value then some (.ofNat n.value.toNat) else none
  | _ => none

def asBool : Json → Option Bool
  | .bool value => some value
  | _ => none

def asArray : Json → Option (List Json)
  | .arr items => some items
  | _ => none

/-- A member that must be a string with at least one character. -/
def requiredString (value : Json) (key : String) : Option String :=
  ((value.get? key).bind asStr).filter (· ≠ "")

/-- The first property of the name that has a value. -/
def axProperty (node : Json) (name : String) : Option Json := do
  (← asArray (← node.get? "properties")).findSome? fun value =>
    if (value.get? "name").bind asStr = some name then value.get? "value" else none

def axBoolProperty (node : Json) (name : String) : Option Bool := do
  asBool (← (← axProperty node name).get? "value")

structure AxSemantics where
  role : String
  name : Option String
  isProtected : Bool
  visible : Bool
  enabled : Bool
  invokable : Bool
  editable : Bool

def invokableRoles : List String :=
  ["button", "checkbox", "link", "menuitem", "menuitemcheckbox", "menuitemradio", "option", "radio",
    "switch", "tab", "treeitem"]

/-- What a node with a role is. -/
def axSemanticsOf (node : Json) (role : String) : AxSemantics :=
  let isProtected := (axBoolProperty node "protected").getD false
  { role
    name := if isProtected then some "[redacted]" else axValue (node.get? "name")
    isProtected
    visible := !(axBoolProperty node "hidden").getD false
    enabled := !(axBoolProperty node "disabled").getD false
    invokable := invokableRoles.contains role
    editable := !(axBoolProperty node "readonly").getD false &&
      ((axProperty node "editable").isSome || ["textbox", "searchbox"].contains role) }

def axSemantics (node : Json) : Except CdpError AxSemantics :=
  match axValue (node.get? "role") with
  | none => throw .protocol
  | some role => if role = "" || role = "none" then throw .protocol else pure (axSemanticsOf node role)

/-! ### The first pass -/

structure AxSelected where
  rawId : String
  backendNodeId : UInt64
  semantics : AxSemantics

structure AxScan where
  parents : List (String × String)
  selected : List AxSelected
  backendIds : List UInt64

def AxScan.empty : AxScan := ⟨[], [], []⟩

/-- A later parent of an identifier replaces an earlier one. -/
def AxScan.withParent (scan : AxScan) (rawId : String) : Option String → AxScan
  | some parentId => { scan with parents := (rawId, parentId) :: scan.parents }
  | none => scan

def AxScan.select (scan : AxScan) (raw : Json) (rawId : String) (backendNodeId : UInt64) :
    Except CdpError AxScan :=
  if backendNodeId = 0 || scan.backendIds.contains backendNodeId then throw .protocol
  else
    let scan := { scan with backendIds := backendNodeId :: scan.backendIds }
    match axValue (raw.get? "role") with
    | none => throw .protocol
    | some role =>
      if role = "" || role = "none" then pure scan
      else do
        let semantics ← axSemantics raw
        pure { scan with selected := scan.selected ++ [⟨rawId, backendNodeId, semantics⟩] }

def scanNode (rootBackendNodeIds : List UInt64) (scan : AxScan) (raw : Json) :
    Except CdpError AxScan :=
  match requiredString raw "nodeId" with
  | none => throw .protocol
  | some rawId =>
    let scan := scan.withParent rawId ((raw.get? "parentId").bind asStr)
    if (raw.get? "ignored").bind asBool = some true then pure scan
    else match (raw.get? "backendDOMNodeId").bind asU64 with
      | none => pure scan
      | some backendNodeId =>
        if rootBackendNodeIds.contains backendNodeId then scan.select raw rawId backendNodeId
        else pure scan

/-! ### The second pass -/

structure CdpNode where
  backendNodeId : UInt64
  isProtected : Bool
  element : SemanticElement

def opaqueIdOf (build : Build) (observationId : String) (backendNodeId : UInt64) :
    Except CdpError String :=
  match opaqueElementId build observationId (toString backendNodeId) with
  | .ok id => pure id
  | .error _ => throw .protocol

/-- The identifiers of the selected nodes, the last one first. -/
def opaqueIds (build : Build) (observationId : String) (selected : List AxSelected) :
    Except CdpError (List (String × String)) :=
  selected.foldlM (fun ids node => do
    let elementId ← opaqueIdOf build observationId node.backendNodeId
    pure ((node.rawId, elementId) :: ids)) []

/-- The loop over the ancestors that are not selected, for so many rounds. -/
def skipUnselected (parents : List (String × String)) (selectedIds : List String) :
    Nat → Option String → Option (Option String)
  | _, none => some none
  | 0, some id => if selectedIds.contains id then some (some id) else none
  | fuel + 1, some id =>
    if selectedIds.contains id then some (some id)
    else skipUnselected parents selectedIds fuel (parents.lookup id)

def axFingerprint (build : Build) (documentId : String) (backendNodeId : UInt64)
    (semantics : AxSemantics) : String :=
  hashSerializable build (.arr [.str documentId, ofUInt64 backendNodeId, .str semantics.role,
    ofOption .str semantics.name])

def axActionability (semantics : AxSemantics) : Actionability where
  visible := semantics.visible
  enabled := semantics.enabled
  unambiguous := true
  stable := false
  receivesEvents := false
  invokable := semantics.invokable
  editable := semantics.editable

/-- A selected node as an element. Without a result the loop over its ancestors has not come
to an end. -/
def axElement (build : Build) (fuel : Nat) (documentId : String) (scan : AxScan)
    (ids : List (String × String)) (index : Nat) (node : AxSelected) :
    ExceptT CdpError Option CdpNode := do
  let parent ← ExceptT.lift (skipUnselected scan.parents (scan.selected.map (·.rawId)) fuel
    (scan.parents.lookup node.rawId))
  match ids.lookup node.rawId, semanticTag index with
  | some elementId, .ok tag =>
    pure {
      backendNodeId := node.backendNodeId
      isProtected := node.semantics.isProtected
      element := {
        tag
        elementId
        parentId := parent.bind fun id => ids.lookup id
        fingerprintHash := axFingerprint build documentId node.backendNodeId node.semantics
        role := node.semantics.role
        name := node.semantics.name
        bounds := none
        actionability := axActionability node.semantics } }
  | _, _ => throw .protocol

/-- The nodes by the identifiers of their elements. -/
def insertNode (nodes : List (String × CdpNode)) (node : CdpNode) : List (String × CdpNode) :=
  (node.element.elementId, node) :: nodes.filter (·.1 ≠ node.element.elementId)

def parseAxTree (build : Build) (fuel : Nat) (tree : Json) (observationId documentId : String)
    (rootBackendNodeIds : List UInt64) :
    ExceptT CdpError Option (List SemanticElement × List (String × CdpNode)) := do
  match (tree.get? "nodes").bind asArray with
  | none => throw .protocol
  | some rawNodes =>
    if rawNodes.length > maxSemanticElements then throw .protocol
    let scan ← ExceptT.mk (some (rawNodes.foldlM (scanNode rootBackendNodeIds) .empty))
    let ids ← ExceptT.mk (some (opaqueIds build observationId scan.selected))
    let nodes ← scan.selected.zipIdx.mapM fun entry =>
      axElement build fuel documentId scan ids entry.2 entry.1
    pure (nodes.map (·.element), nodes.foldl insertNode [])

/-! ### What the nodes say -/

def nodeId (raw : Json) : Option String := requiredString raw "nodeId"

def parentId (raw : Json) : Option String := (raw.get? "parentId").bind asStr

def backendId (raw : Json) : Option UInt64 := (raw.get? "backendDOMNodeId").bind asU64

def axRole (raw : Json) : Option String := axValue (raw.get? "role")

/-- The node is not ignored, and in the document. -/
def inRoot (roots : List UInt64) (raw : Json) : Bool :=
  decide ((raw.get? "ignored").bind asBool ≠ some true) && (backendId raw).any roots.contains

/-- It also has a role. -/
def isElement (roots : List UInt64) (raw : Json) : Bool :=
  inRoot roots raw && (axRole raw).any (· ≠ "none")

def selectedOf (roots : List UInt64) (raw : Json) : Option AxSelected :=
  match nodeId raw, backendId raw, axRole raw with
  | some rawId, some backendNodeId, some role =>
    if isElement roots raw then some ⟨rawId, backendNodeId, axSemanticsOf raw role⟩ else none
  | _, _, _ => none

def parentEntry (raw : Json) : Option (String × String) :=
  match nodeId raw, parentId raw with
  | some rawId, some parentId => some (rawId, parentId)
  | _, _ => none

theorem axValue_filled (value : Option Json) : axValue value ≠ some "" := by
  intro empty
  obtain ⟨text, _, redacted⟩ := Option.bind_eq_some_iff.mp empty
  obtain ⟨text', _, redacted⟩ := Option.bind_eq_some_iff.mp redacted
  obtain ⟨text'', _, redacted⟩ := Option.bind_eq_some_iff.mp redacted
  unfold redactedName at redacted
  dsimp only at redacted
  split at redacted
  · cases redacted
  · split at redacted
    · cases redacted
    next filled =>
      have same := congrArg String.toList (Option.some.inj redacted)
      rw [String.toList_ofList] at same
      exact filled same

theorem selectedOf_outside {roots : List UInt64} {raw : Json} (outside : inRoot roots raw = false) :
    selectedOf roots raw = none := by
  unfold selectedOf isElement
  rw [outside]
  cases nodeId raw <;> cases backendId raw <;> cases axRole raw <;> rfl

theorem axSemantics_role {raw : Json} {role : String} (found : axRole raw = some role)
    (shown : role ≠ "none") : axSemantics raw = .ok (axSemanticsOf raw role) := by
  have filled : role ≠ "" := fun empty => axValue_filled (raw.get? "role") (empty ▸ found)
  have value : axValue (raw.get? "role") = some role := found
  simp [axSemantics, value, filled, shown, pure, Except.pure]

/-- What the first pass makes of a node of the document, and when. -/
theorem select_ok {scan scan' : AxScan} {raw : Json} {rawId : String} {b : UInt64} :
    scan.select raw rawId b = .ok scan' ↔ b ≠ 0 ∧ b ∉ scan.backendIds ∧
      ∃ role, axRole raw = some role ∧ scan' = ⟨scan.parents,
        scan.selected ++ (if role = "none" then [] else [⟨rawId, b, axSemanticsOf raw role⟩]),
        b :: scan.backendIds⟩ := by
  unfold AxScan.select
  by_cases zero : b = 0
  · simp [zero, throw, throwThe, MonadExceptOf.throw]
  by_cases used : b ∈ scan.backendIds
  · simp [used, throw, throwThe, MonadExceptOf.throw]
  cases found : axRole raw with
  | none =>
    have value : axValue (raw.get? "role") = none := found
    simp [zero, used, value, throw, throwThe, MonadExceptOf.throw]
  | some role =>
    have value : axValue (raw.get? "role") = some role := found
    have filled : role ≠ "" := fun empty => axValue_filled (raw.get? "role") (empty ▸ found)
    by_cases shown : role = "none"
    · subst shown
      simp [zero, used, value, pure, Except.pure, @eq_comm _ scan']
    · simp [zero, used, value, filled, shown, axSemantics_role found shown, bind, Except.bind, pure,
        Except.pure, @eq_comm _ scan']

/-- What the first pass makes of a node, and when. -/
theorem scanNode_ok {roots : List UInt64} {scan scan' : AxScan} {raw : Json} :
    scanNode roots scan raw = .ok scan' ↔ (nodeId raw).isSome = true ∧
      (inRoot roots raw = true → (axRole raw).isSome = true ∧
        ∀ b, backendId raw = some b → b ≠ 0 ∧ b ∉ scan.backendIds) ∧
      scan' = ⟨(parentEntry raw).toList ++ scan.parents,
        scan.selected ++ (selectedOf roots raw).toList,
        (if inRoot roots raw then (backendId raw).toList else []) ++ scan.backendIds⟩ := by
  have parents (rawId : String) (named : nodeId raw = some rawId) :
      (scan.withParent rawId (parentId raw)) =
        { scan with parents := (parentEntry raw).toList ++ scan.parents } := by
    rw [parentEntry, named]
    cases parentId raw <;> rfl
  unfold scanNode
  rcases named : nodeId raw with _ | rawId
  · have refused : requiredString raw "nodeId" = none := named
    simp [refused, throw, throwThe, MonadExceptOf.throw]
  · have found : requiredString raw "nodeId" = some rawId := named
    have above : (raw.get? "parentId").bind asStr = parentId raw := rfl
    simp only [found, above, parents rawId named]
    by_cases ignored : (raw.get? "ignored").bind asBool = some true
    · have outside : inRoot roots raw = false := by simp [inRoot, ignored]
      simp [ignored, outside, selectedOf_outside outside, pure, Except.pure, @eq_comm _ scan']
    cases backend : backendId raw with
    | none =>
      have number : (raw.get? "backendDOMNodeId").bind asU64 = none := backend
      have outside : inRoot roots raw = false := by simp [inRoot, backend]
      simp [ignored, number, outside, selectedOf_outside outside, pure, Except.pure, @eq_comm _ scan']
    | some b =>
      have number : (raw.get? "backendDOMNodeId").bind asU64 = some b := backend
      by_cases listed : b ∈ roots
      · have inside : inRoot roots raw = true := by simp [inRoot, ignored, backend, listed]
        have contained : roots.contains b = true := by simpa using listed
        simp only [ignored, if_false, number, contained, if_true, select_ok, inside]
        cases found : axRole raw with
        | none => simp
        | some role =>
          by_cases shown : role = "none" <;>
            simp [selectedOf, isElement, named, backend, found, inside, shown, and_assoc]
      · have outside : inRoot roots raw = false := by simp [inRoot, backend, listed]
        have contained : roots.contains b = false := by simpa using listed
        simp [ignored, number, listed, outside, selectedOf_outside outside, pure, Except.pure, @eq_comm _ scan']

/-! ### What the first pass accepts -/

/-- The backend identifiers of the nodes of the document. -/
def documentIds (roots : List UInt64) (nodes : List Json) : List UInt64 :=
  (nodes.filter (inRoot roots)).filterMap backendId

/-- All nodes are named; those of the document are told apart and have roles. -/
structure Accepts (roots : List UInt64) (nodes : List Json) : Prop where
  named : ∀ raw ∈ nodes, (nodeId raw).isSome = true
  roles : ∀ raw ∈ nodes, inRoot roots raw = true → (axRole raw).isSome = true
  nonzero : 0 ∉ documentIds roots nodes
  distinct : (documentIds roots nodes).Nodup

/-- The last node of an identifier that names a parent names its parent. -/
def parentOf (nodes : List Json) (id : String) : Option String :=
  (nodes.filterMap parentEntry).reverse.lookup id

def scanOf (roots : List UInt64) (nodes : List Json) : AxScan where
  parents := (nodes.filterMap parentEntry).reverse
  selected := nodes.filterMap (selectedOf roots)
  backendIds := (documentIds roots nodes).reverse

theorem documentIds_concat (roots : List UInt64) (nodes : List Json) (raw : Json) :
    documentIds roots (nodes ++ [raw]) =
      documentIds roots nodes ++ if inRoot roots raw then (backendId raw).toList else [] := by
  rw [documentIds, List.filter_append, List.filterMap_append]
  congr 1
  by_cases inside : inRoot roots raw = true
  · cases found : backendId raw <;> simp [inside, found]
  · simp [inside]

theorem accepts_concat {roots : List UInt64} {nodes : List Json} {raw : Json} :
    Accepts roots (nodes ++ [raw]) ↔ Accepts roots nodes ∧ (nodeId raw).isSome = true ∧
      (inRoot roots raw = true → (axRole raw).isSome = true ∧
        ∀ b, backendId raw = some b → b ≠ 0 ∧ b ∉ documentIds roots nodes) := by
  constructor
  · rintro ⟨named, roles, nonzero, distinct⟩
    rw [documentIds_concat, List.mem_append, not_or] at nonzero
    rw [documentIds_concat, List.nodup_append] at distinct
    refine ⟨⟨fun r member => named r (List.mem_append_left _ member),
      fun r member => roles r (List.mem_append_left _ member), nonzero.1, distinct.1⟩,
      named raw (by simp), fun inside => ⟨roles raw (by simp) inside, fun b found => ?_⟩⟩
    have last : b ∈ if inRoot roots raw then (backendId raw).toList else [] := by
      simp [inside, found]
    exact ⟨fun zero => nonzero.2 (zero ▸ last), fun earlier => distinct.2.2 b earlier b last rfl⟩
  · rintro ⟨⟨named, roles, nonzero, distinct⟩, last, checks⟩
    have ids : ∀ b ∈ (if inRoot roots raw then (backendId raw).toList else []),
        b ≠ 0 ∧ b ∉ documentIds roots nodes := by
      intro b member
      split at member
      next inside => exact (checks inside).2 b (Option.mem_toList.mp member)
      next => exact absurd member List.not_mem_nil
    refine ⟨?_, ?_, ?_, ?_⟩
    · intro r member
      rcases List.mem_append.mp member with member | member
      · exact named r member
      · rwa [List.mem_singleton.mp member]
    · intro r member inside
      rcases List.mem_append.mp member with member | member
      · exact roles r member inside
      · obtain rfl := List.mem_singleton.mp member
        exact (checks inside).1
    · rw [documentIds_concat, List.mem_append, not_or]
      exact ⟨nonzero, fun member => (ids 0 member).1 rfl⟩
    · rw [documentIds_concat, List.nodup_append]
      refine ⟨distinct, ?_, fun a earlier b member same => (ids b member).2 (same ▸ earlier)⟩
      split
      · cases backendId raw <;> simp
      · exact List.nodup_nil

theorem scanOf_concat (roots : List UInt64) (nodes : List Json) (raw : Json) :
    scanOf roots (nodes ++ [raw]) = ⟨(parentEntry raw).toList ++ (scanOf roots nodes).parents,
      (scanOf roots nodes).selected ++ (selectedOf roots raw).toList,
      (if inRoot roots raw then (backendId raw).toList else []) ++ (scanOf roots nodes).backendIds⟩ := by
  have reversed : (if inRoot roots raw then (backendId raw).toList else []).reverse =
      if inRoot roots raw then (backendId raw).toList else [] := by
    split
    · cases backendId raw <;> rfl
    · rfl
  simp only [scanOf, documentIds_concat, List.filterMap_append, List.reverse_append, reversed,
    AxScan.mk.injEq, and_true]
  constructor
  · cases parent : parentEntry raw <;> simp [parent]
  · cases selected : selectedOf roots raw <;> simp [selected]

theorem scan_ok {roots : List UInt64} {nodes : List Json} {scan : AxScan} :
    nodes.foldlM (scanNode roots) .empty = .ok scan ↔
      Accepts roots nodes ∧ scan = scanOf roots nodes := by
  induction nodes using List.reverseRecOn generalizing scan with
  | nil =>
    have accepts : Accepts roots [] := ⟨by simp, by simp, by simp [documentIds], by simp [documentIds]⟩
    have empty : scanOf roots [] = .empty := rfl
    simp [pure, Except.pure, accepts, empty, @eq_comm _ scan]
  | append_singleton nodes raw ih =>
    rw [List.foldlM_append, accepts_concat, scanOf_concat]
    cases first : nodes.foldlM (scanNode roots) .empty with
    | error e =>
      have refused : ¬ Accepts roots nodes := by
        intro accepts
        have passed := ih.mpr ⟨accepts, rfl⟩
        rw [first] at passed
        contradiction
      simp [bind, Except.bind, refused]
    | ok middle =>
      obtain ⟨accepts, rfl⟩ := ih.mp first
      simp only [bind, Except.bind, List.foldlM_cons, List.foldlM_nil]
      have step := @scanNode_ok roots (scanOf roots nodes) scan raw
      have used (b : UInt64) : b ∈ (scanOf roots nodes).backendIds ↔ b ∈ documentIds roots nodes :=
        List.mem_reverse
      simp only [used] at step
      cases last : scanNode roots (scanOf roots nodes) raw with
      | error e =>
        rw [last] at step
        simp only [reduceCtorEq, false_iff] at step ⊢
        rintro ⟨⟨_, named, checks⟩, shape⟩
        exact step ⟨named, checks, shape⟩
      | ok scan' =>
        rw [last] at step
        simp only [pure, Except.pure] at step ⊢
        rw [step, and_assoc, and_assoc]
        exact ⟨fun rest => ⟨accepts, rest⟩, fun rest => rest.2⟩

end Praefectus.Cdp
