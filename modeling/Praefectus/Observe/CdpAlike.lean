import Mathlib.Data.List.Forall2
import Mathlib.Data.Option.Basic
import Praefectus.Observe.CdpProbe

/-!
# Replies about protected elements

Replies that differ in the names of nodes that are marked as protected, or in what is reported
of a value, and what is read from such replies.
-/

namespace Praefectus.Cdp.CdpExecutor

open Json

/-! ### Replies that differ in some members -/

/-- An object without some of its members. -/
def without (keys : List String) : Json → Json
  | .obj members => .obj (members.filter fun member => member.1 ∉ keys)
  | j => j

/-- The values differ in members with these keys at most. -/
def AgreesBut (keys : List String) (j j' : Json) : Prop := without keys j = without keys j'

/-- They differ in one member at most, and there as the relation says. -/
def AgreesAt (key : String) (R : Json → Json → Prop) (j j' : Json) : Prop :=
  AgreesBut [key] j j' ∧ Option.Rel R (j.get? key) (j'.get? key)

def isMarked (node : Json) : Bool := (axBoolProperty node "protected").getD false

/-- Nodes that differ in the name at most, if they are marked as protected. -/
structure SameNode (node node' : Json) : Prop where
  others : AgreesBut ["name"] node node'
  name : isMarked node = false → node.get? "name" = node'.get? "name"

/-- Such nodes one for one, or the same value. -/
def SameNodes (nodes nodes' : Json) : Prop :=
  nodes = nodes' ∨ ∃ items items', nodes = .arr items ∧ nodes' = .arr items' ∧
    List.Forall₂ SameNode items items'

def SameTree : Json → Json → Prop := AgreesAt "nodes" SameNodes

def SameProbe : Json → Json → Prop :=
  AgreesAt "result" (AgreesAt "value" (AgreesBut (valueKeys.map Prod.fst)))

/-- Replies that are related, or the same failure. -/
inductive SameReply (R : Json → Json → Prop) :
    Option (Except CdpChannelError Json) → Option (Except CdpChannelError Json) → Prop where
  | reply {reply reply' : Json} : R reply reply' →
      SameReply R (some (.ok reply)) (some (.ok reply'))
  | failed (error : CdpChannelError) : SameReply R (some (.error error)) (some (.error error))
  | poisoned : SameReply R none none

theorem SameReply.mono {R S : Json → Json → Prop} {ans ans' : Option (Except CdpChannelError Json)}
    (same : SameReply R ans ans')
    (weaker : ∀ reply reply', ans = some (.ok reply) → ans' = some (.ok reply') →
      R reply reply' → S reply reply') : SameReply S ans ans' := by
  cases same with
  | reply related => exact .reply (weaker _ _ rfl rfl related)
  | failed error => exact .failed error
  | poisoned => exact .poisoned

section

variable {keys : List String} {j j' : Json} {key : String}

theorem lookup_filter {members : List (String × Json)} (kept : key ∉ keys) :
    (members.filter fun member => member.1 ∉ keys).lookup key = members.lookup key := by
  induction members with
  | nil => rfl
  | cons member members ih =>
    obtain ⟨k, value⟩ := member
    by_cases same : key = k
    · subst same
      rw [List.filter_cons_of_pos (by simpa using kept), List.lookup_cons_self,
        List.lookup_cons_self]
    · rw [List.lookup_cons, beq_false_of_ne same]
      by_cases dropped : k ∈ keys
      · rw [List.filter_cons_of_neg (by simpa using dropped), ih]
      · rw [List.filter_cons_of_pos (by simpa using dropped), List.lookup_cons,
          beq_false_of_ne same, ih]

theorem filter_same {R : Json → Json → Prop} (p : Json → Bool)
    (alike : ∀ node node', R node node' → p node = p node') {items items' : List Json}
    (related : List.Forall₂ R items items') :
    List.Forall₂ R (items.filter p) (items'.filter p) := by
  induction related with
  | nil => exact .nil
  | cons first rest ih =>
    rw [List.filter_cons, List.filter_cons, alike _ _ first]
    split
    · exact .cons first ih
    · exact ih

theorem get?_agrees (agrees : AgreesBut keys j j') (kept : key ∉ keys) :
    j.get? key = j'.get? key := by
  have whole (j : Json) : (without keys j).get? key = j.get? key := by
    cases j with
    | obj members => exact lookup_filter kept
    | _ => rfl
  rw [← whole j, agrees, whole j']

end

/-! ### Nodes -/

section Nodes

variable {node node' : Json} (same : SameNode node node')
include same

theorem get?_same {key : String} (other : key ≠ "name") : node.get? key = node'.get? key :=
  get?_agrees same.others fun member => other (List.mem_singleton.mp member)

theorem axProperty_same (name : String) : axProperty node name = axProperty node' name := by
  rw [axProperty, axProperty, get?_same same (by decide)]

theorem axBoolProperty_same (name : String) :
    axBoolProperty node name = axBoolProperty node' name := by
  rw [axBoolProperty, axBoolProperty, axProperty_same same]

/-- The name of a node that is marked is not read. -/
theorem axSemanticsOf_same (role : String) : axSemanticsOf node role = axSemanticsOf node' role := by
  have named : (if isMarked node then some "[redacted]" else axValue (node.get? "name")) =
      if isMarked node' then some "[redacted]" else axValue (node'.get? "name") := by
    have marks : isMarked node = isMarked node' :=
      congrArg (Option.getD · false) (axBoolProperty_same same "protected")
    cases marked : isMarked node with
    | true => rw [← marks, marked]
              rfl
    | false => rw [← marks, marked, same.name marked]
  unfold isMarked at named
  simp only [axSemanticsOf, axProperty_same same, axBoolProperty_same same] at named ⊢
  rw [named]

theorem axSemantics_same : axSemantics node = axSemantics node' := by
  unfold axSemantics
  rw [get?_same same (by decide)]
  split
  · rfl
  · rw [axSemanticsOf_same same]

theorem scanNode_same (roots : List UInt64) (scan : AxScan) :
    scanNode roots scan node = scanNode roots scan node' := by
  have select (scan : AxScan) (rawId : String) (b : UInt64) :
      scan.select node rawId b = scan.select node' rawId b := by
    unfold AxScan.select
    rw [get?_same same (show "role" ≠ "name" by decide), axSemantics_same same]
  unfold scanNode requiredString
  rw [get?_same same (show "nodeId" ≠ "name" by decide),
    get?_same same (show "parentId" ≠ "name" by decide),
    get?_same same (show "ignored" ≠ "name" by decide),
    get?_same same (show "backendDOMNodeId" ≠ "name" by decide)]
  simp only [select]

end Nodes

theorem single_same {nodes nodes' : List Json} (related : List.Forall₂ SameNode nodes nodes') :
    ((single nodes).bind fun node => (axSemantics node).toOption) =
      (single nodes').bind fun node => (axSemantics node).toOption := by
  cases related with
  | nil => rfl
  | cons first rest =>
    cases rest with
    | nil => exact congrArg Except.toOption (axSemantics_same first)
    | cons => rfl

/-! ### Trees -/

section Trees

variable {tree tree' : Json} (same : SameTree tree tree')
include same

/-- Both have nodes, one for one, or neither. -/
theorem nodes_same : Option.Rel (List.Forall₂ SameNode) ((tree.get? "nodes").bind asArray)
    ((tree'.get? "nodes").bind asArray) := by
  have refl (items : List Json) : List.Forall₂ SameNode items items :=
    List.forall₂_same.mpr fun node _ => ⟨rfl, fun _ => rfl⟩
  obtain ⟨_, nodes⟩ := same
  generalize tree.get? "nodes" = found at nodes
  generalize tree'.get? "nodes" = found' at nodes
  cases nodes with
  | none => exact .none
  | some related =>
    rcases related with rfl | ⟨items, items', rfl, rfl, nodes⟩
    next nodes =>
      cases nodes with
      | arr items => exact .some (refl items)
      | _ => exact .none
    · exact .some nodes

theorem parseAxTree_same (build : Build) (fuel : Nat) (observationId documentId : String)
    (roots : List UInt64) : parseAxTree build fuel tree observationId documentId roots =
      parseAxTree build fuel tree' observationId documentId roots := by
  have scans {items items' : List Json} (nodes : List.Forall₂ SameNode items items') (scan : AxScan) :
      items.foldlM (scanNode roots) scan = items'.foldlM (scanNode roots) scan := by
    induction nodes generalizing scan with
    | nil => rfl
    | cons first _ ih =>
      rw [List.foldlM_cons, List.foldlM_cons, scanNode_same first]
      exact congrArg _ (funext ih)
  have nodes := nodes_same same
  unfold parseAxTree
  generalize (tree.get? "nodes").bind asArray = found at nodes
  generalize (tree'.get? "nodes").bind asArray = found' at nodes
  cases nodes with
  | none => rfl
  | some items => simp only [items.length_eq, scans items]

theorem liveAxSemantics_same (backendNodeId : UInt64) :
    liveAxSemantics tree backendNodeId = liveAxSemantics tree' backendNodeId := by
  have nodes := nodes_same same
  unfold liveAxSemantics
  generalize (tree.get? "nodes").bind asArray = found at nodes
  generalize (tree'.get? "nodes").bind asArray = found' at nodes
  cases nodes with
  | none => rfl
  | some items =>
    have live {node node' : Json} (same : SameNode node node') :
        isLive backendNodeId node = isLive backendNodeId node' := by
      unfold isLive
      rw [get?_same same (show "backendDOMNodeId" ≠ "name" by decide),
        get?_same same (show "ignored" ≠ "name" by decide)]
    have chosen := single_same (filter_same (isLive backendNodeId) (fun _ _ => live) items)
    simp only [Option.bind_eq_bind, Option.bind_some]
    exact chosen

end Trees

/-! ### Values -/

theorem redactMember_protected (members : List (String × Json)) (key : String × String) :
    redactMember true members key = members.filter (·.1 ≠ key.1) := by
  unfold redactMember
  cases found : members.lookup key.1 with
  | some => rfl
  | none =>
    refine (List.filter_eq_self.mpr fun member listed => ?_).symm
    have absent := List.lookup_eq_none_iff.mp found member listed
    exact decide_eq_true fun same => bne_iff_ne.mp absent same.symm

/-- Of a protected element nothing is kept under the three keys. -/
theorem redactedProbe_protected (value : Json) :
    redactedProbe value true = without (valueKeys.map Prod.fst) value := by
  have steps (keys : List (String × String)) (members : List (String × Json)) :
      keys.foldl (redactMember true) members =
        members.filter fun member => member.1 ∉ keys.map Prod.fst := by
    induction keys generalizing members with
    | nil => exact (List.filter_eq_self.mpr fun _ _ => rfl).symm
    | cons key keys ih =>
      rw [List.foldl_cons, redactMember_protected, ih, List.filter_filter]
      refine List.filter_congr fun member _ => ?_
      simp only [List.map_cons, List.mem_cons, not_or, ne_eq, Bool.decide_and, Bool.and_comm]
  cases value with
  | obj members => exact congrArg Json.obj (steps valueKeys members)
  | _ => rfl

end Praefectus.Cdp.CdpExecutor
