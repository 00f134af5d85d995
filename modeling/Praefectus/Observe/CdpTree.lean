import Praefectus.Observe.Cdp
import Praefectus.Text.Sha256

/-!
# The elements of a browser's tree

When the parse of an accessibility tree comes to an end, and what its elements are.
-/

namespace Praefectus.Cdp

open Json

/-! ### The loop over unselected ancestors -/

/-- The parent of a node that is not selected. -/
def stepUp (parents : List (String × String)) (selectedIds : List String) (id : String) :
    Option String :=
  if selectedIds.contains id then none else parents.lookup id

section

variable {parents : List (String × String)} {selectedIds : List String}

theorem skip_none (fuel : Nat) : skipUnselected parents selectedIds fuel none = some none := by
  cases fuel <;> rfl

/-- The loop comes to an end exactly where the way up through unselected nodes does. -/
theorem skip_ends {start : Option String} :
    (∃ fuel, (skipUnselected parents selectedIds fuel start).isSome = true) ↔
      Ascent.Ends (stepUp parents selectedIds) start := by
  constructor
  · rintro ⟨fuel, ended⟩
    refine ⟨fuel + 1, ?_⟩
    induction fuel generalizing start with
    | zero =>
      cases start with
      | none => rfl
      | some id =>
        rw [skipUnselected] at ended
        split at ended
        next selected => exact if_pos selected
        next => contradiction
    | succ fuel ih =>
      cases start with
      | none => exact Ascent.climb_none _
      | some id =>
        rw [skipUnselected] at ended
        have first : Ascent.climb (stepUp parents selectedIds) (fuel + 1 + 1) (some id) =
            Ascent.climb (stepUp parents selectedIds) (fuel + 1) (stepUp parents selectedIds id) := rfl
        rw [first, stepUp]
        split at ended
        next selected => rw [if_pos selected, Ascent.climb_none]
        next unselected => rw [if_neg unselected]; exact ih ended
  · rintro ⟨n, ended⟩
    refine ⟨n, ?_⟩
    induction n generalizing start with
    | zero =>
      obtain rfl : start = none := ended
      rfl
    | succ n ih =>
      cases start with
      | none => rfl
      | some id =>
        rw [skipUnselected]
        split
        next => rfl
        next unselected =>
          refine ih ?_
          have next : stepUp parents selectedIds id = parents.lookup id := if_neg unselected
          rw [← next]
          exact ended

/-- More rounds do not change what the loop finds. -/
theorem skip_more {start found : Option String} {fuel fuel' : Nat} (more : fuel ≤ fuel')
    (ended : skipUnselected parents selectedIds fuel start = some found) :
    skipUnselected parents selectedIds fuel' start = some found := by
  induction fuel generalizing start fuel' with
  | zero =>
    cases start with
    | none => cases fuel' <;> exact ended
    | some id =>
      rw [skipUnselected] at ended
      split at ended
      next selected => cases fuel' <;> rw [skipUnselected, if_pos selected, ended]
      next => contradiction
  | succ fuel ih =>
    obtain ⟨fuel', rfl⟩ : ∃ n, fuel' = n + 1 := ⟨fuel' - 1, by omega⟩
    cases start with
    | none => exact ended
    | some id =>
      rw [skipUnselected] at ended ⊢
      split at ended
      next selected => rw [if_pos selected, ended]
      next unselected =>
        rw [if_neg unselected]
        exact ih (by omega) ended

theorem skip_isSome {start : Option String} {fuel fuel' : Nat} (more : fuel ≤ fuel')
    (ended : (skipUnselected parents selectedIds fuel start).isSome = true) :
    (skipUnselected parents selectedIds fuel' start).isSome = true := by
  obtain ⟨found, ended⟩ := Option.isSome_iff_exists.mp ended
  rw [skip_more more ended]
  rfl

end

/-! ### The second pass -/

/-- The identifier of the element of a node. -/
def elementIdOf (build : Build) (observationId : String) (backendNodeId : UInt64) : String :=
  hashBytes build (observationId.asBytes ++ [0] ++ (toString backendNodeId).asBytes)

theorem digit_range {c : Char} (digit : c.isDigit = true) : 48 ≤ c.toNat ∧ c.toNat ≤ 57 := by
  simp only [Char.isDigit, Bool.and_eq_true, decide_eq_true_eq, ge_iff_le, UInt32.le_iff_toNat_le]
    at digit
  exact digit

theorem digit_not_control {c : Char} (digit : c.isDigit = true) : isControl c = false := by
  have range := digit_range digit
  simp [isControl]
  omega

theorem digit_not_space {c : Char} (digit : c.isDigit = true) : isWhitespace c = false := by
  have range := digit_range digit
  simp [isWhitespace]
  omega

section

variable {build : Build} {observationId : String}

/-- The digits of a number are a text. -/
theorem validText_digits (n : UInt64) : validText (toString n) 1 2048 = true := by
  have text : (toString n).toList = Nat.toDigits 10 n.toNat := Nat.toList_repr
  have digits : ∀ c ∈ Nat.toDigits 10 n.toNat, c.isDigit = true := fun c member =>
    Nat.isDigit_of_mem_toDigits (by omega) (by omega) member
  have bytes : (utf8 (Nat.toDigits 10 n.toNat)).length = (Nat.toDigits 10 n.toNat).length :=
    utf8_length_single fun c member => digit_byte (digits c member)
  have few : (Nat.toDigits 10 n.toNat).length ≤ 20 :=
    (Nat.length_toDigits_le_iff (by omega) (by omega)).mpr (by have := n.toNat_lt; omega)
  have filled : Nat.toDigits 10 n.toNat ≠ [] := Nat.toDigits_ne_nil
  rw [validText_iff, text, bytes]
  refine ⟨List.length_pos_of_ne_nil filled, by omega, ?_, ?_⟩
  · exact fun c member => digit_not_control (digits c member)
  · obtain ⟨c, member⟩ := List.exists_mem_of_ne_nil _ filled
    exact ⟨c, member, digit_not_space (digits c member)⟩

theorem opaqueIdOf_eq (b : UInt64) : opaqueIdOf build observationId b =
    if semanticHash observationId then .ok (elementIdOf build observationId b)
    else .error .protocol := by
  cases valid : semanticHash observationId <;>
    simp [opaqueIdOf, opaqueElementId, valid, validText_digits, elementIdOf, throw, throwThe,
      MonadExceptOf.throw, pure, Except.pure]

theorem opaqueIds_eq (selected : List AxSelected) : opaqueIds build observationId selected =
    if semanticHash observationId || selected.isEmpty then .ok (selected.map fun node =>
      (node.rawId, elementIdOf build observationId node.backendNodeId)).reverse
    else .error .protocol := by
  induction selected using List.reverseRecOn with
  | nil => simp [opaqueIds, pure, Except.pure]
  | append_singleton selected node ih =>
    rw [opaqueIds, List.foldlM_append]
    rw [opaqueIds] at ih
    rw [ih]
    cases valid : semanticHash observationId <;> cases empty : selected.isEmpty <;>
      simp [opaqueIdOf_eq, valid, bind, Except.bind, pure, Except.pure, List.foldlM_cons, List.foldlM_nil]

end

/-! ### Selected nodes as elements -/

/-- The element of a selected node, once its parent is known. -/
def nodeOf (build : Build) (documentId : String) (ids : List (String × String)) (index : Nat)
    (node : AxSelected) (parent : Option String) : CdpNode where
  backendNodeId := node.backendNodeId
  isProtected := node.semantics.isProtected
  element := {
    tag := "e" ++ toString index
    elementId := (ids.lookup node.rawId).getD ""
    parentId := parent.bind fun id => ids.lookup id
    fingerprintHash := axFingerprint build documentId node.backendNodeId node.semantics
    role := node.semantics.role
    name := node.semantics.name
    bounds := none
    actionability := axActionability node.semantics }

/-- The loop is all that may keep a selected node from becoming an element. -/
theorem axElement_eq {build : Build} {fuel : Nat} {documentId : String} {scan : AxScan}
    {ids : List (String × String)} {index : Nat} {node : AxSelected} (small : index < 4096)
    (known : (ids.lookup node.rawId).isSome = true) :
    (axElement build fuel documentId scan ids index node).run =
      ((skipUnselected scan.parents (scan.selected.map (·.rawId)) fuel
        (scan.parents.lookup node.rawId)).map (nodeOf build documentId ids index node)).map .ok := by
  obtain ⟨elementId, found⟩ := Option.isSome_iff_exists.mp known
  have tag : semanticTag index = .ok ("e" ++ toString index) := by
    rw [semanticTag, if_neg (by rw [maxSemanticElements]; omega)]
    rfl
  unfold axElement
  cases skipped : skipUnselected scan.parents (scan.selected.map (·.rawId)) fuel
      (scan.parents.lookup node.rawId) with
  | none => rfl
  | some parent =>
    simp only [found, tag, Option.map_some, nodeOf, Option.getD_some]
    rfl

theorem lift_ok {α β ε : Type} {value : α} {f : α → ExceptT ε Option β} :
    (ExceptT.mk (some (.ok value)) >>= f) = f value := rfl

theorem mapM_lifted {α β ε : Type} {items : List α} {f : α → ExceptT ε Option β} {g : α → Option β}
    (same : ∀ a ∈ items, (f a).run = (g a).map Except.ok) :
    (items.mapM f).run = (items.mapM g).map Except.ok := by
  induction items with
  | nil => rfl
  | cons a items ih =>
    have first := same a List.mem_cons_self
    have rest := ih fun b member => same b (List.mem_cons_of_mem _ member)
    rw [List.mapM_cons, List.mapM_cons]
    cases found : g a with
    | none =>
      rw [found] at first
      simp [ExceptT.run_bind, first]
    | some b =>
      rw [found] at first
      cases more : items.mapM g <;> rw [more] at rest <;> simp [ExceptT.run_bind, first, rest, Except.map]

theorem mapM_isSome {α β : Type} {items : List α} {g : α → Option β} :
    (items.mapM g).isSome = true ↔ ∀ a ∈ items, (g a).isSome = true := by
  induction items with
  | nil => simp
  | cons a items ih =>
    rw [List.mapM_cons, List.forall_mem_cons, ← ih]
    cases g a <;> cases items.mapM g <;> simp

theorem mapM_some {α β : Type} {items : List α} {found : List β} {g : α → Option β} :
    items.mapM g = some found ↔ List.Forall₂ (fun a b => g a = some b) items found := by
  induction items generalizing found with
  | nil => cases found <;> simp
  | cons a items ih =>
    rw [List.mapM_cons]
    cases first : g a with
    | none =>
      refine ⟨fun none => by simp at none, fun all => ?_⟩
      cases all with
      | cons head _ => rw [first] at head; contradiction
    | some b =>
      cases found with
      | nil =>
        cases more : items.mapM g <;> simp
      | cons b' found =>
        rw [List.forall₂_cons, ← ih, first]
        cases more : items.mapM g <;> simp

/-! ### When the parse comes to an end -/

/-- The nodes of a tree that the first pass accepts, and that can be given identifiers. -/
structure Parses (roots : List UInt64) (tree : Json) (observationId : String) (nodes : List Json) :
    Prop where
  listed : (tree.get? "nodes").bind asArray = some nodes
  few : nodes.length ≤ maxSemanticElements
  accepts : Accepts roots nodes
  identified : semanticHash observationId = true ∨ nodes.filterMap (selectedOf roots) = []

/-- The identifiers of the nodes that become elements. -/
def elementNodeIds (roots : List UInt64) (nodes : List Json) : List String :=
  (nodes.filterMap (selectedOf roots)).map (·.rawId)

/-- The identifiers of the elements by those of their nodes, the last one first. -/
def elementIds (build : Build) (observationId : String) (roots : List UInt64) (nodes : List Json) :
    List (String × String) :=
  ((nodes.filterMap (selectedOf roots)).map fun node =>
    (node.rawId, elementIdOf build observationId node.backendNodeId)).reverse

section

variable {build : Build} {tree : Json} {observationId documentId : String} {roots : List UInt64}
  {nodes : List Json} {fuel : Nat}

theorem elementIds_known {node : AxSelected} (member : node ∈ nodes.filterMap (selectedOf roots)) :
    ((elementIds build observationId roots nodes).lookup node.rawId).isSome = true := by
  refine List.lookup_isSome_iff.mpr
    ⟨(node.rawId, elementIdOf build observationId node.backendNodeId), ?_, beq_self_eq_true _⟩
  exact List.mem_reverse.mpr (List.mem_map_of_mem member)

/-- Once the nodes are accepted, the loops are all that may keep the parse from its end. -/
theorem parse_run (parses : Parses roots tree observationId nodes) :
    (parseAxTree build fuel tree observationId documentId roots).run =
      ((nodes.filterMap (selectedOf roots)).zipIdx.mapM fun p =>
        (skipUnselected (nodes.filterMap parentEntry).reverse (elementNodeIds roots nodes) fuel
          (parentOf nodes p.1.rawId)).map
          (nodeOf build documentId (elementIds build observationId roots nodes) p.2 p.1)).map
        fun found => .ok (found.map (·.element), found.foldl insertNode []) := by
  have scanned := scan_ok.mpr ⟨parses.accepts, rfl⟩
  have ids : opaqueIds build observationId (scanOf roots nodes).selected =
      .ok (elementIds build observationId roots nodes) := by
    have valid : (semanticHash observationId ||
        (nodes.filterMap (selectedOf roots)).isEmpty) = true := by
      rcases parses.identified with valid | empty
      · rw [valid, Bool.true_or]
      · rw [empty]
        simp
    rw [opaqueIds_eq, scanOf, if_pos valid]
    rfl
  have each : ((scanOf roots nodes).selected.zipIdx.mapM fun p =>
      axElement build fuel documentId (scanOf roots nodes)
        (elementIds build observationId roots nodes) p.2 p.1).run =
      ((scanOf roots nodes).selected.zipIdx.mapM fun p =>
        (skipUnselected (nodes.filterMap parentEntry).reverse (elementNodeIds roots nodes) fuel
          (parentOf nodes p.1.rawId)).map
          (nodeOf build documentId (elementIds build observationId roots nodes) p.2 p.1)).map .ok := by
    refine mapM_lifted ?_
    rintro ⟨node, index⟩ member
    have inside := List.mem_zipIdx' member
    have few : (scanOf roots nodes).selected.length ≤ nodes.length := List.length_filterMap_le ..
    refine axElement_eq ?_ (elementIds_known ?_)
    · have := parses.few
      rw [maxSemanticElements] at this
      omega
    · rw [inside.2]
      exact List.getElem_mem _
  unfold parseAxTree
  rw [parses.listed]
  dsimp only
  rw [if_neg (Nat.not_lt.mpr parses.few), scanned, lift_ok, ids, lift_ok, ExceptT.run_bind, each]
  rw [scanOf]
  cases (nodes.filterMap (selectedOf roots)).zipIdx.mapM fun p =>
    (skipUnselected (nodes.filterMap parentEntry).reverse (elementNodeIds roots nodes) fuel
      (parentOf nodes p.1.rawId)).map
      (nodeOf build documentId (elementIds build observationId roots nodes) p.2 p.1) <;> rfl

/-- What is refused is refused before any loop. -/
theorem parse_refused (refused : ∀ nodes, ¬ Parses roots tree observationId nodes) :
    ∃ e, (parseAxTree build fuel tree observationId documentId roots).run = some (.error e) := by
  unfold parseAxTree
  cases listed : (tree.get? "nodes").bind asArray with
  | none => exact ⟨_, rfl⟩
  | some nodes =>
    dsimp only
    split
    · exact ⟨_, rfl⟩
    next few =>
      cases scanned : nodes.foldlM (scanNode roots) .empty with
      | error e => exact ⟨e, rfl⟩
      | ok scan =>
        obtain ⟨accepts, rfl⟩ := scan_ok.mp scanned
        have unidentified : ¬ (semanticHash observationId ||
            (scanOf roots nodes).selected.isEmpty) = true := by
          rw [Bool.or_eq_true, List.isEmpty_iff]
          exact fun identified => refused nodes ⟨listed, Nat.not_lt.mp few, accepts, identified⟩
        rw [lift_ok, opaqueIds_eq, if_neg unidentified]
        exact ⟨_, rfl⟩

/-- Once the nodes are accepted, the parse comes to an end if and only if all loops do. -/
theorem parse_ends (parses : Parses roots tree observationId nodes) :
    (∃ fuel, (parseAxTree build fuel tree observationId documentId roots).run.isSome = true) ↔
      ∀ node ∈ nodes.filterMap (selectedOf roots),
        Ascent.Ends (stepUp (nodes.filterMap parentEntry).reverse (elementNodeIds roots nodes))
          (parentOf nodes node.rawId) := by
  simp only [parse_run parses, Option.isSome_map, mapM_isSome]
  constructor
  · rintro ⟨fuel, ended⟩ node member
    obtain ⟨index, inside, rfl⟩ := List.mem_iff_getElem.mp member
    refine skip_ends.mp ⟨fuel, ?_⟩
    exact ended (_, index) (List.mk_mem_zipIdx_iff_getElem?.mpr (List.getElem?_eq_getElem inside))
  · intro ends
    obtain ⟨fuel, enough⟩ : ∃ fuel, ∀ node ∈ nodes.filterMap (selectedOf roots),
        (skipUnselected (nodes.filterMap parentEntry).reverse (elementNodeIds roots nodes) fuel
          (parentOf nodes node.rawId)).isSome = true := by
      -- as many rounds as the longest of the loops needs
      generalize nodes.filterMap (selectedOf roots) = selected at ends
      induction selected with
      | nil => exact ⟨0, fun _ member => absurd member List.not_mem_nil⟩
      | cons node selected ih =>
        obtain ⟨first, ended⟩ := skip_ends.mpr (ends node List.mem_cons_self)
        obtain ⟨rest, enough⟩ := ih fun other member => ends other (List.mem_cons_of_mem _ member)
        refine ⟨max first rest, fun other member => ?_⟩
        rcases List.mem_cons.mp member with rfl | member
        · exact skip_isSome (Nat.le_max_left ..) ended
        · exact skip_isSome (Nat.le_max_right ..) (enough other member)
    refine ⟨fuel, ?_⟩
    rintro ⟨node, index⟩ member
    refine enough node ?_
    rw [(List.mem_zipIdx' member).2]
    exact List.getElem_mem _

/-- The nodes are accepted, and an element has above it, only through identifiers that are not
of elements, one that is above itself. -/
def Endless (roots : List UInt64) (tree : Json) (observationId : String) : Prop :=
  ∃ nodes, Parses roots tree observationId nodes ∧ ∃ raw ∈ nodes, ∃ id, isElement roots raw = true ∧
    nodeId raw = some id ∧
    Ascent.Circles (stepUp (nodes.filterMap parentEntry).reverse (elementNodeIds roots nodes))
      (parentOf nodes id)

/-- An accepted node of the document that has a role is selected, and no other. -/
theorem selectedOf_iff {raw : Json} {node : AxSelected} : selectedOf roots raw = some node ↔ isElement roots raw = true ∧
      ∃ role, nodeId raw = some node.rawId ∧ backendId raw = some node.backendNodeId ∧
        axRole raw = some role ∧ node.semantics = axSemanticsOf raw role := by
  obtain ⟨rawId, b, semantics⟩ := node
  unfold selectedOf
  cases named : nodeId raw with
  | none => simp
  | some rawId' =>
    cases backend : backendId raw with
    | none => simp
    | some b' =>
      cases found : axRole raw with
      | none => simp
      | some role' =>
        by_cases element : isElement roots raw = true
        · simp [element, eq_comm]
        · simp [element]

theorem selectedOf_isSome (accepts : Accepts roots nodes) {raw : Json} (member : raw ∈ nodes) :
    (selectedOf roots raw).isSome = isElement roots raw := by
  obtain ⟨id, named⟩ := Option.isSome_iff_exists.mp (accepts.named raw member)
  cases backend : backendId raw with
  | none => simp [selectedOf, isElement, inRoot, named, backend]
  | some b =>
    cases found : axRole raw with
    | none => simp [selectedOf, isElement, named, backend, found]
    | some role =>
      cases element : isElement roots raw <;> simp [selectedOf, named, backend, found, element]

theorem endless_node (accepts : Accepts roots nodes) {P : String → Prop} :
    (∃ raw ∈ nodes, ∃ id, isElement roots raw = true ∧ nodeId raw = some id ∧ P id) ↔
      ∃ node ∈ nodes.filterMap (selectedOf roots), P node.rawId := by
  constructor
  · rintro ⟨raw, member, id, element, named, holds⟩
    rw [← selectedOf_isSome accepts member] at element
    obtain ⟨node, selected⟩ := Option.isSome_iff_exists.mp element
    obtain ⟨_, _, same, _⟩ := selectedOf_iff.mp selected
    obtain rfl := Option.some.inj (named.symm.trans same)
    exact ⟨node, List.mem_filterMap.mpr ⟨raw, member, selected⟩, holds⟩
  · rintro ⟨node, selected, holds⟩
    obtain ⟨raw, member, selected⟩ := List.mem_filterMap.mp selected
    obtain ⟨element, _, named, _⟩ := selectedOf_iff.mp selected
    exact ⟨raw, member, node.rawId, element, named, holds⟩

/-- Only finitely many identifiers have parents. -/
theorem stepUp_within {parents : List (String × String)} {selectedIds : List String} {a b : String}
    (above : stepUp parents selectedIds a = some b) : a ∈ (parents.map Prod.fst).toFinset := by
  unfold stepUp at above
  split at above
  · cases above
  · rw [List.mem_toFinset]
    by_contra unknown
    have missing : parents.lookup a = none := by
      refine List.lookup_eq_none_iff.mpr fun pair member => ?_
      rw [bne_iff_ne]
      rintro rfl
      exact unknown (List.mem_map_of_mem member)
    rw [missing] at above
    cases above

theorem ends_iff_unendless (parses : Parses roots tree observationId nodes) :
    (∃ fuel, (parseAxTree build fuel tree observationId documentId roots).run.isSome = true) ↔
      ¬ ∃ raw ∈ nodes, ∃ id, isElement roots raw = true ∧ nodeId raw = some id ∧
        Ascent.Circles (stepUp (nodes.filterMap parentEntry).reverse (elementNodeIds roots nodes))
          (parentOf nodes id) := by
  rw [parse_ends parses, endless_node parses.accepts]
  push Not
  refine forall₂_congr fun node _ => ?_
  exact Ascent.ends_iff fun _ _ above => stepUp_within above

/-- **When the parse comes to an end**: exactly if it is not endless. -/
theorem parse_returns_iff (build : Build) (tree : Json) (observationId documentId : String)
    (roots : List UInt64) :
    (∃ fuel result, (parseAxTree build fuel tree observationId documentId roots).run = some result) ↔
      ¬ Endless roots tree observationId := by
  simp only [← Option.isSome_iff_exists]
  by_cases parses : ∃ nodes, Parses roots tree observationId nodes
  · obtain ⟨nodes, parses⟩ := parses
    rw [ends_iff_unendless parses]
    refine not_congr ⟨fun endless => ⟨nodes, parses, endless⟩, ?_⟩
    rintro ⟨nodes', parses', endless⟩
    obtain rfl := Option.some.inj (parses.listed.symm.trans parses'.listed)
    exact endless
  · have none : ∀ nodes, ¬ Parses roots tree observationId nodes := not_exists.mp parses
    obtain ⟨e, refused⟩ := @parse_refused build tree observationId documentId roots 0 none
    refine ⟨fun _ => ?_, fun _ => ⟨0, by rw [refused]; rfl⟩⟩
    rintro ⟨nodes, found, _⟩
    exact none nodes found

end

/-! ### A tree that is never parsed -/

/-- A button below an ignored node that is its own parent. -/
def loopingNodes : List Json := [
  .obj [("nodeId", .str "1"), ("parentId", .str "2"), ("backendDOMNodeId", .int ⟨1, by decide, by decide⟩),
    ("role", .obj [("value", .str "button")])],
  .obj [("nodeId", .str "2"), ("parentId", .str "2"), ("ignored", .bool true)]]

def loopingTree : Json := .obj [("nodes", .arr loopingNodes)]

theorem looping_endless : Endless [1] loopingTree ("".pushn 'e' 64) := by
  have accepts : Accepts [1] loopingNodes := by
    constructor
    · decide +kernel
    · decide +kernel
    · decide +kernel
    · decide +kernel
  refine ⟨loopingNodes, ⟨rfl, by decide, accepts, .inl (by decide +kernel)⟩, _,
    List.mem_cons_self, "1", by decide +kernel, rfl, "2", 0, 0, ?_, ?_⟩
  · decide +kernel
  · decide +kernel

/-- The parse of the tree does not come to an end, however long it runs. -/
theorem parse_loops : ¬ ∀ (build : Build) (tree : Json) (observationId documentId : String)
    (roots : List UInt64), ∃ fuel result,
      (parseAxTree build fuel tree observationId documentId roots).run = some result := by
  intro returns
  obtain ⟨fuel, result, returned⟩ := returns ⟨false, Sha256.sha256⟩ loopingTree ("".pushn 'e' 64) "" [1]
  obtain ⟨nodes, parses, endless⟩ := looping_endless
  exact (@ends_iff_unendless ⟨false, Sha256.sha256⟩ _ _ "" _ _ parses).mp ⟨fuel, by rw [returned]; rfl⟩ endless

end Praefectus.Cdp
