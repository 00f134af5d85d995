import Praefectus.Protocol.Request

/-!
# Bounds on an expected state

The walk over an expected state takes nodes from a stack and counts as it goes. Its
answer is what the nodes of the value, their depths and their bytes say, whichever node
is taken first and however the members of an object are written.
-/

namespace Praefectus

/-! ### The nodes of a value -/

mutual

/-- Every node of the value, with its depth. -/
def nodesAt (depth : Nat) : Json → List (Json × Nat)
  | .arr items => (.arr items, depth) :: nodesAtItems (depth + 1) items
  | .obj members => (.obj members, depth) :: nodesAtMembers (depth + 1) members
  | leaf => [(leaf, depth)]

def nodesAtItems (depth : Nat) : List Json → List (Json × Nat)
  | [] => []
  | item :: items => nodesAt depth item ++ nodesAtItems depth items

def nodesAtMembers (depth : Nat) : List (String × Json) → List (Json × Nat)
  | [] => []
  | (_, value) :: members => nodesAt depth value ++ nodesAtMembers depth members

end

theorem nodesAtItems_eq (depth : Nat) (items : List Json) :
    nodesAtItems depth items = items.flatMap (nodesAt depth) := by
  induction items with
  | nil => rfl
  | cons item items ih => rw [nodesAtItems, ih, List.flatMap_cons]

theorem nodesAtMembers_eq (depth : Nat) (members : List (String × Json)) :
    nodesAtMembers depth members = members.flatMap fun member => nodesAt depth member.2 := by
  induction members with
  | nil => rfl
  | cons member members ih => rw [nodesAtMembers, ih, List.flatMap_cons]

/-- The nodes of several values. -/
def allNodes (pending : List (Json × Nat)) : List (Json × Nat) :=
  pending.flatMap fun node => nodesAt node.2 node.1

theorem allNodes_perm {pending other : List (Json × Nat)} (perm : pending.Perm other) :
    (allNodes pending).Perm (allNodes other) :=
  perm.flatMap_right _

theorem allNodes_append (pending other : List (Json × Nat)) :
    allNodes (pending ++ other) = allNodes pending ++ allNodes other := List.flatMap_append

/-- A node, and the nodes below it. -/
theorem nodesAt_children (depth : Nat) (value : Json) :
    (nodesAt depth value).Perm
      ((value, depth) :: allNodes ((nodeChildren value).map (·, depth + 1))) := by
  cases value with
  | arr items =>
    rw [nodesAt, nodesAtItems_eq]
    refine .cons _ ?_
    rw [allNodes, List.flatMap_map, nodeChildren]
    exact (items.reverse_perm.flatMap_right _).symm
  | obj members =>
    rw [nodesAt, nodesAtMembers_eq]
    refine .cons _ ?_
    rw [allNodes, List.flatMap_map, nodeChildren, ← List.map_reverse, List.flatMap_map]
    exact (members.reverse_perm.flatMap_right _).symm
  | _ => exact .refl _

/-! ### The bounds -/

/-- The bytes of these nodes: their strings, keys and printed numbers. -/
def bytesOf (nodes : List (Json × Nat)) : Nat := (nodes.map fun node => nodeCost node.1).sum

/-- At most so many nodes, none too deep, and at most so many bytes with those counted before. -/
structure Fits (remaining : Nat) (nodes : List (Json × Nat)) (bytes : Nat) : Prop where
  few : nodes.length ≤ remaining
  shallow : ∀ node ∈ nodes, node.2 ≤ maxVerificationJsonDepth
  short : bytes + bytesOf nodes ≤ maxVerificationJsonBytes

theorem bytesOf_perm {nodes other : List (Json × Nat)} (perm : nodes.Perm other) :
    bytesOf nodes = bytesOf other := (perm.map _).sum_nat

theorem fits_perm {remaining bytes : Nat} {nodes other : List (Json × Nat)}
    (perm : nodes.Perm other) : Fits remaining nodes bytes ↔ Fits remaining other bytes := by
  constructor
  · rintro ⟨few, shallow, short⟩
    rw [bytesOf_perm perm] at short
    exact ⟨perm.length_eq ▸ few, fun node member => shallow node (perm.mem_iff.mpr member), short⟩
  · rintro ⟨few, shallow, short⟩
    rw [← bytesOf_perm perm] at short
    exact ⟨perm.length_eq ▸ few, fun node member => shallow node (perm.mem_iff.mp member), short⟩

theorem fits_cons {remaining bytes depth : Nat} {value : Json} {nodes : List (Json × Nat)} :
    Fits (remaining + 1) ((value, depth) :: nodes) bytes ↔
      (depth ≤ maxVerificationJsonDepth ∧ bytes + nodeCost value ≤ maxVerificationJsonBytes) ∧
        Fits remaining nodes (bytes + nodeCost value) := by
  have total : bytesOf ((value, depth) :: nodes) = nodeCost value + bytesOf nodes :=
    List.sum_cons
  constructor
  · rintro ⟨few, shallow, short⟩
    obtain ⟨here, below⟩ := List.forall_mem_cons.mp shallow
    rw [total, ← Nat.add_assoc] at short
    exact ⟨⟨here, Nat.le_of_add_right_le short⟩, Nat.le_of_succ_le_succ few, below, short⟩
  · rintro ⟨⟨here, _⟩, few, below, short⟩
    refine ⟨Nat.succ_le_succ few, List.forall_mem_cons.mpr ⟨here, below⟩, ?_⟩
    rw [total, ← Nat.add_assoc]
    exact short

/-- What one node leaves to be checked. -/
theorem fits_take {remaining bytes depth : Nat} {value : Json} {pending rest : List (Json × Nat)}
    (perm : pending.Perm ((value, depth) :: rest)) :
    Fits (remaining + 1) (allNodes pending) bytes ↔
      (depth ≤ maxVerificationJsonDepth ∧ bytes + nodeCost value ≤ maxVerificationJsonBytes) ∧
        Fits remaining (allNodes ((nodeChildren value).map (·, depth + 1) ++ rest))
          (bytes + nodeCost value) := by
  have split : (allNodes pending).Perm
      ((value, depth) :: allNodes ((nodeChildren value).map (·, depth + 1) ++ rest)) := by
    refine (allNodes_perm perm).trans ?_
    rw [allNodes_append]
    exact (nodesAt_children depth value).append_right _
  rw [fits_perm split, fits_cons]

/-! ### The walk -/

/-- A walk that takes the pending nodes in any order, and its answer. -/
inductive Walks : Nat → List (Json × Nat) → Nat → Bool → Prop where
  | ended {remaining bytes : Nat} : Walks remaining [] bytes true
  | exhausted {node : Json × Nat} {rest : List (Json × Nat)} {bytes : Nat} :
      Walks 0 (node :: rest) bytes false
  | refused {remaining bytes depth : Nat} {value : Json} {pending rest : List (Json × Nat)} :
      pending.Perm ((value, depth) :: rest) →
      ¬ (depth ≤ maxVerificationJsonDepth ∧ bytes + nodeCost value ≤ maxVerificationJsonBytes) →
      Walks (remaining + 1) pending bytes false
  | taken {remaining bytes depth : Nat} {value : Json} {pending rest : List (Json × Nat)}
      {answer : Bool} :
      pending.Perm ((value, depth) :: rest) →
      depth ≤ maxVerificationJsonDepth ∧ bytes + nodeCost value ≤ maxVerificationJsonBytes →
      Walks remaining ((nodeChildren value).map (·, depth + 1) ++ rest) (bytes + nodeCost value)
        answer →
      Walks (remaining + 1) pending bytes answer

theorem allNodes_cons_pos (node : Json × Nat) (rest : List (Json × Nat)) :
    0 < (allNodes (node :: rest)).length := by
  rw [(allNodes_perm (.refl (node :: rest))).length_eq, allNodes, List.flatMap_cons,
    List.length_append, (nodesAt_children node.2 node.1).length_eq]
  exact Nat.lt_of_lt_of_le (Nat.succ_pos _) (Nat.le_add_right _ _)

/-- Whatever the order, the answer is whether the pending nodes and those below them fit. -/
theorem walks_answer {remaining bytes : Nat} {pending : List (Json × Nat)} {answer : Bool}
    (walks : Walks remaining pending bytes answer) (within : bytes ≤ maxVerificationJsonBytes) :
    answer = true ↔ Fits remaining (allNodes pending) bytes := by
  induction walks with
  | ended => exact iff_of_true rfl ⟨Nat.zero_le _, nofun, within⟩
  | exhausted =>
    refine iff_of_false nofun fun fits => ?_
    exact absurd (allNodes_cons_pos _ _) (Nat.not_lt_of_le fits.few)
  | refused perm outside =>
    exact iff_of_false nofun fun fits => outside ((fits_take perm).mp fits).1
  | taken perm inside _ ih => rw [ih inside.2, fits_take perm, and_iff_right inside]

/-- The stack is one of the orders. -/
theorem walks_walk (remaining bytes : Nat) (pending : List (Json × Nat)) :
    Walks remaining pending bytes (walkVerification remaining pending bytes) := by
  induction remaining generalizing pending bytes with
  | zero =>
    cases pending with
    | nil => exact .ended
    | cons => exact .exhausted
  | succ remaining ih =>
    cases pending with
    | nil => exact .ended
    | cons node rest =>
      obtain ⟨value, depth⟩ := node
      rw [walkVerification, ← Bool.decide_and]
      by_cases inside : depth ≤ maxVerificationJsonDepth ∧
          bytes + nodeCost value ≤ maxVerificationJsonBytes
      · rw [decide_eq_true inside, Bool.true_and]
        exact .taken (.refl _) inside (ih _ _)
      · rw [decide_eq_false inside, Bool.false_and]
        exact .refused (.refl _) inside

/-! ### The order of members -/

/-- What the walk looks at in a node. -/
def measures (depth : Nat) (value : Json) : List (Nat × Nat) :=
  (nodesAt depth value).map fun node => (node.2, nodeCost node.1)

theorem measures_children (depth : Nat) (value : Json) :
    (measures depth value).Perm
      ((depth, nodeCost value) :: (nodeChildren value).flatMap (measures (depth + 1))) := by
  refine ((nodesAt_children depth value).map _).trans ?_
  rw [List.map_cons, allNodes, List.flatMap_map, List.map_flatMap]
  exact .refl _

/-- Values with the same costs, whose children measure the same one by one. -/
theorem measures_congr {depth : Nat} {i j : Json} (cost : nodeCost i = nodeCost j)
    (children : ((nodeChildren i).flatMap (measures (depth + 1))).Perm
      ((nodeChildren j).flatMap (measures (depth + 1)))) :
    (measures depth i).Perm (measures depth j) := by
  refine (measures_children depth i).trans (.trans ?_ (measures_children depth j).symm)
  rw [cost]
  exact .cons _ children

theorem measures_reordered {i j : Json} (same : Json.Reordered i j) (depth : Nat) :
    (measures depth i).Perm (measures depth j) := by
  induction same generalizing depth with
  | refl => exact .refl _
  | symm _ ih => exact (ih depth).symm
  | trans _ _ first second => exact (first depth).trans (second depth)
  | members perm =>
    refine measures_congr (perm.map _).sum_nat (List.Perm.flatMap_right _ ?_)
    exact (List.reverse_perm _).trans ((perm.map _).trans (List.reverse_perm _).symm)
  | @item left right i j _ ih =>
    refine measures_congr rfl ?_
    simp only [nodeChildren, List.reverse_append, List.reverse_cons, List.flatMap_append,
      List.flatMap_cons, List.flatMap_nil]
    exact (((ih (depth + 1)).append_right _).append_left _).append_right _
  | @member left right key i j _ ih =>
    refine measures_congr ?_ ?_
    · simp only [nodeCost, List.map_append, List.map_cons]
    · simp only [nodeChildren, List.map_append, List.map_cons, List.reverse_append,
        List.reverse_cons, List.flatMap_append, List.flatMap_cons, List.flatMap_nil]
      exact (((ih (depth + 1)).append_right _).append_left _).append_right _

/-! ### The verdict -/

/-- The expected state as a whole. -/
def WithinBounds (expected : Json) : Prop :=
  (nodesAt 0 expected).length ≤ maxVerificationJsonNodes ∧
    (∀ node ∈ nodesAt 0 expected, node.2 ≤ maxVerificationJsonDepth) ∧
    bytesOf (nodesAt 0 expected) ≤ maxVerificationJsonBytes

theorem fits_whole (expected : Json) :
    Fits maxVerificationJsonNodes (allNodes [(expected, 0)]) 0 ↔ WithinBounds expected := by
  rw [allNodes, List.flatMap_cons, List.flatMap_nil, List.append_nil]
  constructor
  · rintro ⟨few, shallow, short⟩
    rw [Nat.zero_add] at short
    exact ⟨few, shallow, short⟩
  · rintro ⟨few, shallow, short⟩
    rw [← Nat.zero_add (bytesOf _)] at short
    exact ⟨few, shallow, short⟩

theorem withinBounds_iff (expected : Json) :
    WithinBounds expected ↔
      (measures 0 expected).length ≤ maxVerificationJsonNodes ∧
        (∀ measure ∈ measures 0 expected, measure.1 ≤ maxVerificationJsonDepth) ∧
        ((measures 0 expected).map Prod.snd).sum ≤ maxVerificationJsonBytes := by
  rw [WithinBounds, measures, List.length_map, List.forall_mem_map, List.map_map]
  rfl

theorem withinBounds_reordered {i j : Json} (same : Json.Reordered i j) :
    WithinBounds i ↔ WithinBounds j := by
  have perm := measures_reordered same 0
  rw [withinBounds_iff, withinBounds_iff, perm.length_eq, (perm.map Prod.snd).sum_nat]
  simp only [perm.mem_iff]

theorem validate_walk (expected : Value) :
    validateVerification (.targetState expected) =
      if walkVerification maxVerificationJsonNodes [(expected.json, 0)] 0 = true then .ok ()
      else .error (.invalidRequest "verification state is too large") := rfl

theorem walk_within (expected : Json) :
    walkVerification maxVerificationJsonNodes [(expected, 0)] 0 = true ↔ WithinBounds expected :=
  (walks_answer (walks_walk _ _ _) (Nat.zero_le _)).trans (fits_whole expected)

theorem validate_within (expected : Value) :
    validateVerification (.targetState expected) = .ok () ↔ WithinBounds expected.json := by
  rw [validate_walk, ← walk_within]
  split
  next fits => exact iff_of_true rfl fits
  next outside => exact iff_of_false nofun outside

/-- The bounds on an expected state are exact, whatever the order of the walk or of members. -/
theorem verification_bounds_exact (expected : Value) :
    (validateVerification (.targetState expected) = .ok () ↔ WithinBounds expected.json) ∧
    (∀ answer, Walks maxVerificationJsonNodes [(expected.json, 0)] 0 answer →
      (answer = true ↔ validateVerification (.targetState expected) = .ok ())) ∧
    ∀ other : Value, expected.json.Reordered other.json →
      validateVerification (.targetState expected) =
        validateVerification (.targetState other) := by
  refine ⟨validate_within expected, fun answer walks => ?_, fun other same => ?_⟩
  · rw [validate_within, ← fits_whole]
    exact walks_answer walks (Nat.zero_le _)
  · have agree := withinBounds_reordered same
    rw [← walk_within, ← walk_within] at agree
    simp only [validate_walk, agree]

/-- An object with its members written in two orders, and a walk over it. -/
theorem verification_bounds_exact_swapped :
    validateVerification (.targetState ⟨.null, rfl⟩) = .ok () ∧
    validateVerification (.targetState ⟨.obj [("a", .null), ("b", .bool true)], by decide⟩) =
      validateVerification (.targetState ⟨.obj [("b", .bool true), ("a", .null)], by decide⟩) :=
  ⟨((verification_bounds_exact ⟨.null, rfl⟩).2.1 true
      (walks_walk maxVerificationJsonNodes 0 [(.null, 0)])).mp rfl,
    (verification_bounds_exact ⟨.obj [("a", .null), ("b", .bool true)], by decide⟩).2.2
      ⟨.obj [("b", .bool true), ("a", .null)], by decide⟩ (.members (.swap _ _ _))⟩

end Praefectus
