import Praefectus.Program.Ascents
import Praefectus.Semantic.Fence

/-!
# Observations that are forests

A list of elements is accepted exactly if it is a forest of valid elements that are told
apart. The loop over the ancestors of an element ends on every list, also on one with
circles, since it stops where it comes to an identifier twice.
-/

namespace Praefectus

open Relation

/-! ### The loop over the ancestors -/

/-- The parent of the element of an identifier. -/
def Mapping.parent (elements : Mapping) (id : String) : Option String :=
  (elements.get id).bind (·.parentId)

/-- The loop over the ancestors, round by round, without a bound: it has seen some
identifiers, is at another, and says in the end whether it came to one twice. -/
inductive AncestorLoop (elements : Mapping) : List String → Option String → Bool → Prop where
  | top {seen : List String} : AncestorLoop elements seen none false
  | again {seen : List String} {id : String} : id ∈ seen → AncestorLoop elements seen (some id) true
  | on {seen : List String} {id : String} {found : Bool} : id ∉ seen →
      AncestorLoop elements (id :: seen) (elements.parent id) found →
      AncestorLoop elements seen (some id) found

section

variable {elements : Mapping}

/-- An identifier with a parent is that of an element. -/
theorem parent_mem {id parent : String} (above : elements.parent id = some parent) :
    id ∈ elements.map (·.elementId) := by
  obtain ⟨element, found, _⟩ := Option.bind_eq_some_iff.mp above
  have named : element.elementId = id := by simpa using List.find?_some found
  exact named ▸ List.mem_map_of_mem (List.mem_of_find?_eq_some found)

/-- **The loop ends on every list**, and says what the bounded one does. -/
theorem ancestorLoop_revisits {seen : List String} {next : Option String} {fuel : Nat}
    (distinct : seen.Nodup) (known : next.isSome → ∀ id ∈ seen, id ∈ elements.map (·.elementId))
    (enough : elements.length + 1 ≤ seen.length + fuel) :
    AncestorLoop elements seen next (revisits elements fuel seen next) := by
  induction fuel generalizing seen next with
  | zero =>
    cases next with
    | none => exact .top
    | some id =>
      -- more identifiers seen than there are elements
      have few := (List.subperm_of_subset distinct (known rfl)).length_le
      rw [List.length_map] at few
      omega
  | succ fuel ih =>
    cases next with
    | none => exact .top
    | some id =>
      rw [revisits]
      by_cases passed : id ∈ seen
      · have contained : seen.contains id = true := by simpa using passed
        rw [contained]
        exact .again passed
      · have contained : seen.contains id = false := by simpa using passed
        rw [contained, Bool.false_or]
        refine .on passed (ih (List.nodup_cons.mpr ⟨passed, distinct⟩) ?_ ?_)
        · intro goes other member
          obtain ⟨parent, above⟩ := Option.isSome_iff_exists.mp goes
          rcases List.mem_cons.mp member with rfl | member
          · exact parent_mem above
          · exact known rfl other member
        · rw [List.length_cons]
          omega

theorem ancestorLoop_ends (elements : Mapping) (next : Option String) :
    AncestorLoop elements [] next (revisits elements (elements.length + 2) [] next) :=
  ancestorLoop_revisits List.nodup_nil (fun _ _ none => absurd none List.not_mem_nil) (by simp)

/-- Seen are identifiers from which the way led here, one after the other. -/
def Leads (elements : Mapping) (start : Option String) (seen : List String) (next : Option String) :
    Prop :=
  Ascent.climb elements.parent seen.length start = next ∧
    ∀ id ∈ seen, ∃ n, n < seen.length ∧ Ascent.climb elements.parent n start = some id

theorem leads_on {start : Option String} {seen : List String} {id : String}
    (leads : Leads elements start seen (some id)) :
    Leads elements start (id :: seen) (elements.parent id) := by
  obtain ⟨here, earlier⟩ := leads
  refine ⟨?_, ?_⟩
  · rw [List.length_cons, Ascent.climb_succ, here]
    rfl
  · intro other member
    rcases List.mem_cons.mp member with rfl | member
    · exact ⟨seen.length, Nat.lt_succ_self _, here⟩
    · obtain ⟨n, before, place⟩ := earlier other member
      exact ⟨n, Nat.lt_succ_of_lt before, place⟩

/-- It comes to an identifier twice exactly where the way up comes to a circle. -/
theorem ancestorLoop_circles {start : Option String} {seen : List String} {next : Option String}
    {found : Bool} (loop : AncestorLoop elements seen next found)
    (leads : Leads elements start seen next) :
    found = true ↔ Ascent.Circles elements.parent start := by
  induction loop with
  | top =>
    refine ⟨fun none => absurd none Bool.false_ne_true, fun circles => ?_⟩
    exact absurd ⟨_, leads.1⟩ (Ascent.not_ends_of_circles circles)
  | again passed =>
    refine ⟨fun _ => ?_, fun _ => rfl⟩
    obtain ⟨n, before, place⟩ := leads.2 _ passed
    exact Ascent.circles_of_repeat before place leads.1
  | on _ _ ih => exact ih (leads_on leads)

theorem revisits_circles (start : Option String) :
    revisits elements (elements.length + 2) [] start = true ↔
      Ascent.Circles elements.parent start :=
  ancestorLoop_circles (ancestorLoop_ends elements start)
    ⟨rfl, fun _ none => absurd none List.not_mem_nil⟩

end

/-! ### Forests -/

/-- The second element is the parent of the first. -/
def IsParent (elements : List SemanticElement) (child parent : SemanticElement) : Prop :=
  child ∈ elements ∧ parent ∈ elements ∧ child.parentId = some parent.elementId

/-- Valid elements that are told apart, with parents among themselves and no circle. -/
structure ValidForest (elements : List SemanticElement) : Prop where
  valid : ∀ element ∈ elements, validElement element = true
  tags : (elements.map (·.tag)).Nodup
  ids : (elements.map (·.elementId)).Nodup
  parents : ∀ element ∈ elements, ∀ id, element.parentId = some id →
    ∃ parent ∈ elements, parent.elementId = id
  acyclic : ∀ element, ¬ TransGen (IsParent elements) element element

section

variable {elements : List SemanticElement}

/-- Told apart, elements are got by their identifiers. -/
theorem get_iff (distinct : (elements.map (·.elementId)).Nodup) {id : String}
    {element : SemanticElement} :
    Mapping.get elements id = some element ↔ element ∈ elements ∧ element.elementId = id := by
  constructor
  · intro found
    exact ⟨List.mem_of_find?_eq_some found, by simpa using List.find?_some found⟩
  · rintro ⟨member, rfl⟩
    cases found : Mapping.get elements element.elementId with
    | none =>
      have missing := List.find?_eq_none.mp found element member
      simp at missing
    | some other =>
      have same : other.elementId = element.elementId := by simpa using List.find?_some found
      rw [List.inj_on_of_nodup_map distinct (List.mem_of_find?_eq_some found) member same]

theorem parent_iff (distinct : (elements.map (·.elementId)).Nodup) {id parent : String} :
    Mapping.parent elements id = some parent ↔
      ∃ element ∈ elements, element.elementId = id ∧ element.parentId = some parent := by
  rw [Mapping.parent, Option.bind_eq_some_iff]
  constructor
  · rintro ⟨element, found, above⟩
    obtain ⟨member, named⟩ := (get_iff distinct).mp found
    exact ⟨element, member, named, above⟩
  · rintro ⟨element, member, named, above⟩
    exact ⟨element, (get_iff distinct).mpr ⟨member, named⟩, above⟩

/-- A way up through identifiers is one through elements. -/
theorem transGen_ids (distinct : (elements.map (·.elementId)).Nodup)
    (parents : ∀ element ∈ elements, ∀ id, element.parentId = some id →
      ∃ parent ∈ elements, parent.elementId = id)
    {element : SemanticElement} (member : element ∈ elements) {id : String}
    (above : TransGen (fun a b => Mapping.parent elements a = some b) element.elementId id) :
    ∃ ancestor ∈ elements, ancestor.elementId = id ∧ TransGen (IsParent elements) element ancestor := by
  have step {child : SemanticElement} (member : child ∈ elements) {id : String}
      (above : Mapping.parent elements child.elementId = some id) :
      ∃ parent ∈ elements, parent.elementId = id ∧ IsParent elements child parent := by
    obtain ⟨child', member', named, parentId⟩ := (parent_iff distinct).mp above
    obtain rfl := List.inj_on_of_nodup_map distinct member' member named
    obtain ⟨parent, listed, rfl⟩ := parents child' member id parentId
    exact ⟨parent, listed, rfl, member, listed, parentId⟩
  induction above with
  | single above =>
    obtain ⟨parent, listed, named, isParent⟩ := step member above
    exact ⟨parent, listed, named, .single isParent⟩
  | tail _ above ih =>
    obtain ⟨ancestor, listed, rfl, path⟩ := ih
    obtain ⟨parent, listed', named, isParent⟩ := step listed above
    exact ⟨parent, listed', named, .tail path isParent⟩

/-- And the other way round. -/
theorem transGen_elements (distinct : (elements.map (·.elementId)).Nodup)
    {element ancestor : SemanticElement} (path : TransGen (IsParent elements) element ancestor) :
    TransGen (fun a b => Mapping.parent elements a = some b) element.elementId ancestor.elementId := by
  refine TransGen.lift SemanticElement.elementId ?_ _ _ path
  rintro child parent ⟨member, _, above⟩
  exact (parent_iff distinct).mpr ⟨child, member, rfl, above⟩

theorem checkParents_ok {element : SemanticElement} :
    checkParents elements element = .ok () ↔
      (∀ id, element.parentId = some id → id ≠ element.elementId ∧
        (Mapping.get elements id).isSome = true) ∧
      ¬ Ascent.Circles (Mapping.parent elements) element.parentId := by
  rw [← revisits_circles, checkParents]
  cases element.parentId with
  | none => simp [revisits, pure, Except.pure]
  | some id =>
    cases found : Mapping.get elements id with
    | none => simp [found, throw, throwThe, MonadExceptOf.throw]
    | some parent =>
      by_cases same : id = element.elementId
      · simp [same, throw, throwThe, MonadExceptOf.throw]
      · cases revisits elements (elements.length + 2) [] (some id) <;>
          simp [same, found, throw, throwThe, MonadExceptOf.throw, pure, Except.pure]

/-- What is accepted is a valid forest, and every valid forest is accepted. -/
theorem wellFormed_iff : WellFormed elements ↔ ValidForest elements := by
  constructor
  · intro wellFormed
    have checked (element : SemanticElement) (member : element ∈ elements) :=
      checkParents_ok.mp (wellFormed.parents element member)
    have parents : ∀ element ∈ elements, ∀ id, element.parentId = some id →
        ∃ parent ∈ elements, parent.elementId = id := by
      intro element member id above
      obtain ⟨parent, found⟩ := Option.isSome_iff_exists.mp ((checked element member).1 id above).2
      obtain ⟨listed, named⟩ := (get_iff wellFormed.ids).mp found
      exact ⟨parent, listed, named⟩
    refine ⟨wellFormed.valid, wellFormed.tags, wellFormed.ids, parents, fun element circle => ?_⟩
    -- a circle through an element is one above its parent
    obtain ⟨n, around⟩ := Ascent.climb_transGen.mp (transGen_elements wellFormed.ids circle)
    obtain ⟨parent, ⟨member, _, above⟩, _⟩ := TransGen.head'_iff.mp circle
    refine (checked element member).2 ⟨element.elementId, n, n, ?_, around⟩
    have first : Mapping.parent elements element.elementId = element.parentId := by
      rw [above]
      exact (parent_iff wellFormed.ids).mpr ⟨element, member, rfl, above⟩
    rw [← first]
    exact around
  · intro forest
    refine ⟨forest.valid, forest.tags, forest.ids, fun element member => checkParents_ok.mpr ⟨?_, ?_⟩⟩
    · intro id above
      obtain ⟨parent, listed, rfl⟩ := forest.parents element member id above
      refine ⟨fun same => ?_, ?_⟩
      · obtain rfl := List.inj_on_of_nodup_map forest.ids listed member same
        exact forest.acyclic parent (.single ⟨member, member, above⟩)
      · rw [(get_iff forest.ids).mpr ⟨listed, rfl⟩]
        rfl
    · rintro ⟨id, m, n, _, around⟩
      have circle := Ascent.climb_transGen.mpr ⟨n, around⟩
      -- what has a parent is an element
      obtain ⟨next, above, _⟩ := TransGen.head'_iff.mp circle
      obtain ⟨child, listed, rfl, _⟩ := (parent_iff forest.ids).mp above
      obtain ⟨ancestor, listed', named, path⟩ := transGen_ids forest.ids forest.parents listed circle
      obtain rfl := List.inj_on_of_nodup_map forest.ids listed' listed named
      exact forest.acyclic _ path

/-- **Observations are exactly the forests of valid elements**: they are accepted if and only
if they are, the map then sends each identifier to its element, and the loop over the
ancestors ends on every list. -/
theorem buildMapping_exact (elements : List SemanticElement) :
    ((∃ mapping, buildMapping elements = .ok mapping) ↔ ValidForest elements) ∧
      (∀ mapping, buildMapping elements = .ok mapping → ∀ id element,
        mapping.get id = some element ↔ element ∈ elements ∧ element.elementId = id) ∧
      ∀ (mapping : Mapping) (next : Option String),
        AncestorLoop mapping [] next (revisits mapping (mapping.length + 2) [] next) := by
  refine ⟨?_, ?_, ancestorLoop_ends⟩
  · rw [← wellFormed_iff]
    constructor
    · rintro ⟨mapping, accepted⟩
      exact (buildMapping_ok.mp accepted).2
    · exact fun wellFormed => ⟨elements, buildMapping_ok.mpr ⟨rfl, wellFormed⟩⟩
  · intro mapping accepted id element
    obtain ⟨rfl, wellFormed⟩ := buildMapping_ok.mp accepted
    exact get_iff wellFormed.ids

end

end Praefectus
