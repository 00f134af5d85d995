import Praefectus.Semantic.Fence

/-!
# Elements in the order of a walk

A list of elements in which every parent comes before its children is a forest: the way up
from an element passes earlier and earlier ones, so it never comes to an element twice.
-/

namespace Praefectus

/-! ### Tags -/

theorem tag_text (index : Nat) : ("e" ++ toString index).toList = 'e' :: Nat.toDigits 10 index := by
  have digits : (toString index).toList = Nat.toDigits 10 index := Nat.toList_repr
  rw [String.toList_append, digits]
  rfl

theorem digit_byte {c : Char} (digit : c.isDigit = true) : c.utf8Size = 1 := by
  simp only [Char.isDigit, Bool.and_eq_true, decide_eq_true_eq] at digit
  have low : c.val ≤ 127 := by
    simp only [UInt32.le_iff_toNat_le] at digit ⊢
    have high := digit.2
    simp at high ⊢
    omega
  simp [Char.utf8Size, low]

theorem validTag_index {index : Nat} (small : index < 10000) :
    validTag ("e" ++ toString index) = true := by
  have digits : ∀ c ∈ Nat.toDigits 10 index, c.isDigit = true := by
    intro c member
    exact Nat.isDigit_of_mem_toDigits (by omega) (by omega) member
  have bytes : (utf8 (Nat.toDigits 10 index)).length = (Nat.toDigits 10 index).length :=
    utf8_length_single fun c member => digit_byte (digits c member)
  have few : (Nat.toDigits 10 index).length ≤ 4 :=
    (Nat.length_toDigits_le_iff (by omega) (by omega)).mpr small
  rw [validTag, tag_text]
  simp only [bytes, Bool.and_eq_true, decide_eq_true_eq, List.all_eq_true]
  exact ⟨⟨Nat.toDigits_ne_nil, few⟩, digits⟩

theorem tag_injective {m n : Nat} (same : "e" ++ toString m = "e" ++ toString n) : m = n := by
  have texts := congrArg String.toList same
  rw [tag_text, tag_text, List.cons.injEq] at texts
  have values := congrArg (Nat.ofDigitChars 10 · 0) texts.2
  simpa using values

/-! ### Parents -/

/-- Every parent comes before its children. -/
def ParentsFirst (elements : List SemanticElement) : Prop :=
  ∀ before element after, elements = before ++ element :: after → ∀ id,
    element.parentId = some id → id ∈ before.map (·.elementId)

theorem parentsFirst_concat {elements : List SemanticElement} {element : SemanticElement}
    (parents : ParentsFirst elements)
    (earlier : ∀ id, element.parentId = some id → id ∈ elements.map (·.elementId)) :
    ParentsFirst (elements ++ [element]) := by
  intro before other after whole id parentId
  rcases List.eq_nil_or_concat after with rfl | ⟨after, last, rfl⟩
  · obtain ⟨rfl, same⟩ := List.append_inj' whole rfl
    obtain rfl := List.singleton_inj.mp same
    exact earlier id parentId
  · rw [List.concat_eq_append, ← List.cons_append, ← List.append_assoc] at whole
    obtain ⟨rfl, _⟩ := List.append_inj' whole rfl
    exact parents before other after rfl id parentId

/-- An element is got by its identifier where no other has it. -/
theorem get_eq_some {before after : List SemanticElement} {element : SemanticElement}
    (distinct : ((before ++ element :: after).map (·.elementId)).Nodup) :
    Mapping.get (before ++ element :: after) element.elementId = some element := by
  have fresh : ∀ earlier ∈ before, earlier.elementId ≠ element.elementId := by
    intro earlier member same
    rw [List.map_append, List.nodup_append] at distinct
    exact distinct.2.2 _ (List.mem_map_of_mem member) element.elementId (by simp) same
  rw [Mapping.get, List.find?_append, List.find?_eq_none.mpr]
  · simp
  · intro earlier member
    simpa using fresh earlier member

/-- The way up passes identifiers of ever shorter parts of the list. -/
theorem revisits_parentsFirst {elements : List SemanticElement} (parents : ParentsFirst elements)
    (distinct : (elements.map (·.elementId)).Nodup) {before after : List SemanticElement}
    {element : SemanticElement} (whole : elements = before ++ element :: after) {fuel : Nat}
    (enough : before.length + 1 ≤ fuel) {ancestors : List String}
    (later : ∀ id ∈ ancestors, id ∉ before.map (·.elementId)) :
    revisits elements fuel ancestors element.parentId = false := by
  induction fuel generalizing before after element ancestors with
  | zero => contradiction
  | succ fuel ih =>
    cases parentId : element.parentId with
    | none => rfl
    | some id =>
      have earlier := parents before element after whole id parentId
      obtain ⟨parent, member, rfl⟩ := List.mem_map.mp earlier
      obtain ⟨first, rest, rfl⟩ := List.append_of_mem member
      have new : parent.elementId ∉ ancestors := fun passed => later _ passed earlier
      have shape : elements = first ++ parent :: (rest ++ element :: after) := by simp [whole]
      rw [shape] at distinct
      have found := get_eq_some distinct
      rw [← shape] at found distinct
      simp only [revisits, found, Option.bind_some, Bool.or_eq_false_iff]
      refine ⟨by simpa using new, ih shape (by simp at enough; omega) ?_⟩
      intro id passed
      rcases List.mem_cons.mp passed with rfl | passed
      · rw [shape, List.map_append, List.nodup_append] at distinct
        intro again
        exact distinct.2.2 _ again parent.elementId (by simp) rfl
      · intro again
        apply later id passed
        rw [List.map_append]
        exact List.mem_append_left _ again

/-- Valid elements that are told apart and come after their parents are accepted. -/
theorem wellFormed_of_parentsFirst {elements : List SemanticElement}
    (valid : ∀ element ∈ elements, validElement element = true)
    (tags : (elements.map (·.tag)).Nodup) (ids : (elements.map (·.elementId)).Nodup)
    (parents : ParentsFirst elements) : WellFormed elements := by
  refine ⟨valid, tags, ids, fun element member => ?_⟩
  obtain ⟨before, after, whole⟩ := List.append_of_mem member
  have known : (element.parentId.any fun parent =>
      parent = element.elementId || (Mapping.get elements parent).isNone) = false := by
    cases parentId : element.parentId with
    | none => rfl
    | some id =>
      have earlier := parents before element after whole id parentId
      obtain ⟨parent, listed, rfl⟩ := List.mem_map.mp earlier
      obtain ⟨first, rest, rfl⟩ := List.append_of_mem listed
      have shape : elements = first ++ parent :: (rest ++ element :: after) := by simp [whole]
      have found : Mapping.get elements parent.elementId = some parent := by
        rw [shape] at ids ⊢
        exact get_eq_some ids
      have apart : parent.elementId ≠ element.elementId := by
        intro same
        rw [shape, List.map_append, List.nodup_append] at ids
        simp [same] at ids
      simp [found, apart]
  have straight : revisits elements (elements.length + 2) [] element.parentId = false := by
    apply revisits_parentsFirst parents ids whole
    · simp [whole]
      omega
    · exact fun _ none => absurd none List.not_mem_nil
  simp only [checkParents, known, straight, Bool.false_eq_true, if_false]
  rfl

end Praefectus
