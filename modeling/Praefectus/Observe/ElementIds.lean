import Praefectus.Observe.CdpTree
import Praefectus.Observe.LinuxMapping
import Praefectus.Observe.Windows

/-!
# The elements behind the identifiers

Each backend has a text for its objects, from which the identifier of an element is made.
No two objects have one text, so that an identifier stands for one object of one
observation.
-/

namespace Praefectus

variable {build : Build}

/-! ### The texts of a backend -/

theorem toList_toString (n : Int) : (toString n).toList = printInt n := by
  cases n with
  | ofNat n => exact Nat.toList_repr
  | negSucc n =>
    have signed : toString (Int.negSucc n) = "-" ++ Nat.repr (n + 1) := rfl
    rw [signed, String.toList_append, Nat.toList_repr]
    rfl

theorem toList_runtimeIdText (values : Uia.RuntimeId) : (Uia.runtimeIdText values).toList =
    ['.'].intercalate (values.map fun value => printInt value.toInt) := by
  rw [Uia.runtimeIdText, String.toList_intercalate, List.map_map]
  refine congrArg _ (List.map_congr_left fun value _ => ?_)
  exact toList_toString value.toInt

theorem dot_notMem_printInt (n : Int) : '.' ∉ printInt n := by
  intro member
  rcases mem_printInt member with digit | minus
  · exact absurd digit (by decide)
  · exact absurd minus (by decide)

/-- Neither a digit nor a sign is the separator. -/
theorem runtimeIdText_injective {values others : Uia.RuntimeId} (filled : values ≠ [])
    (filled' : others ≠ []) (same : Uia.runtimeIdText values = Uia.runtimeIdText others) :
    values = others := by
  have texts := congrArg String.toList same
  rw [toList_runtimeIdText, toList_runtimeIdText] at texts
  have apart (values : Uia.RuntimeId) :
      ∀ part ∈ values.map fun value => printInt value.toInt, '.' ∉ part := by
    intro part member
    obtain ⟨value, _, rfl⟩ := List.mem_map.mp member
    exact dot_notMem_printInt value.toInt
  have parts := intercalate_injective (by simpa using filled) (by simpa using filled')
    (apart values) (apart others) texts
  refine List.map_injective_iff.mpr ?_ parts
  intro value other printed
  exact Int32.toInt_inj.mp (printInt_injective printed)

theorem toString_injective : Function.Injective fun n : UInt64 => toString n := by
  intro m n same
  have texts : (Nat.repr m.toNat).toList = (Nat.repr n.toNat).toList := congrArg String.toList same
  rw [Nat.toList_repr, Nat.toList_repr] at texts
  exact UInt64.toNat_inj.mp (printNat_injective texts)

/-! ### Identifiers -/

section

variable {Object : Type}

/-- One identifier stands for one object of one observation, where the backend has these
texts for its objects. -/
def Separates (build : Build) (named : Object → String → Prop) : Prop :=
  ∀ (observationId other text text' elementId : String) (object object' : Object),
    named object text → named object' text' →
    opaqueElementId build observationId text = .ok elementId →
    opaqueElementId build other text' = .ok elementId → observationId = other ∧ object = object'

/-- What has an identifier has a text that is not empty. -/
theorem separates_of_texts {named : Object → String → Prop}
    (distinct : Function.Injective build.sha256)
    (unique : ∀ text object object', text ≠ "" → named object text → named object' text →
      object = object') : Separates build named := by
  intro observationId other text text' elementId object object' name name' first second
  obtain ⟨rfl, rfl⟩ := opaqueElementId_injective distinct first second
  refine ⟨rfl, unique text object object' ?_ name name'⟩
  rintro rfl
  obtain ⟨_, valid, _⟩ := opaqueElementId_ok.mp first
  exact absurd valid (by decide)

end

/-- Identifiers, and the texts of each backend, keep apart what they stand for. -/
theorem element_ids_separate {bus : Atspi.Bus} (distinct : Function.Injective build.sha256)
    (bare : bus.PathsAreBare) :
    (∀ observationId other text text' elementId : String,
      opaqueElementId build observationId text = .ok elementId →
      opaqueElementId build other text' = .ok elementId → observationId = other ∧ text = text') ∧
    (∀ (object other : Atspi.StoredObject) (id : String), object.id bus = .ok id →
      other.id bus = .ok id → object = other) ∧
    (∀ values others : Uia.RuntimeId, values ≠ [] → others ≠ [] →
      Uia.runtimeIdText values = Uia.runtimeIdText others → values = others) ∧
    (Function.Injective fun backendNodeId : UInt64 => toString backendNodeId) ∧
    (Separates build fun (object : Atspi.StoredObject) text => object.id bus = .ok text) ∧
    (Separates build fun (values : Uia.RuntimeId) text => Uia.runtimeIdText values = text) ∧
    Separates build fun (backendNodeId : UInt64) text => toString backendNodeId = text := by
  refine ⟨fun _ _ _ _ _ => opaqueElementId_injective distinct, fun _ _ _ => Atspi.id_injective bare,
    fun _ _ => runtimeIdText_injective, toString_injective, ?_, ?_, ?_⟩
  · exact separates_of_texts distinct fun _ _ _ _ => Atspi.id_injective bare
  · refine separates_of_texts distinct ?_
    rintro text values others filled rfl same
    -- an empty list has the empty text
    have nonempty {values : Uia.RuntimeId} (filled : Uia.runtimeIdText values ≠ "") :
        values ≠ [] := by
      rintro rfl
      exact filled rfl
    exact runtimeIdText_injective (nonempty filled) (nonempty (same ▸ filled)) same.symm
  · refine separates_of_texts distinct ?_
    rintro text m n _ rfl same
    exact toString_injective same.symm

theorem element_ids_separate_plain :
    Atspi.plainButton.id Atspi.plainBus = .ok ":1.7:/window/1" ∧
    Atspi.plainEntry.id Atspi.plainBus = .ok ":1.7:/window/2" ∧
    Separates Atspi.plainBuild fun (object : Atspi.StoredObject) text =>
      object.id Atspi.plainBus = .ok text := by
  have separate := @element_ids_separate Atspi.plainBuild Atspi.plainBus
    Atspi.plainMessages.digest_injective Atspi.plainBus_bare
  exact ⟨rfl, rfl, separate.2.2.2.2.1⟩

end Praefectus
