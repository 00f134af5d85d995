import Praefectus.Semantic.Fence

/-!
# Opaque element identifiers

The identifier of an element is the digest of the observation's identifier and the
backend's text for the element. The first is always as long, so the two can be told
apart in what is digested.
-/

namespace Praefectus

variable {build : Build} {observationId other text text' elementId : String}

theorem opaqueElementId_ok :
    opaqueElementId build observationId text = .ok elementId ↔
      semanticHash observationId = true ∧ validText text 1 2048 = true ∧
        elementId = hashBytes build (observationId.asBytes ++ [0] ++ text.asBytes) := by
  unfold opaqueElementId
  cases hash : semanticHash observationId with
  | false => exact iff_of_false nofun fun valid => Bool.noConfusion valid.1
  | true =>
    cases valid : validText text 1 2048 with
    | false => exact iff_of_false nofun fun valid => Bool.noConfusion valid.2.1
    | true =>
      simp only [Bool.not_true, Bool.or_self, Bool.false_eq_true, if_false, true_and]
      exact ⟨fun same => (Except.ok.inj same).symm, fun same => congrArg Except.ok same.symm⟩

theorem asBytes_length_hash (hash : semanticHash observationId = true) :
    observationId.asBytes.length = 64 := by
  simp only [semanticHash, Bool.and_eq_true, decide_eq_true_eq] at hash
  rw [String.asBytes_eq]
  exact (String.utf8ByteSize_eq observationId).symm.trans hash.1

/-- What is digested keeps both apart. -/
theorem opaqueElementId_injective (distinct : Function.Injective build.sha256)
    (first : opaqueElementId build observationId text = .ok elementId)
    (second : opaqueElementId build other text' = .ok elementId) :
    observationId = other ∧ text = text' := by
  obtain ⟨hash, _, rfl⟩ := opaqueElementId_ok.mp first
  obtain ⟨hash', _, same⟩ := opaqueElementId_ok.mp second
  have digested := distinct (hexEncode_injective same)
  rw [List.append_assoc, List.append_assoc] at digested
  have lengths : observationId.asBytes.length = other.asBytes.length :=
    (asBytes_length_hash hash).trans (asBytes_length_hash hash').symm
  obtain ⟨front, back⟩ := List.append_inj digested lengths
  exact ⟨String.asBytes_injective front, String.asBytes_injective (List.cons.inj back).2⟩

end Praefectus
