import Praefectus.Protocol.Types
import Mathlib.Logic.Function.Basic

/-!
# The reference outcome ledger

The host's record of which operations were dispatched and how they ended. A key is
granted once; from then on it is interrupted until its terminal is recorded.
-/

namespace Praefectus

structure MemoryOutcomeLedger where
  entries : OutcomeKey → Option (Option Terminal)

namespace MemoryOutcomeLedger

def new : MemoryOutcomeLedger := ⟨fun _ => none⟩

def insert (ledger : MemoryOutcomeLedger) (key : OutcomeKey) (entry : Option Terminal) :
    MemoryOutcomeLedger := ⟨Function.update ledger.entries key (some entry)⟩

def begin (ledger : MemoryOutcomeLedger) (key : OutcomeKey) :
    LedgerDecision × MemoryOutcomeLedger :=
  match ledger.entries key with
  | some (some terminal) => (.recorded terminal, ledger)
  | some none => (.interrupted, ledger)
  | none => (.dispatch, ledger.insert key none)

def record (ledger : MemoryOutcomeLedger) (key : OutcomeKey) (terminal : Terminal) :
    MemoryOutcomeLedger := ledger.insert key (some terminal)

variable (ledger : MemoryOutcomeLedger) (key key' : OutcomeKey) (entry : Option Terminal)

@[simp] theorem entries_insert_self : (ledger.insert key entry).entries key = some entry :=
  Function.update_self ..

theorem entries_insert_other (other : key' ≠ key) :
    (ledger.insert key entry).entries key' = ledger.entries key' := Function.update_of_ne other ..

/-- After a begin the key is known, and no other key has changed. -/
theorem begin_cases :
    (ledger.entries key = none ∧ ledger.begin key = (.dispatch, ledger.insert key none)) ∨
    (ledger.entries key = some none ∧ ledger.begin key = (.interrupted, ledger)) ∨
    ∃ terminal, ledger.entries key = some (some terminal) ∧
      ledger.begin key = (.recorded terminal, ledger) := by
  unfold begin
  cases known : ledger.entries key with
  | none => exact .inl ⟨rfl, rfl⟩
  | some entry =>
    cases entry with
    | none => exact .inr (.inl ⟨rfl, rfl⟩)
    | some terminal => exact .inr (.inr ⟨terminal, rfl, rfl⟩)

end MemoryOutcomeLedger

end Praefectus
