import Praefectus.System.Invariant
import Praefectus.System.Realized

/-!
# Dispatch and the ledger file

What the invariant of the desk says about the engines: no operation is dispatched
twice, and after each repair the file is a sequence of whole records in which nothing
that was stored is missing.
-/

namespace Praefectus

open Prog

variable {Id : Type} [DecidableEq Id] {host : Host}

/-- **At most once**: over any run of the engines, with failures and crashes anywhere, an
operation is dispatched at most once. -/
theorem dispatched_at_most_once {reader : LedgerReader} {log : Log Id}
    {c : Config engines (World.shared Id (fileStore reader.format) host)}
    (run : Config.Run log c) (operationId : String) : dispatches operationId log ≤ 1 := by
  obtain ⟨d, run', _⟩ := engines_serial run
  exact (Desk.invariant_run run').tallied.once operationId

/-- Two executions of the same request, and one dispatch. -/
theorem dispatched_at_most_once_bench :
    ∃ (log : Log Nat) (c : Config engines (World.shared Nat (fileStore objectReader.format) memoryHost)),
      Config.Run log c ∧ dispatches "operation-1" log = 1 ∧ dispatches "operation-1" log ≤ 1 := by
  obtain ⟨c, run⟩ := @Bench.run objectReader.format
    [(Bench.executes .host, 100), (Bench.executes .host, 100)] []
  exact ⟨_, c, run, by decide +kernel, dispatched_at_most_once run _⟩

/-! ### Repaired files -/

omit [DecidableEq Id] in
/-- Right after a repair there is no torn tail. -/
theorem repaired_whole {log : Log Id} {id : Id} {d : Desk Id host}
    (run : Desk.Run (log ++ [.did id ⟨.ledger .repairTail, .ok ()⟩]) d) :
    d.ledgers.ledger.torn = false := by
  have invariant := Desk.invariant_run run
  obtain ⟨before, _, move⟩ := run.last
  cases move with
  | look look => exact look.elim
  | work work _ =>
    cases work with
    | repair => exact invariant.knows _ rfl
    | mend => exact (invariant.knows _ rfl).1

/-- A file is read as the records of the journal it keeps. -/
theorem reads_journal {format : JsonLines LedgerRecord} {f f' : File} {j : Journal LedgerRecord}
    (keeps : Keeps format f j) (sound : j.glued = false) (whole : j.torn = false)
    {records : List LedgerRecord}
    (run : Runs File.effects (readRecords format).run f (.ok records) f') :
    records = j.records := by
  obtain ⟨j', stepped, _⟩ := safe_run (readRecords_keeping f j keeps) run
  exact (Journal.step_records sound whole stepped).2 records rfl

/-- A whole file is the lines of its records, and reading it yields them. -/
theorem whole_file {format : JsonLines LedgerRecord} {f : File} {j : Journal LedgerRecord}
    (keeps : Keeps format f j) (sound : j.glued = false) (whole : j.torn = false) :
    f.bytes = unlines (j.records.map format.line) ∧
      Runs File.effects (readRecords format).run f (.ok j.records) f := by
  rcases keeps with bad | ⟨tail, bytes, _, empty, _⟩
  · rw [sound] at bad
    contradiction
  rw [empty whole, List.append_nil] at bytes
  exact ⟨bytes, runs_records bytes⟩

/-- **Crash consistency**: in every run from an empty ledger, with appends cut at any byte
and restarts anywhere, the file after a repair is the lines of consistent records; what
was stored is among them unchanged and in order, and reading yields exactly them. -/
theorem repaired_consistent {reader : LedgerReader} {log : Log Id} {id : Id}
    {c : Config engines (World.shared Id (fileStore reader.format) host)}
    (run : Config.Run (log ++ [.did id ⟨.ledger .repairTail, .ok ()⟩]) c) :
    ∃ records : List LedgerRecord,
      c.shared.ledgers.ledger.bytes = unlines (records.map reader.format.line) ∧
      (appended log).Sublist records ∧
      Runs File.effects (readRecords reader.format).run c.shared.ledgers.ledger (.ok records)
        c.shared.ledgers.ledger ∧
      (∀ found f, Runs File.effects (readRecords reader.format).run c.shared.ledgers.ledger
        (.ok found) f → found = records) ∧
      Consistent records := by
  obtain ⟨d, run', keeps⟩ := engines_serial run
  have sound := (Desk.invariant_run run').sound
  have whole := repaired_whole run'
  obtain ⟨bytes, reading⟩ := whole_file keeps.ledger sound.glued whole
  refine ⟨d.ledgers.ledger.records, bytes, ?_, reading, fun found f run =>
    reads_journal keeps.ledger sound.glued whole run, sound.consistent⟩
  have unstored : stored? (.did id ⟨.ledger .repairTail, .ok ()⟩ : Entry Engine Id Call) = none := rfl
  rw [← appended_quiet unstored]
  exact sound.kept.trans (List.take_sublist _ _)

def isRepairBy (id : Nat) : Entry Engine Nat Call → Bool
  | .did id' ⟨.ledger .repairTail, .ok ()⟩ => id' = id
  | _ => false

theorem repair_of_isRepairBy {id : Nat} {e : Entry Engine Nat Call} (repair : isRepairBy id e = true) :
    e = .did id ⟨.ledger .repairTail, .ok ()⟩ := by
  unfold isRepairBy at repair
  split at repair
  · rw [of_decide_eq_true repair]
  · contradiction

/-- The repair of a query after an execution that stored two records. -/
theorem repaired_consistent_bench :
    ∃ (log : Log Nat) (c : Config engines (World.shared Nat (fileStore objectReader.format) memoryHost))
      (records : List LedgerRecord),
      Config.Run (log ++ [.did 1 ⟨.ledger .repairTail, .ok ()⟩]) c ∧
      c.shared.ledgers.ledger.bytes = unlines (records.map objectReader.format.line) ∧
      (appended log).Sublist records ∧
      Runs File.effects (readRecords objectReader.format).run c.shared.ledgers.ledger (.ok records)
        c.shared.ledgers.ledger ∧
      Consistent records := by
  obtain ⟨c, run⟩ := @Bench.run objectReader.format
    [(Bench.executes .host, 100), (Bench.queries .host, 100)] []
  have repaired : (Bench.log [(Bench.executes .host, 100), (Bench.queries .host, 100)]
      Bench.new).any (isRepairBy 1) = true := by decide +kernel
  obtain ⟨e, member, repair⟩ := List.any_eq_true.mp repaired
  obtain rfl := repair_of_isRepairBy repair
  obtain ⟨before, after, same⟩ := List.append_of_mem member
  change Config.Run (Bench.log _ Bench.new) c at run
  rw [same, List.append_cons] at run
  obtain ⟨c', run', _⟩ := Reaches.split run
  obtain ⟨records, bytes, kept, reading, _, consistent⟩ := repaired_consistent run'
  exact ⟨before, c', records, run', bytes, kept, reading, consistent⟩

end Praefectus
