import Praefectus.System.World
import Praefectus.Engine.Bench
import Praefectus.Protocol.Reader

/-!
# Hosts, and runs on the file

The conforming host, and schedules of calls that are runs of the engines on the ledger
file next to it.
-/

namespace Praefectus

open Prog

/-- A host that keeps the reference outcome ledger. A question that fails, or that is
abandoned, may have taken effect. -/
def memoryHost : Host where
  State := MemoryOutcomeLedger
  init := .new
  begin key ans s s' :=
    match ans with
    | .ok decision => (decision, s') = s.begin key
    | .error _ => s' = s ∨ s' = (s.begin key).2
  record key terminal ans s s' :=
    match ans with
    | .ok () => s' = s.record key terminal
    | .error _ => s' = s ∨ s' = s.record key terminal

variable {format : JsonLines LedgerRecord}

/-- The file holds the records of the bench. -/
structure Bench.Backs (format : JsonLines LedgerRecord) (bench : Bench)
    (w : World Nat (fileStore format) memoryHost) : Prop where
  file : File.bytes w.ledgers.ledger = unlines (bench.records.map format.line)
  host : w.ledgers.host = bench.outcomes
  holder : w.holder = bench.holder

namespace Bench

theorem backs_release {bench : Bench} {w : World Nat (fileStore format) memoryHost}
    (backs : bench.Backs format w) (id : Nat) : (bench.release id).Backs format (w.release id) := by
  unfold release World.release
  rw [backs.holder]
  split
  · exact ⟨backs.file, backs.host, rfl⟩
  · exact backs

/-- A question that is abandoned may have done nothing. -/
theorem abandon_nothing (op : EngineOp) (l : Ledgers (fileStore format) memoryHost) :
    l.Abandon op l := by
  have stops {α : Type} (op : FileOp) (next : op.Result → FileM α) (f : File) (e : ProtocolError)
      (still : File.Answer ⟨op, .error e⟩ f f) : Stops File.effects (file op >>= next).run f f :=
    .here ⟨.error e, still⟩
  cases op with
  | ledger op =>
    refine ⟨?_, rfl⟩
    cases op with
    | repairTail => exact stops .read _ _ failure rfl
    | records => exact stops .read _ _ failure rfl
    | append record => exact stops .prepare _ _ failure rfl
  | begin outcomes key =>
    cases outcomes with
    | null => rfl
    | host => exact .inl rfl
  | record outcomes key terminal =>
    cases outcomes with
    | null => rfl
    | host => exact .inl rfl
  | _ => rfl

/-- The bench answers as the file, the host and the lock may. -/
theorem realizes :
    environment.Realizes (World.shared Nat (fileStore format) memoryHost) (Backs format) where
  respond id op bench w backs := by
    obtain ⟨⟨file, host⟩, holder⟩ := w
    obtain ⟨bytes, same, holds⟩ := backs
    obtain rfl : host = bench.outcomes := same
    obtain rfl : holder = bench.holder := holds
    cases op with
    | lock deadline =>
      cases free : bench.holder with
      | none =>
        simp only [environment, respond, free]
        exact ⟨⟨⟨file, bench.outcomes⟩, some id⟩, ⟨rfl, rfl⟩, bytes, rfl, rfl⟩
      | some other =>
        simp only [environment, respond, free]
        exact ⟨⟨⟨file, bench.outcomes⟩, some other⟩, ⟨rfl, rfl⟩, bytes, rfl, free.symm⟩
    | release outcome =>
      exact ⟨_, rfl, backs_release (w := ⟨⟨file, bench.outcomes⟩, bench.holder⟩) ⟨bytes, rfl, rfl⟩ id⟩
    | ledger op =>
      cases op with
      | repairTail => exact ⟨_, ⟨⟨runs_repair _ bytes, rfl⟩, rfl⟩, bytes, rfl, rfl⟩
      | records => exact ⟨_, ⟨⟨runs_records bytes, rfl⟩, rfl⟩, bytes, rfl, rfl⟩
      | append record =>
        have fails : ∃ w', World.Answer id ⟨.ledger (.append record), .error failure⟩
            (⟨⟨file, bench.outcomes⟩, bench.holder⟩ : World Nat (fileStore format) memoryHost) w' ∧
            w' = ⟨⟨file, bench.outcomes⟩, bench.holder⟩ :=
          ⟨_, ⟨⟨runs_append_error record failure, rfl⟩, rfl⟩, rfl⟩
        obtain ⟨file', runs, bytes'⟩ := runs_append record bytes
        simp only [environment, respond, Bench.append]
        split
        · obtain ⟨_, answered, rfl⟩ := fails
          exact ⟨_, answered, bytes, rfl, rfl⟩
        · exact ⟨⟨⟨file', bench.outcomes⟩, bench.holder⟩, ⟨⟨runs, rfl⟩, rfl⟩, bytes', rfl, rfl⟩
    | begin outcomes key =>
      cases outcomes with
      | null => exact ⟨_, ⟨⟨rfl, rfl⟩, rfl⟩, bytes, rfl, rfl⟩
      | host =>
        exact ⟨⟨⟨file, (bench.outcomes.begin key).2⟩, bench.holder⟩, ⟨⟨rfl, rfl⟩, rfl⟩, bytes, rfl, rfl⟩
    | record outcomes key terminal =>
      cases outcomes with
      | null => exact ⟨_, ⟨⟨rfl, rfl⟩, rfl⟩, bytes, rfl, rfl⟩
      | host =>
        exact ⟨⟨⟨file, bench.outcomes.record key terminal⟩, bench.holder⟩, ⟨⟨rfl, rfl⟩, rfl⟩, bytes,
          rfl, rfl⟩
    | _ => exact ⟨_, ⟨rfl, rfl⟩, bytes, rfl, rfl⟩
  bury id op bench w backs := by
    refine ⟨_, ⟨w.ledgers, abandon_nothing op w.ledgers, rfl⟩, backs_release backs id⟩

/-- The log of calls that run one after the other, each for at most so many answers. -/
def log (calls : List (Call × Nat)) (bench : Bench) : Log Nat :=
  (environment.serveAll Call.body 0 calls bench).1

/-- It is the log of a run. -/
theorem run (calls : List (Call × Nat)) (failures : List Bool) :
    ∃ c : Config engines (World.shared Nat (fileStore format) memoryHost),
      Config.Run (log calls { new with failures := failures }) c := by
  let bench : Bench := { new with failures := failures }
  obtain ⟨c, run, _⟩ : ∃ c : Config engines (World.shared Nat (fileStore format) memoryHost),
      Config.Run (log calls bench) c ∧
      (environment.serveAll Call.body 0 calls bench).2.Backs format c.shared :=
    serveAll_run realizes calls ⟨rfl, rfl, rfl⟩
  exact ⟨c, run⟩

/-- An execution of the request of the bench. -/
def executes (outcomes : Outcomes) : Call :=
  .execute (benchBuild .interactive) outcomes (benchRequest .interactive)

def queries (outcomes : Outcomes) : Call := .status outcomes "operation-1"

end Bench

end Praefectus
