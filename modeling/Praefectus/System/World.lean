import Praefectus.Engine.Follows
import Praefectus.Program.Concurrent
import Praefectus.Ledger.Recovery

/-!
# Engines that share a ledger

Any number of calls of any number of engines share one local ledger, its lock, and one
outcome ledger of their host. The local ledger is a file or the journal it keeps; the
system is the same over both.
-/

namespace Praefectus

open Prog

/-- A call of one of the engines that share the ledger. -/
inductive Call where
  | execute (build : Build) (outcomes : Outcomes) (request : ActionRequest)
  | executeBatch (build : Build) (outcomes : Outcomes) (requests : List ActionRequest)
  | status (outcomes : Outcomes) (operationId : String)

namespace Call

def outcomes : Call → Outcomes
  | .execute _ outcomes _ | .executeBatch _ outcomes _ | .status outcomes _ => outcomes

/-- What a call does. What it returns is what it reports as it releases the lock. -/
def body : Call → Prog Engine Unit
  | .execute build outcomes request => do
    let _ ← (Praefectus.execute build outcomes request).run
  | .executeBatch build outcomes requests => do
    let _ ← Praefectus.executeBatch build outcomes requests
  | .status outcomes operationId => do
    let _ ← (Praefectus.status outcomes operationId).run

/-- **The engine follows its phases.** -/
theorem body_follows (call : Call) :
    call.body.Follows (Phase.Step call.outcomes) (fun _ φ => φ = .idle) .idle := by
  cases call with
  | execute build outcomes request =>
    exact follows_bind (follows_mono (follows_execute build request) fun _ _ idle => idle)
  | executeBatch build outcomes requests =>
    exact follows_bind (follows_mono (follows_executeBatch build requests) fun _ _ idle => idle)
  | status outcomes operationId =>
    exact follows_bind (follows_mono (follows_status operationId) fun _ _ idle => idle)

end Call

/-! ### What the calls share -/

/-- Where the local ledger is kept. -/
structure Store where
  State : Type
  init : State
  answer : (op : JournalOp LedgerRecord) → Except ProtocolError op.Result → State → State → Prop
  abandon : JournalOp LedgerRecord → State → State → Prop
  loses : State → State → Prop

/-- The program of a ledger operation. -/
def ledgerProgram (format : JsonLines LedgerRecord) :
    (op : JournalOp LedgerRecord) → Prog FileSystem (Except ProtocolError op.Result)
  | .repairTail => (repairJsonlTail format "ledger contains an invalid non-terminal record").run
  | .records => (readRecords format).run
  | .append record => (appendRecord format record).run

/-- The ledger file. It does not exist at first. -/
def fileStore (format : JsonLines LedgerRecord) : Store where
  State := File
  init := ⟨none, 0⟩
  answer op ans f f' := Runs File.effects (ledgerProgram format op) f ans f'
  abandon op f f' := Stops File.effects (ledgerProgram format op) f f'
  loses := File.Loses

def journalStore : Store where
  State := Journal LedgerRecord
  init := .empty
  answer op ans j j' := j.Step op ans j'
  abandon op j j' := ∃ ans, j.Step op ans j'
  loses := Journal.Loses

/-- The outcome ledger of a host. A question that is abandoned may have been answered. -/
structure Host where
  State : Type
  init : State
  begin : OutcomeKey → Except ProtocolError LedgerDecision → State → State → Prop
  record : OutcomeKey → Terminal → Except ProtocolError Unit → State → State → Prop

variable {Id : Type}

/-- The local ledger and the host's. -/
structure Ledgers (store : Store) (host : Host) where
  ledger : store.State
  host : host.State

namespace Ledgers

variable {store : Store} {host : Host}

/-- What a question may have changed when it is answered. -/
def Answer : Event Engine → Ledgers store host → Ledgers store host → Prop
  | ⟨.ledger op, ans⟩, l, l' => store.answer op ans l.ledger l'.ledger ∧ l'.host = l.host
  | ⟨.begin .null _, ans⟩, l, l' => ans = .ok .dispatch ∧ l' = l
  | ⟨.begin .host key, ans⟩, l, l' => host.begin key ans l.host l'.host ∧ l'.ledger = l.ledger
  | ⟨.record .null _ _, ans⟩, l, l' => ans = .ok () ∧ l' = l
  | ⟨.record .host key terminal, ans⟩, l, l' =>
    host.record key terminal ans l.host l'.host ∧ l'.ledger = l.ledger
  | _, l, l' => l' = l

/-- What a question may have changed when the call dies before its answer. -/
def Abandon : EngineOp → Ledgers store host → Ledgers store host → Prop
  | .ledger op, l, l' => store.abandon op l.ledger l'.ledger ∧ l'.host = l.host
  | .begin .host key, l, l' =>
    l' = l ∨ ∃ ans, host.begin key ans l.host l'.host ∧ l'.ledger = l.ledger
  | .record .host key terminal, l, l' =>
    l' = l ∨ ∃ ans, host.record key terminal ans l.host l'.host ∧ l'.ledger = l.ledger
  | _, l, l' => l' = l

def Loses (l l' : Ledgers store host) : Prop := store.loses l.ledger l'.ledger ∧ l'.host = l.host

end Ledgers

structure World (Id : Type) (store : Store) (host : Host) where
  ledgers : Ledgers store host
  holder : Option Id

namespace World

variable [DecidableEq Id] {store : Store} {host : Host}

/-- Gives back the lock if this call holds it. -/
def release (w : World Id store host) (id : Id) : World Id store host :=
  if w.holder = some id then { w with holder := none } else w

def Answer (id : Id) (e : Event Engine) (w w' : World Id store host) : Prop :=
  match e with
  | ⟨.lock _, .ok ()⟩ => w.holder = none ∧ w' = { w with holder := some id }
  | ⟨.release _, ()⟩ => w' = w.release id
  | e => w.ledgers.Answer e w'.ledgers ∧ w'.holder = w.holder

/-- The engines' shared state. The lock of a call that dies is released. -/
abbrev shared (Id : Type) [DecidableEq Id] (store : Store) (host : Host) : Shared Engine Id where
  State := World Id store host
  init := ⟨⟨store.init, host.init⟩, none⟩
  answer := Answer
  abandon id op w w' :=
    ∃ ledgers, w.ledgers.Abandon op ledgers ∧ w' = { w with ledgers }.release id
  outside w w' := w.ledgers.Loses w'.ledgers ∧ w'.holder = w.holder

end World

/-- The calls of the engines, as programs. -/
def engines : Threads Engine Call := programs Call.body

/-- The calls of the engines, as automata. -/
def phases : Threads Engine Call :=
  automata (fun call => Phase.Step call.outcomes) Phase.idle (· = .idle)

/-- Every question can be answered. -/
instance (op : EngineOp) : Nonempty op.Answer := by
  cases op with
  | directories => exact ⟨fun _ => true⟩
  | sessionIsolation => exact ⟨.unknown⟩
  | isCancelled => exact ⟨false⟩
  | now => exact ⟨0⟩
  | release => exact ⟨()⟩
  | dispatch => exact ⟨.error ⟨"", .unknown, .dispatchFailed⟩⟩
  | _ => exact ⟨.error .conflict⟩

/-- The log of a run. -/
abbrev Log (Id : Type) := List (Entry Engine Id Call)

/-! ### The file refines the journal -/

theorem ledgerProgram_keeping (format : JsonLines LedgerRecord) (op : JournalOp LedgerRecord) :
    Keeping format op (ledgerProgram format op) := by
  cases op with
  | repairTail => exact repairJsonlTail_keeping _
  | records => exact readRecords_keeping
  | append record => exact appendRecord_keeping record

section

variable {format : JsonLines LedgerRecord} {host : Host}

/-- A file that keeps the journal, and the same host. -/
structure Ledgers.Keeps (format : JsonLines LedgerRecord) (l : Ledgers (fileStore format) host)
    (m : Ledgers journalStore host) : Prop where
  ledger : Praefectus.Keeps format l.ledger m.ledger
  host : l.host = m.host

namespace Ledgers

theorem keeps_answer {e : Event Engine} {l l' : Ledgers (fileStore format) host}
    {m : Ledgers journalStore host} (keeps : l.Keeps format m) (answered : l.Answer e l') :
    ∃ m' : Ledgers journalStore host, m.Answer e m' ∧ l'.Keeps format m' := by
  obtain ⟨ledger, same⟩ := keeps
  obtain ⟨op, ans⟩ := e
  cases op with
  | ledger op =>
    obtain ⟨run, unchanged⟩ := answered
    obtain ⟨journal, stepped, kept⟩ := safe_run (ledgerProgram_keeping format op _ _ ledger) run
    exact ⟨⟨journal, m.host⟩, ⟨stepped, rfl⟩, kept, unchanged.trans same⟩
  | begin outcomes key =>
    cases outcomes with
    | null =>
      obtain ⟨granted, rfl⟩ := answered
      exact ⟨m, ⟨granted, rfl⟩, ledger, same⟩
    | host =>
      obtain ⟨begun, unchanged⟩ := answered
      exact ⟨⟨m.ledger, l'.host⟩, ⟨same ▸ begun, rfl⟩, unchanged ▸ ledger, rfl⟩
  | record outcomes key terminal =>
    cases outcomes with
    | null =>
      obtain ⟨granted, rfl⟩ := answered
      exact ⟨m, ⟨granted, rfl⟩, ledger, same⟩
    | host =>
      obtain ⟨recorded, unchanged⟩ := answered
      exact ⟨⟨m.ledger, l'.host⟩, ⟨same ▸ recorded, rfl⟩, unchanged ▸ ledger, rfl⟩
  | _ =>
    obtain rfl := answered
    exact ⟨m, rfl, ledger, same⟩

theorem keeps_abandon {op : EngineOp} {l l' : Ledgers (fileStore format) host}
    {m : Ledgers journalStore host} (keeps : l.Keeps format m) (abandoned : l.Abandon op l') :
    ∃ m' : Ledgers journalStore host, m.Abandon op m' ∧ l'.Keeps format m' := by
  obtain ⟨ledger, same⟩ := keeps
  cases op with
  | ledger op =>
    obtain ⟨stopped, unchanged⟩ := abandoned
    obtain ⟨ans, journal, stepped, kept⟩ :=
      safe_stop (ledgerProgram_keeping format op _ _ ledger) stopped
    exact ⟨⟨journal, m.host⟩, ⟨⟨ans, stepped⟩, rfl⟩, kept, unchanged.trans same⟩
  | begin outcomes key =>
    cases outcomes with
    | null =>
      obtain rfl := abandoned
      exact ⟨m, rfl, ledger, same⟩
    | host =>
      rcases abandoned with rfl | ⟨ans, begun, unchanged⟩
      · exact ⟨m, .inl rfl, ledger, same⟩
      · exact ⟨⟨m.ledger, l'.host⟩, .inr ⟨ans, same ▸ begun, rfl⟩, unchanged ▸ ledger, rfl⟩
  | record outcomes key terminal =>
    cases outcomes with
    | null =>
      obtain rfl := abandoned
      exact ⟨m, rfl, ledger, same⟩
    | host =>
      rcases abandoned with rfl | ⟨ans, recorded, unchanged⟩
      · exact ⟨m, .inl rfl, ledger, same⟩
      · exact ⟨⟨m.ledger, l'.host⟩, .inr ⟨ans, same ▸ recorded, rfl⟩, unchanged ▸ ledger, rfl⟩
  | _ =>
    obtain rfl := abandoned
    exact ⟨m, rfl, ledger, same⟩

theorem keeps_loses {l l' : Ledgers (fileStore format) host} {m : Ledgers journalStore host}
    (keeps : l.Keeps format m) (lost : l.Loses l') :
    ∃ m' : Ledgers journalStore host, m.Loses m' ∧ l'.Keeps format m' := by
  obtain ⟨journal, lost', kept⟩ := loses_keeps keeps.ledger lost.1
  exact ⟨⟨journal, m.host⟩, ⟨lost', rfl⟩, kept, lost.2.trans keeps.host⟩

end Ledgers

variable [DecidableEq Id]

/-- The same lock over ledgers that keep each other. -/
structure World.Keeps (format : JsonLines LedgerRecord) (w : World Id (fileStore format) host)
    (v : World Id journalStore host) : Prop where
  ledgers : w.ledgers.Keeps format v.ledgers
  holder : w.holder = v.holder

namespace World

theorem keeps_release {w : World Id (fileStore format) host} {v : World Id journalStore host}
    (keeps : w.Keeps format v) (id : Id) : (w.release id).Keeps format (v.release id) := by
  unfold release
  rw [← keeps.holder]
  split
  · exact ⟨keeps.ledgers, rfl⟩
  · exact keeps

omit [DecidableEq Id] in
theorem keeps_with {w : World Id (fileStore format) host} {v : World Id journalStore host}
    (keeps : w.Keeps format v) {l : Ledgers (fileStore format) host} {m : Ledgers journalStore host}
    (keeps' : l.Keeps format m) :
    ({ w with ledgers := l } : World Id _ _).Keeps format { v with ledgers := m } :=
  ⟨keeps', keeps.holder⟩

theorem keeps_answer {id : Id} {e : Event Engine} {w w' : World Id (fileStore format) host}
    {v : World Id journalStore host} (keeps : w.Keeps format v) (answered : w.Answer id e w') :
    ∃ v', v.Answer id e v' ∧ w'.Keeps format v' := by
  unfold Answer at answered ⊢
  split at answered
  next =>
    obtain ⟨free, rfl⟩ := answered
    exact ⟨_, ⟨keeps.holder ▸ free, rfl⟩, keeps.ledgers, rfl⟩
  next =>
    obtain rfl := answered
    exact ⟨v.release id, rfl, keeps_release keeps id⟩
  next =>
    obtain ⟨ledgers, kept, keeps'⟩ := Ledgers.keeps_answer keeps.ledgers answered.1
    exact ⟨⟨ledgers, v.holder⟩, ⟨kept, rfl⟩, keeps', answered.2.trans keeps.holder⟩

/-- The file refines the journal, whatever the host. -/
theorem file_refines_journal :
    Refines (shared Id (fileStore format) host) (shared Id journalStore host)
      (World.Keeps format) where
  init := by
    refine ⟨⟨.inr ⟨[], rfl, List.not_mem_nil, fun _ => rfl, Nat.le_refl _, Nat.zero_le _⟩, rfl⟩, rfl⟩
  answer _ _ _ _ _ keeps answered := keeps_answer keeps answered
  abandon := by
    rintro id op w _ v keeps ⟨ledgers, abandoned, rfl⟩
    obtain ⟨ledgers', abandoned', keeps'⟩ := Ledgers.keeps_abandon keeps.ledgers abandoned
    exact ⟨_, ⟨ledgers', abandoned', rfl⟩, keeps_release (keeps_with keeps keeps') id⟩
  outside := by
    rintro w w' v keeps ⟨lost, unchanged⟩
    obtain ⟨ledgers, lost', keeps'⟩ := Ledgers.keeps_loses keeps.ledgers lost
    exact ⟨⟨ledgers, v.holder⟩, ⟨lost', rfl⟩, keeps', unchanged.trans keeps.holder⟩

end World

/-- **Refinement**: every run of the engines on the ledger file is a run of their phases
on the journal, with the same log. -/
theorem engines_refine {log : Log Id} {c : Config engines (World.shared Id (fileStore format) host)}
    (run : Config.Run log c) :
    ∃ c' : Config phases (World.shared Id journalStore host), Config.Run log c' ∧
      World.Keeps format c.shared c'.shared ∧
      ∀ id, Life.Rel (fun p q => p.1 = q.1 ∧
        p.2.Follows (Phase.Step p.1.outcomes) (fun _ φ => φ = .idle) q.2)
          (c.thread id) (c'.thread id) := by
  obtain ⟨d, run', threads, keeps⟩ := refine_run World.file_refines_journal run
  obtain ⟨c', run'', related⟩ := simulate (programs_follow Call.body_follows) run'
  refine ⟨c', run'', related.shared ▸ keeps, fun id => ?_⟩
  rw [← threads]
  exact related.threads id

end

end Praefectus
