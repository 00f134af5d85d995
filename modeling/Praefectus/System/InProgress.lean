import Praefectus.System.Stability

/-!
# Operations in progress

A call that appends a claim holds the lock until it returns or dies. So whoever finds
that claim without a terminal finds it after the call has ended.
-/

namespace Praefectus

open Prog

variable {Id : Type} {host : Host}

/-- The call asks for the append of the record, whether or not it lives to see the answer. -/
inductive Writes (id : Id) (record : LedgerRecord) : Entry Engine Id Call → Prop where
  | did (ans : Except ProtocolError Unit) : Writes id record (.did id ⟨.ledger (.append record), ans⟩)
  | died : Writes id record (.died id (.ledger (.append record)))

/-- The call gives back the lock, as it returns or as it dies. -/
inductive Ends (id : Id) : Entry Engine Id Call → Prop where
  | returned (outcome : Outcome) : Ends id (.did id ⟨.release outcome, ()⟩)
  | died (op : EngineOp) : Ends id (.died id op)

/-- The call asked for the append of a claim of the operation and has not ended since. -/
def InProgress (log : Log Id) (id : Id) (operationId : String) : Prop :=
  Since (fun e => (∃ record, Writes id record e ∧ record.isClaimOf operationId = true) ∧ ¬ Ends id e)
    (Ends id) log

/-- The call appended a claim of the operation since it last took the lock. -/
def Claimed (log : Log Id) (id : Id) (operationId : String) : Prop :=
  Since (fun e => ∃ record, e = .did id ⟨.ledger (.append record), .ok ()⟩ ∧
      record.isClaimOf operationId = true)
    (fun e => ∃ deadline, e = .did id ⟨.lock deadline, .ok ()⟩) log

theorem inProgress_concat {log : Log Id} {e : Entry Engine Id Call} {id : Id} {operationId : String}
    (progress : InProgress (log ++ [e]) id operationId) :
    ¬ Ends id e ∧ (InProgress log id operationId ∨
      ∃ record, Writes id record e ∧ record.isClaimOf operationId = true) := by
  rcases since_concat.mp progress with ⟨writes, unended⟩ | ⟨earlier, unended⟩
  · exact ⟨unended, .inr writes⟩
  · exact ⟨unended, .inl earlier⟩

theorem claimed_concat {log : Log Id} {e : Entry Engine Id Call} {id : Id} {operationId : String}
    (claimed : Claimed log id operationId)
    (unlocked : ∀ deadline, e ≠ .did id ⟨.lock deadline, .ok ()⟩) :
    Claimed (log ++ [e]) id operationId :=
  since_concat.mpr (.inr ⟨claimed, fun ⟨deadline, same⟩ => unlocked deadline same⟩)

/-! ### Phases with a claim of their own -/

namespace Phase

/-- The session may have written a claim. -/
def isClaiming : Phase → Bool
  | .idle | .held _ | .whole _ | .reading .. | .consulted _ _ _ false _ => false
  | _ => true

/-- The key the session has claimed, while it may still append a terminal. -/
def claimedKey : Phase → Option OutcomeKey
  | .claimed key | .granted key _ | .saving key .. | .retrying key .. | .mended key ..
  | .consulted _ key _ true _ => some key
  | _ => none

variable {outcomes : Outcomes} {φ φ' : Phase} {e : Event Engine}

theorem work_claiming (work : Phase.Work outcomes φ e φ') (claiming : φ.isClaiming = true) :
    φ'.isClaiming = true := by
  cases work with
  | repair | read | unread | claim | consult | unconsulted => contradiction
  | settle _ ans => cases ans <;> rfl
  | _ => rfl

theorem work_claim {record : LedgerRecord} {ans : Except ProtocolError Unit}
    (work : Phase.Work outcomes φ ⟨.ledger (.append record), ans⟩ φ') {operationId : String}
    (claims : record.isClaimOf operationId = true) : φ'.isClaiming = true := by
  cases work with
  | claim _ _ ans => cases ans <;> rfl
  | _ => contradiction

theorem work_claimedKey (work : Phase.Work outcomes φ e φ') {key : OutcomeKey}
    (owned : φ'.claimedKey = some key) :
    φ.claimedKey = some key ∨ ∃ record, e = ⟨.ledger (.append record), .ok ()⟩ ∧
      record.isClaimOf key.operationId = true := by
  cases work with
  | repair ans | settle _ ans => cases ans <;> contradiction
  | claim _ claims ans =>
    cases ans with
    | ok =>
      obtain rfl := Option.some.inj owned
      exact .inr ⟨_, rfl, LedgerRecord.claims_isClaimOf claims⟩
    | error => contradiction
  | read | unread | ungranted | consult | unconsulted | unrecorded | save | unsaved | unmended
  | resave | lose => contradiction
  | _ => exact .inl owned

/-- A phase of Phase.Work asks for no lock. -/
theorem work_unlocked {deadline : Option Int64} {ans : Except ProtocolError Unit} :
    ¬ Phase.Work outcomes φ ⟨.lock deadline, ans⟩ φ' := by
  intro work
  cases work

end Phase

/-! ### The invariant -/

namespace Desk

/-- A claim in progress is that of the call at the desk. -/
structure Exclusive (log : Log Id) (d : Desk Id host) : Prop where
  progress : ∀ id operationId, InProgress log id operationId →
    ∃ seat ∈ d.seat, seat.id = id ∧ seat.phase.isClaiming = true
  claimed : ∀ seat ∈ d.seat, ∀ key, seat.phase.claimedKey = some key →
    Claimed log seat.id key.operationId

/-- A move that keeps the call at the desk, takes no lock and writes nothing. -/
theorem exclusive_quiet {log : Log Id} {d : Desk Id host} (exclusive : d.Exclusive log)
    {e : Entry Engine Id Call} (unwritten : ∀ id record, ¬ Writes id record e)
    (unlocked : ∀ id deadline, e ≠ .did id ⟨.lock deadline, .ok ()⟩) : d.Exclusive (log ++ [e]) where
  progress id operationId progress := by
    rcases (inProgress_concat progress).2 with progress | ⟨record, writes, _⟩
    · exact exclusive.progress id operationId progress
    · exact absurd writes (unwritten id record)
  claimed seat member key owned := claimed_concat (exclusive.claimed seat member key owned)
    (unlocked seat.id)

/-- A move after which the desk is free, and before which it was, or whose call ends. -/
theorem exclusive_free {log : Log Id} {d : Desk Id host} (exclusive : d.Exclusive log)
    {e : Entry Engine Id Call} {ledgers : Ledgers journalStore host}
    (ends : ∀ seat ∈ d.seat, Ends seat.id e)
    (unwritten : ∀ id record, Writes id record e → Ends id e) :
    Exclusive (log ++ [e]) ⟨ledgers, none⟩ where
  progress id operationId progress := by
    obtain ⟨unended, progress | ⟨record, writes, _⟩⟩ := inProgress_concat progress
    · obtain ⟨seat, member, rfl, _⟩ := exclusive.progress id operationId progress
      exact absurd (ends seat member) unended
    · exact absurd (unwritten id record writes) unended
  claimed _ member := nomatch member

theorem exclusive_move {log : Log Id} {d d' : Desk Id host} {e : Entry Engine Id Call}
    (exclusive : d.Exclusive log) (move : Move d e d') : d'.Exclusive (log ++ [e]) := by
  cases move with
  | started | ended | refused =>
    exact exclusive_quiet exclusive (fun _ _ writes => nomatch writes) fun _ _ same => nomatch same
  | look look =>
    refine exclusive_quiet exclusive (fun _ _ writes => ?_) fun _ _ same => ?_
    · cases writes
      exact look
    · cases same
      exact look
  | died _ away =>
    refine exclusive_quiet exclusive (fun _ _ writes => ?_) fun _ _ same => nomatch same
    cases writes
    rcases away with look | ⟨_, same⟩
    · exact look
    · contradiction
  | lock =>
    refine ⟨fun id operationId progress => ?_, ?_⟩
    · rcases (inProgress_concat progress).2 with progress | ⟨record, writes, _⟩
      · obtain ⟨_, member, _⟩ := exclusive.progress id operationId progress
        contradiction
      · contradiction
    · rintro _ ⟨rfl⟩ key owned
      contradiction
  | @work l l' id outcomes φ φ' e work answered =>
    refine ⟨fun id' operationId progress => ?_, ?_⟩
    · rcases (inProgress_concat progress).2 with progress | ⟨record, writes, claims⟩
      · obtain ⟨_, ⟨rfl⟩, rfl, claiming⟩ := exclusive.progress id' operationId progress
        exact ⟨_, rfl, rfl, Phase.work_claiming work claiming⟩
      · cases writes
        exact ⟨_, rfl, rfl, Phase.work_claim work claims⟩
    · rintro _ ⟨rfl⟩ key owned
      rcases Phase.work_claimedKey work owned with owned | ⟨record, rfl, claims⟩
      · refine claimed_concat (exclusive.claimed _ rfl key owned) ?_
        rintro deadline ⟨rfl⟩
        exact Phase.work_unlocked work
      · exact since_concat.mpr (.inl ⟨record, rfl, claims⟩)
  | release =>
    refine exclusive_free exclusive ?_ fun _ _ writes => nomatch writes
    rintro _ ⟨rfl⟩
    exact .returned _
  | leave | crash =>
    refine exclusive_free exclusive ?_ fun _ _ writes => ?_
    · rintro _ ⟨rfl⟩
      exact .died _
    · cases writes
      exact .died _
  | loses =>
    exact exclusive_free exclusive (fun _ member => nomatch member) fun _ _ writes => nomatch writes

theorem exclusive_run {log : Log Id} {d : Desk Id host} (run : Run log d) : d.Exclusive log := by
  refine Reaches.invariant (fun log (d : Desk Id host) => d.Exclusive log) ?_ ?_ run
  · exact ⟨(fun _ _ progress => (not_since_nil progress).elim), (fun _ member => nomatch member)⟩
  · exact fun _ _ _ _ _ exclusive move => exclusive_move exclusive move

/-- Only the call at the desk writes. -/
theorem writes_work {d d' : Desk Id host} {e : Entry Engine Id Call} {id : Id} {record : LedgerRecord}
    (move : Move d e d') (writes : Writes id record e) :
    ∃ outcomes φ φ' ans, d.seat = some ⟨id, outcomes, φ⟩ ∧
      Phase.Work outcomes φ ⟨.ledger (.append record), ans⟩ φ' := by
  cases writes with
  | did ans =>
    cases move with
    | look look => exact look.elim
    | work work => exact ⟨_, _, _, _, rfl, work⟩
  | died =>
    cases move with
    | died _ away =>
      rcases away with look | ⟨_, same⟩
      · exact look.elim
      · contradiction
    | leave away =>
      rcases away with look | ⟨_, same⟩
      · exact look.elim
      · contradiction
    | crash work => exact ⟨_, _, _, _, rfl, work⟩

end Desk

/-! ### Interrupted outcomes -/

/-- A recovery that writes an interrupted outcome writes the one the host recorded, or
finds no terminal. -/
theorem interrupted_unsettled {log : Log Id} {d : Desk Id host} (run : Desk.Run log d)
    {seat : Seat Id} (seated : d.seat = some seat) {acknowledgement : ActionAck} {φ' : Phase}
    {ans : Except ProtocolError Unit}
    (work : Phase.Work seat.outcomes seat.phase ⟨.ledger (.append (.terminal acknowledgement)), ans⟩ φ')
    (recovering : seat.phase.claimedKey = none) :
    seat.phase.isClaiming = false ∧ (HostRecorded log acknowledgement ∨
      ∀ earlier, .terminal earlier ∈ appended log →
        earlier.operationId ≠ acknowledgement.operationId) := by
  have invariant := Desk.invariant_run run
  have knows := invariant.knows seat seated
  have asked := (Desk.stable_run run).asked seat seated
  obtain ⟨id, outcomes, φ⟩ := seat
  cases work with
  | claim _ claims => exact claims.elim
  | save | unsaved | retry | resave | lose => contradiction
  | @settle session key decision fresh found _ resolves =>
    cases fresh with
    | true => contradiction
    | false =>
      refine ⟨rfl, ?_⟩
      cases resolves with
      | recorded named state => exact .inl ⟨id, outcomes, _, named.symm ▸ asked, state⟩
      | interrupted _ named =>
        refine .inr fun earlier member same => ?_
        obtain ⟨_, operation, _, none, _⟩ := knows
        have about : session.operationId = earlier.operationId := by
          rw [← operation, ← named]
          exact same.symm
        rw [about, scan_terminal_none] at none
        have terminal := none _ (List.mem_of_mem_take (invariant.sound.kept.subset member))
        rw [LedgerRecord.isTerminalOf, decide_eq_false_iff_not] at terminal
        exact terminal rfl

theorem claimedKey_names {outcomes : Outcomes} {φ φ' : Phase} {acknowledgement : ActionAck}
    {ans : Except ProtocolError Unit} {log : Log Id} {j : Journal LedgerRecord}
    (knows : Knows log j φ)
    (work : Phase.Work outcomes φ ⟨.ledger (.append (.terminal acknowledgement)), ans⟩ φ')
    {key : OutcomeKey} (owned : φ.claimedKey = some key) : acknowledgement.key = key := by
  cases work with
  | claim _ claims => exact claims.elim
  | @settle session key' decision fresh found _ resolves =>
    cases fresh with
    | false => contradiction
    | true =>
      obtain rfl := Option.some.inj owned
      cases resolves with
      | recorded named => exact named
      | interrupted _ named => exact named
  | save | unsaved | retry | resave | lose =>
    obtain rfl := Option.some.inj owned
    exact knows.2.2

/-- **No operation in progress is declared interrupted**: when a call writes a terminal, an
interrupted one or any other, for a claim that is not its own, every call that wrote a
claim of the operation has ended, and no terminal of the operation was stored, unless the
host said that it has recorded this one. -/
theorem interrupted_after_end [DecidableEq Id] {reader : LedgerReader} {log : Log Id} {id : Id}
    {e : Entry Engine Id Call} {c : Config engines (World.shared Id (fileStore reader.format) host)}
    {acknowledgement : ActionAck} (run : Config.Run (log ++ [e]) c)
    (writes : Writes id (.terminal acknowledgement) e)
    (recovering : ¬ Claimed log id acknowledgement.operationId) :
    (∀ id', ¬ InProgress log id' acknowledgement.operationId) ∧
      (HostRecorded log acknowledgement ∨ ∀ earlier, .terminal earlier ∈ appended log →
        earlier.operationId ≠ acknowledgement.operationId) := by
  obtain ⟨d', run', _⟩ := engines_serial run
  obtain ⟨d, before, move⟩ := run'.last
  obtain ⟨outcomes, φ, φ', ans, seated, work⟩ := Desk.writes_work move writes
  have exclusive := Desk.exclusive_run before
  have unclaimed : φ.claimedKey = none := by
    cases owned : φ.claimedKey with
    | none => rfl
    | some key =>
      have named := claimedKey_names ((Desk.invariant_run before).knows _ seated) work owned
      have claimed := exclusive.claimed _ seated key owned
      rw [← named] at claimed
      exact absurd claimed recovering
  obtain ⟨idle, unsettled⟩ := interrupted_unsettled before seated work unclaimed
  refine ⟨fun id' progress => ?_, unsettled⟩
  obtain ⟨seat, member, _, claiming⟩ := exclusive.progress id' _ progress
  obtain rfl := Option.some.inj (seated.symm.trans member)
  exact absurd claiming (idle ▸ Bool.false_ne_true)

/-! ### Recoveries on the bench -/

def isInterruptedBy (id : Nat) : Entry Engine Nat Call → Bool
  | .did id' ⟨.ledger (.append (.terminal acknowledgement)), .ok ()⟩ =>
    id' = id && acknowledgement.isInterrupted && acknowledgement.operationId = "operation-1"
  | _ => false

def isClaimBy (id : Nat) : Entry Engine Nat Call → Bool
  | .did id' ⟨.ledger (.append record), .ok ()⟩ => id' = id && record.isClaimOf "operation-1"
  | _ => false

/-- A schedule in which the query, the second call, writes an interrupted outcome. -/
def benchInterrupted (calls : List (Call × Nat)) (failures : List Bool) (length : Nat) : Bool :=
  let log := Bench.log calls { Bench.new with failures := failures }
  (log.drop length).head?.any (isInterruptedBy 1) && (log.take length).all (!isClaimBy 1 ·)

theorem benchInterrupted_run {calls : List (Call × Nat)} {failures : List Bool} {length : Nat}
    (found : benchInterrupted calls failures length = true) :
    ∃ (acknowledgement : ActionAck)
      (c : Config engines (World.shared Nat (fileStore objectReader.format) memoryHost)),
      Config.Run ((Bench.log calls { Bench.new with failures := failures }).take length ++
        [.did 1 ⟨.ledger (.append (.terminal acknowledgement)), .ok ()⟩]) c ∧
      acknowledgement.isInterrupted = true ∧ acknowledgement.operationId = "operation-1" ∧
      ¬ Claimed ((Bench.log calls { Bench.new with failures := failures }).take length) 1
        "operation-1" := by
  obtain ⟨c, run⟩ := @Bench.run objectReader.format calls failures
  simp only [benchInterrupted, Bool.and_eq_true] at found
  obtain ⟨writes, unclaimed⟩ := found
  rw [← List.take_append_drop length (Bench.log ..)] at run
  generalize (Bench.log calls { Bench.new with failures := failures }).take length = log at run unclaimed ⊢
  generalize (Bench.log calls { Bench.new with failures := failures }).drop length = rest at run writes
  have foreign : ¬ Claimed log 1 "operation-1" := by
    rintro ⟨before, _, after, rfl, ⟨record, rfl, claims⟩, _⟩
    have other := List.all_eq_true.mp unclaimed _ (List.mem_append_right _ List.mem_cons_self)
    simp [isClaimBy, claims] at other
  cases rest with
  | nil => contradiction
  | cons e rest =>
    simp only [List.head?_cons, Option.any_some, isInterruptedBy] at writes
    split at writes
    next id' acknowledgement =>
      simp only [Bool.and_eq_true, decide_eq_true_eq] at writes
      obtain ⟨⟨rfl, interrupted⟩, about⟩ := writes
      rw [List.append_cons] at run
      obtain ⟨c', run', _⟩ := Reaches.split run
      exact ⟨acknowledgement, c', run', interrupted, about, foreign⟩
    next => contradiction

/-- A query recovers the claim of an execution that died. -/
theorem interrupted_after_end_bench :
    ∃ (log : Log Nat) (acknowledgement : ActionAck)
      (c : Config engines (World.shared Nat (fileStore objectReader.format) memoryHost)),
      Config.Run (log ++ [.did 1 ⟨.ledger (.append (.terminal acknowledgement)), .ok ()⟩]) c ∧
      acknowledgement.isInterrupted = true ∧
      (∀ id', ¬ InProgress log id' acknowledgement.operationId) ∧
      (HostRecorded log acknowledgement ∨ ∀ earlier, .terminal earlier ∈ appended log →
        earlier.operationId ≠ acknowledgement.operationId) := by
  have found : benchInterrupted [(Bench.executes .null, 12), (Bench.queries .null, 100)] [] 20 =
      true := by decide +kernel
  obtain ⟨acknowledgement, c, run, interrupted, about, recovering⟩ := benchInterrupted_run found
  rw [← about] at recovering
  exact ⟨_, acknowledgement, c, run, interrupted, interrupted_after_end run (.did _) recovering⟩

def isReturnBy (id : Nat) : Entry Engine Nat Call → Bool
  | .did id' ⟨.release (.executed _ (.ok _)), ()⟩ => id' = id
  | _ => false

def isEndBy (id : Nat) : Entry Engine Nat Call → Bool
  | .did id' ⟨.release _, ()⟩ => id' = id
  | .died id' _ => id' = id
  | _ => false

/-- The call that appended the claim may as well have returned a report: it dispatched, and
both appends of its terminal failed. -/
theorem interrupted_after_report :
    ∃ (log : Log Nat) (acknowledgement : ActionAck)
      (c : Config engines (World.shared Nat (fileStore objectReader.format) memoryHost)),
      Config.Run (log ++ [.did 1 ⟨.ledger (.append (.terminal acknowledgement)), .ok ()⟩]) c ∧
      acknowledgement.isInterrupted = true ∧
      (∃ e ∈ log, isClaimBy 0 e = true) ∧ ¬ Claimed log 1 acknowledgement.operationId ∧
      (∃ e ∈ log, isReturnBy 0 e = true) ∧
      ∀ e ∈ log, isEndBy 0 e = true → isReturnBy 0 e = true := by
  let log := (Bench.log [(Bench.executes .null, 100), (Bench.queries .null, 100)]
    { Bench.new with failures := [false, true, true] }).take 41
  have facts : benchInterrupted [(Bench.executes .null, 100), (Bench.queries .null, 100)]
      [false, true, true] 41 = true ∧ (∃ e ∈ log, isClaimBy 0 e = true) ∧
      (∃ e ∈ log, isReturnBy 0 e = true) ∧ ∀ e ∈ log, isEndBy 0 e = true → isReturnBy 0 e = true := by
    decide +kernel
  obtain ⟨found, claims, returns, only⟩ := facts
  obtain ⟨acknowledgement, c, run, interrupted, about, recovering⟩ := benchInterrupted_run found
  rw [← about] at recovering
  exact ⟨log, acknowledgement, c, run, interrupted, claims, recovering, returns, only⟩

end Praefectus
