import Praefectus.System.Consistency

/-!
# Stored terminals are stable

Once the append of a terminal has returned, the terminal stays the last one of its
operation, unless it says that the outcome was interrupted: then a terminal that the
host recorded may follow it.
-/

namespace Praefectus

open Prog

variable {Id : Type} {host : Host}

/-- The host answered that the state of the acknowledgement is recorded for its key. -/
def HostRecorded (log : Log Id) (acknowledgement : ActionAck) : Prop :=
  ∃ id outcomes terminal,
    (.did id ⟨.begin outcomes acknowledgement.key, .ok (.recorded terminal)⟩ :
      Entry Engine Id Call) ∈ log ∧ acknowledgement.state = .terminal terminal

/-- What may follow a stored terminal in the ledger. -/
def MayFollow (log : Log Id) (acknowledgement later : ActionAck) : Prop :=
  acknowledgement.isInterrupted = true ∧ HostRecorded log later

/-- The terminal is on disk, and what follows it may do so. -/
def Settled (log : Log Id) (j : Journal LedgerRecord) (acknowledgement : ActionAck) : Prop :=
  ∃ before after, j.records = before ++ .terminal acknowledgement :: after ∧
    before.length < j.synced ∧
    ∀ later, .terminal later ∈ after → later.operationId = acknowledgement.operationId →
      MayFollow log acknowledgement later

theorem mayFollow_grows {log : Log Id} {acknowledgement later : ActionAck}
    (follows : MayFollow log acknowledgement later) (e : Entry Engine Id Call) :
    MayFollow (log ++ [e]) acknowledgement later := by
  obtain ⟨interrupted, id, outcomes, terminal, member, state⟩ := follows
  exact ⟨interrupted, id, outcomes, terminal, List.mem_append_left _ member, state⟩

section

variable {log : Log Id} {j j' : Journal LedgerRecord} {acknowledgement : ActionAck}

theorem settled_grows (settled : Settled log j acknowledgement) (e : Entry Engine Id Call) :
    Settled (log ++ [e]) j acknowledgement := by
  obtain ⟨before, after, records, durable, follows⟩ := settled
  exact ⟨before, after, records, durable, fun later member same =>
    mayFollow_grows (follows later member same) e⟩

theorem settled_same (settled : Settled log j acknowledgement) (records : j'.records = j.records)
    (synced : j.synced ≤ j'.synced) : Settled log j' acknowledgement := by
  obtain ⟨before, after, whole, durable, follows⟩ := settled
  exact ⟨before, after, records.trans whole, Nat.lt_of_lt_of_le durable synced, follows⟩

theorem settled_append (settled : Settled log j acknowledgement) {record : LedgerRecord}
    (records : j'.records = j.records ++ [record]) (synced : j.synced ≤ j'.synced)
    (follows : ∀ later, record = .terminal later →
      later.operationId = acknowledgement.operationId → MayFollow log acknowledgement later) :
    Settled log j' acknowledgement := by
  obtain ⟨before, after, whole, durable, earlier⟩ := settled
  refine ⟨before, after ++ [record], ?_, Nat.lt_of_lt_of_le durable synced, ?_⟩
  · rw [records, whole, List.append_assoc, List.cons_append]
  · intro later member same
    rcases List.mem_append.mp member with member | member
    · exact earlier later member same
    · exact follows later (List.mem_singleton.mp member).symm same

theorem settled_take (settled : Settled log j acknowledgement) {kept : Nat}
    (records : j'.records = j.records.take kept) (reach : j.synced ≤ kept)
    (synced : j'.synced = j.synced) : Settled log j' acknowledgement := by
  obtain ⟨before, after, whole, durable, follows⟩ := settled
  obtain ⟨rest, enough⟩ : ∃ rest, kept = before.length + (rest + 1) :=
    ⟨kept - before.length - 1, by omega⟩
  refine ⟨before, after.take rest, ?_, by omega, fun later member same =>
    follows later (List.mem_of_mem_take member) same⟩
  rw [records, whole, enough, List.take_length_add_append, List.take_succ_cons]

/-- A stored terminal is the last one of its operation, or one follows it that may. -/
theorem settled_last (settled : Settled log j acknowledgement) {last : ActionAck}
    (found : (scan acknowledgement.operationId j.records).2 = some last) :
    last = acknowledgement ∨ MayFollow log acknowledgement last := by
  obtain ⟨before, after, whole, _, follows⟩ := settled
  rw [whole, List.append_cons, scan_terminal_append, scan_concat_terminal] at found
  rcases later : (scan acknowledgement.operationId after).2 with _ | other
  · rw [later] at found
    exact .inl (Option.some.inj found).symm
  · rw [later] at found
    obtain rfl := Option.some.inj found
    exact .inr (follows other (scan_terminal_mem later) (scan_terminal_some.mp later).1)

/-- There is a terminal of the operation on disk. -/
theorem settled_durable (settled : Settled log j acknowledgement) :
    .terminal acknowledgement ∈ j.durable := by
  obtain ⟨before, after, whole, durable, _⟩ := settled
  rw [Journal.durable, whole, List.mem_take_iff_getElem]
  refine ⟨before.length, ?_, ?_⟩
  · simp only [List.length_append, List.length_cons]
    omega
  · simp

theorem settled_terminal (settled : Settled log j acknowledgement) {operationId : String}
    (same : acknowledgement.operationId = operationId)
    (none : ∀ record ∈ j.durable, record.isTerminalOf operationId = false) : False := by
  have terminal := none _ (settled_durable settled)
  rw [LedgerRecord.isTerminalOf, decide_eq_false_iff_not] at terminal
  exact terminal same

end

/-! ### Appends of the call at the desk -/

/-- The decision a call acts on is one that the host gave it. -/
def Asked (log : Log Id) (seat : Seat Id) : Prop :=
  match seat.phase with
  | .consulted _ key decision _ _ =>
    (.did seat.id ⟨.begin seat.outcomes key, .ok decision⟩ : Entry Engine Id Call) ∈ log
  | _ => True

/-- A call appends another terminal only after an interrupted one, and then the one that
the host recorded. -/
theorem append_follows {log : Log Id} {j : Journal LedgerRecord} {seat : Seat Id} {φ' : Phase}
    {acknowledgement later : ActionAck} {ans : Except ProtocolError Unit}
    (settled : Settled log j acknowledgement) (knows : Knows log j seat.phase)
    (asked : Asked log seat)
    (work : Phase.Work seat.outcomes seat.phase ⟨.ledger (.append (.terminal later)), ans⟩ φ')
    (same : later.operationId = acknowledgement.operationId) :
    MayFollow log acknowledgement later := by
  obtain ⟨id, outcomes, φ⟩ := seat
  have owned {key : OutcomeKey} (owns : Owns j key) (named : later.key = key) : False := by
    subst named
    exact settled_terminal settled same.symm fun record member =>
      owns.unsettled record (List.mem_of_mem_take member)
  have pending {key : OutcomeKey} (pending : Pending j key) (named : later.key = key) : False := by
    subst named
    exact settled_terminal settled same.symm pending.unsettled
  cases work with
  | claim _ claims => exact claims.elim
  | @settle session key decision fresh found _ resolves =>
    obtain ⟨_, operation, _, scanned, replaced⟩ := knows
    have named : later.key = key := by
      cases resolves with
      | recorded named => exact named
      | interrupted _ named => exact named
    have about : session.operationId = acknowledgement.operationId := by
      rw [← operation, ← named]
      exact same
    rw [about] at scanned
    cases found with
    | none =>
      refine (settled_terminal settled rfl fun record member => ?_).elim
      exact scan_terminal_none.mp scanned record (List.mem_of_mem_take member)
    | some old =>
      cases resolves with
      | recorded _ state =>
        have recorded : HostRecorded log later :=
          ⟨id, outcomes, _, named.symm ▸ asked, state⟩
        rcases settled_last settled scanned with rfl | ⟨interrupted, _⟩
        · exact ⟨(replaced _ rfl).1, recorded⟩
        · exact ⟨interrupted, recorded⟩
  | save | unsaved | retry => exact (owned knows.2.1 knows.2.2).elim
  | resave | lose => exact (pending knows.2.1 knows.2.2).elim

/-- Whatever a question of the call at the desk does to the ledger, a stored terminal
stays settled. -/
theorem settled_step {log : Log Id} {l l' : Ledgers journalStore host} {seat : Seat Id}
    {φ' : Phase} {op : JournalOp LedgerRecord} {ans ans' : Except ProtocolError op.Result}
    {acknowledgement : ActionAck} (settled : Settled log l.ledger acknowledgement)
    (base : Base log l.ledger) (knows : Knows log l.ledger seat.phase) (asked : Asked log seat)
    (work : Phase.Work seat.outcomes seat.phase ⟨.ledger op, ans⟩ φ')
    (step : l.ledger.Step op ans' l'.ledger) : Settled log l'.ledger acknowledgement := by
  cases op with
  | repairTail =>
    obtain ⟨records, synced, _⟩ := Journal.step_repair base.sound.glued step
    exact settled_same settled records (Nat.le_of_eq synced.symm)
  | records =>
    have whole : l.ledger.torn = false := by
      obtain ⟨id, outcomes, φ⟩ := seat
      cases work <;> exact knows
    obtain ⟨same, _⟩ := Journal.step_records base.sound.glued whole step
    rw [same]
    exact settled
  | append record =>
    obtain ⟨whole, _⟩ := work_append base knows work
    have follows (later : ActionAck) (terminal : record = .terminal later)
        (same : later.operationId = acknowledgement.operationId) :
        MayFollow log acknowledgement later := by
      subst terminal
      exact append_follows settled knows asked work same
    cases ans' with
    | ok =>
      rw [Journal.step_append_ok base.sound.glued whole step]
      refine settled_append settled rfl ?_ follows
      have within := base.sound.within
      simp only [Journal.sync, Journal.push, List.length_append]
      omega
    | error e =>
      obtain ⟨records | records, synced, _⟩ :=
        Journal.step_append_error base.sound.glued whole step
      · exact settled_same settled records (Nat.le_of_eq synced.symm)
      · exact settled_append settled records (Nat.le_of_eq synced.symm) follows

namespace Desk

/-- Every stored terminal is settled, and decisions are what the host said. -/
structure Stable (log : Log Id) (d : Desk Id host) : Prop where
  settled : ∀ acknowledgement, .terminal acknowledgement ∈ appended log →
    Settled log d.ledgers.ledger acknowledgement
  asked : ∀ seat ∈ d.seat, Asked log seat

theorem asked_grows {log : Log Id} {seat : Seat Id} (asked : Asked log seat)
    (e : Entry Engine Id Call) : Asked (log ++ [e]) seat := by
  obtain ⟨id, outcomes, φ⟩ := seat
  cases φ with
  | consulted => exact List.mem_append_left _ asked
  | _ => trivial

theorem asked_work {log : Log Id} {id : Id} {outcomes : Outcomes} {φ φ' : Phase}
    {e : Event Engine} (work : Phase.Work outcomes φ e φ') :
    Asked (log ++ [.did id e]) ⟨id, outcomes, φ'⟩ := by
  cases work with
  | resolve | consult => exact List.mem_append_right _ List.mem_cons_self
  | repair ans | claim _ _ ans | settle _ ans => cases ans <;> trivial
  | _ => trivial

/-- Whatever the call at the desk asks, a stored terminal stays settled. -/
theorem settled_work {log : Log Id} {l l' : Ledgers journalStore host} {seat : Seat Id}
    {φ' : Phase} {e : Event Engine} {acknowledgement : ActionAck}
    (settled : Settled log l.ledger acknowledgement) (base : Base log l.ledger)
    (knows : Knows log l.ledger seat.phase) (asked : Asked log seat)
    (work : Phase.Work seat.outcomes seat.phase e φ') (answered : l.Answer e l') :
    Settled log l'.ledger acknowledgement := by
  obtain ⟨id, outcomes, φ⟩ := seat
  obtain ⟨op, ans⟩ := e
  cases op with
  | ledger op => exact settled_step settled base knows asked work answered.1
  | begin outcomes key =>
    rw [answer_host (.inl ⟨_, _, rfl⟩) answered]
    exact settled
  | record outcomes key terminal =>
    rw [answer_host (.inr ⟨_, _, _, rfl⟩) answered]
    exact settled
  | dispatch =>
    obtain rfl : l' = l := answered
    exact settled
  | _ => cases work

/-- Nor does a call that dies change one. -/
theorem settled_crash {log : Log Id} {l l' : Ledgers journalStore host} {seat : Seat Id}
    {φ' : Phase} {op : EngineOp} {ans : op.Answer} {acknowledgement : ActionAck}
    (settled : Settled log l.ledger acknowledgement) (base : Base log l.ledger)
    (knows : Knows log l.ledger seat.phase) (asked : Asked log seat)
    (work : Phase.Work seat.outcomes seat.phase ⟨op, ans⟩ φ') (abandoned : l.Abandon op l') :
    Settled log l'.ledger acknowledgement := by
  obtain ⟨id, outcomes, φ⟩ := seat
  cases op with
  | ledger op =>
    obtain ⟨⟨ans', step⟩, _⟩ := abandoned
    exact settled_step settled base knows asked work step
  | begin outcomes key =>
    rw [abandon_host (.inl ⟨_, _, rfl⟩) abandoned]
    exact settled
  | record outcomes key terminal =>
    rw [abandon_host (.inr ⟨_, _, _, rfl⟩) abandoned]
    exact settled
  | dispatch =>
    obtain rfl : l' = l := abandoned
    exact settled
  | _ => cases work

/-- A terminal whose append returned is settled. -/
theorem settled_stored {log : Log Id} {l l' : Ledgers journalStore host} {outcomes : Outcomes}
    {φ φ' : Phase} {acknowledgement : ActionAck} (base : Base log l.ledger)
    (knows : Knows log l.ledger φ)
    (work : Phase.Work outcomes φ ⟨.ledger (.append (.terminal acknowledgement)), .ok ()⟩ φ')
    (answered : l.Answer ⟨.ledger (.append (.terminal acknowledgement)), .ok ()⟩ l') :
    Settled log l'.ledger acknowledgement := by
  obtain ⟨whole, _⟩ := work_append base knows work
  rw [Journal.step_append_ok base.sound.glued whole answered.1]
  refine ⟨l.ledger.records, [], rfl, ?_, fun _ member => nomatch member⟩
  simp only [Journal.sync, Journal.push, List.length_append, List.length_singleton]
  omega

theorem stored_terminal {e : Entry Engine Id Call} {acknowledgement : ActionAck}
    (stored : stored? e = some (.terminal acknowledgement)) :
    ∃ id, e = .did id ⟨.ledger (.append (.terminal acknowledgement)), .ok ()⟩ := by
  unfold stored? at stored
  split at stored
  · obtain rfl := Option.some.inj stored
    exact ⟨_, rfl⟩
  · contradiction

/-- A move that leaves the ledger alone and stores nothing. -/
theorem stable_quiet {log : Log Id} {ledgers : Ledgers journalStore host}
    {seat seat' : Option (Seat Id)} (stable : Stable log ⟨ledgers, seat⟩)
    {e : Entry Engine Id Call} (unstored : stored? e = none)
    (asked : ∀ next ∈ seat', Asked (log ++ [e]) next) : Stable (log ++ [e]) ⟨ledgers, seat'⟩ where
  settled acknowledgement member := by
    rw [appended_quiet unstored] at member
    exact settled_grows (stable.settled acknowledgement member) e
  asked := asked

theorem stable_move {log : Log Id} {d d' : Desk Id host} {e : Entry Engine Id Call}
    (invariant : d.Invariant log) (stable : d.Stable log) (move : Move d e d') :
    d'.Stable (log ++ [e]) := by
  have base : Base log d.ledgers.ledger := ⟨invariant.sound, invariant.tallied⟩
  have still (e : Entry Engine Id Call) (seat : Seat Id) (member : seat ∈ d.seat) :
      Asked (log ++ [e]) seat :=
    asked_grows (stable.asked seat member) e
  have free (e : Entry Engine Id Call) :
      ∀ seat ∈ (none : Option (Seat Id)), Asked (log ++ [e]) seat := fun _ none => nomatch none
  cases move with
  | started | ended | refused | died => exact stable_quiet stable rfl (still _)
  | look look => exact stable_quiet stable (look_unstored look) (still _)
  | lock =>
    refine stable_quiet stable rfl ?_
    rintro _ ⟨rfl⟩
    trivial
  | release | leave => exact stable_quiet stable rfl (free _)
  | @work l l' id outcomes φ φ' e work answered =>
    have knows := invariant.knows _ rfl
    refine ⟨fun acknowledgement member => ?_, ?_⟩
    · rw [appended_concat] at member
      rcases List.mem_append.mp member with member | member
      · exact settled_grows (settled_work (stable.settled _ member) base knows
          (stable.asked _ rfl) work answered) _
      · obtain ⟨_, same⟩ := stored_terminal (Option.mem_toList.mp member)
        cases same
        exact settled_grows (settled_stored base knows work answered) _
    · rintro _ ⟨rfl⟩
      exact asked_work work
  | crash work abandoned =>
    refine ⟨fun acknowledgement member => ?_, free _⟩
    rw [appended_quiet rfl] at member
    exact settled_grows (settled_crash (stable.settled _ member) base (invariant.knows _ rfl)
      (stable.asked _ rfl) work abandoned) _
  | loses lost =>
    refine ⟨fun acknowledgement member => ?_, free _⟩
    rw [appended_quiet rfl] at member
    obtain ⟨kept, reach, records, synced, _⟩ := Journal.loses_take base.sound.glued lost.1
    exact settled_grows (settled_take (stable.settled _ member) records reach synced) _

theorem stable_run {log : Log Id} {d : Desk Id host} (run : Run log d) : d.Stable log := by
  refine Reaches.invariant (fun log (d : Desk Id host) => d.Stable log) ?_ ?_ run
  · exact ⟨(fun _ member => nomatch member), (fun _ none => nomatch none)⟩
  · exact fun _ _ _ _ before stable move => stable_move (invariant_run before) stable move

end Desk

/-! ### Reports -/

/-- The operation a call reports on. -/
def Outcome.operationId : Outcome → String
  | .executed key _ => key.operationId
  | .queried operationId _ => operationId

def Outcome.isOk : Outcome → Bool
  | .executed _ (.ok _) | .queried _ (.ok _) => true
  | _ => false

/-- The call returned the acknowledgement; an execution may mark it as replayed. -/
def Outcome.Tells (acknowledgement : ActionAck) : Outcome → Prop
  | .executed _ (.ok report) => ∃ replayed,
    report.acknowledgements.getLast? = some { acknowledgement with replayed := replayed }
  | .queried _ (.ok found) => found = some acknowledgement
  | _ => False

/-- An outcome in which a session tells an acknowledgement. -/
theorem tells_outcome {session : Session} {acknowledgement : ActionAck} {outcome : Outcome}
    (tells : session.Tells acknowledgement outcome) :
    session.operationId = outcome.operationId ∧ outcome.Tells acknowledgement := by
  cases tells with
  | executed replayed last => exact ⟨rfl, replayed, last⟩
  | queried => exact ⟨rfl, rfl⟩

/-- A call that returns no error tells the last terminal of its operation, or there is
none on disk. -/
theorem reports_current {log : Log Id} {j : Journal LedgerRecord} {φ : Phase} {outcome : Outcome}
    (knows : Knows log j φ) (reports : φ.Reports outcome) (succeeded : outcome.isOk = true) :
    (∀ record ∈ j.durable, record.isTerminalOf outcome.operationId = false) ∨
      ∃ current, outcome.Tells current ∧
        (scan outcome.operationId j.records).2 = some current := by
  have told {session : Session} {current : ActionAck} (tells : session.Tells current outcome)
      (found : (scan session.operationId j.records).2 = some current) :
      ∃ current, outcome.Tells current ∧
        (scan outcome.operationId j.records).2 = some current := by
    obtain ⟨same, tells⟩ := tells_outcome tells
    exact ⟨current, tells, same ▸ found⟩
  cases reports with
  | failed _ fails => cases fails <;> contradiction
  | missing none =>
    obtain ⟨_, rfl⟩ := knows
    refine .inl fun record member => ?_
    exact scan_terminal_none.mp (congrArg Prod.snd none) record (List.mem_of_mem_take member)
  | replayed found _ tells =>
    obtain ⟨_, rfl⟩ := knows
    exact .inr (told tells found)
  | kept _ tells => exact .inr (told tells knows.2.2.2.1)
  | @answered session _ stored _ tells =>
    cases stored with
    | true => exact .inr (told tells knows)
    | false => exact .inl ((tells_outcome tells).1 ▸ knows)

/-- A call at the desk that returns no error tells a settled terminal or one that may
follow it. -/
theorem settled_reported {log : Log Id} {j : Journal LedgerRecord} {φ : Phase}
    {outcome : Outcome} {acknowledgement : ActionAck} (settled : Settled log j acknowledgement)
    (knows : Knows log j φ) (reports : φ.Reports outcome) (succeeded : outcome.isOk = true)
    (same : outcome.operationId = acknowledgement.operationId) :
    ∃ current, outcome.Tells current ∧
      (current = acknowledgement ∨ MayFollow log acknowledgement current) := by
  rcases reports_current knows reports succeeded with none | ⟨current, tells, found⟩
  · exact (settled_terminal settled same.symm none).elim
  · exact ⟨current, tells, settled_last settled (same ▸ found)⟩

theorem mayFollow_append {log : Log Id} {acknowledgement current : ActionAck}
    (follows : MayFollow log acknowledgement current) (later : Log Id) :
    MayFollow (log ++ later) acknowledgement current := by
  obtain ⟨interrupted, id, outcomes, terminal, member, state⟩ := follows
  exact ⟨interrupted, id, outcomes, terminal, List.mem_append_left _ member, state⟩

/-- **Stability**: once the append of a terminal has returned, each later call for its
operation that returns no error returns that terminal. Only an interrupted outcome may give
way, and only to a terminal that the host said it has recorded. -/
theorem terminal_stable [DecidableEq Id] {reader : LedgerReader} {log later : Log Id} {id id' : Id}
    {c : Config engines (World.shared Id (fileStore reader.format) host)}
    {acknowledgement : ActionAck} {outcome : Outcome}
    (run : Config.Run
      (log ++ .did id ⟨.ledger (.append (.terminal acknowledgement)), .ok ()⟩ :: later) c)
    (returned : .did id' ⟨.release outcome, ()⟩ ∈ later) (succeeded : outcome.isOk = true)
    (same : outcome.operationId = acknowledgement.operationId) :
    ∃ current, outcome.Tells current ∧ (current = acknowledgement ∨
      acknowledgement.isInterrupted = true ∧ HostRecorded
        (log ++ .did id ⟨.ledger (.append (.terminal acknowledgement)), .ok ()⟩ :: later)
        current) := by
  obtain ⟨d, run', _⟩ := engines_serial run
  obtain ⟨between, rest, rfl⟩ := List.append_of_mem returned
  -- the run up to the moment the call releases the lock
  rw [← List.cons_append, ← List.append_assoc] at run' ⊢
  obtain ⟨d', d'', before, moved⟩ := Reaches.at_move run'
  have stored : .terminal acknowledgement ∈ appended
      (log ++ .did id ⟨.ledger (.append (.terminal acknowledgement)), .ok ()⟩ :: between) := by
    rw [List.append_cons, appended, List.filterMap_append, List.filterMap_append]
    simp [stored?]
  have settled := (Desk.stable_run before).settled acknowledgement stored
  cases moved with
  | look look => exact look.elim
  | work work => cases work
  | release reports =>
    obtain ⟨current, tells, follows⟩ := settled_reported settled
      ((Desk.invariant_run before).knows _ rfl) reports succeeded same
    exact ⟨current, tells, follows.imp_right fun follows => mayFollow_append follows _⟩

def isReturned (operationId : String) : Entry Engine Nat Call → Bool
  | .did _ ⟨.release outcome, ()⟩ => outcome.isOk && decide (outcome.operationId = operationId)
  | _ => false

/-- The entry stores a terminal of an operation that a later call returns. -/
def isStoredAndReturned : Log Nat → Bool
  | e :: later =>
    match stored? e with
    | some (.terminal acknowledgement) => later.any (isReturned acknowledgement.operationId)
    | _ => false
  | [] => false

theorem stored_and_returned {log : Log Nat} (found : isStoredAndReturned log = true) :
    ∃ id id' acknowledgement outcome later,
      log = .did id ⟨.ledger (.append (.terminal acknowledgement)), .ok ()⟩ :: later ∧
      .did id' ⟨.release outcome, ()⟩ ∈ later ∧ outcome.isOk = true ∧
      outcome.operationId = acknowledgement.operationId := by
  cases log with
  | nil => contradiction
  | cons e later =>
    simp only [isStoredAndReturned] at found
    split at found
    next acknowledgement stored =>
      obtain ⟨id, rfl⟩ := Desk.stored_terminal stored
      obtain ⟨e', member, returned⟩ := List.any_eq_true.mp found
      unfold isReturned at returned
      split at returned
      next id' outcome =>
        obtain ⟨succeeded, same⟩ := Bool.and_eq_true_iff.mp returned
        exact ⟨id, id', acknowledgement, outcome, later, rfl, member, succeeded,
          of_decide_eq_true same⟩
      next => contradiction
    next => contradiction

/-- A terminal that is stored by an execution and returned by it and by a query. -/
theorem terminal_stable_bench :
    ∃ (log later : Log Nat) (id : Nat) (acknowledgement : ActionAck) (outcome : Outcome)
      (c : Config engines (World.shared Nat (fileStore objectReader.format) memoryHost)),
      Config.Run
        (log ++ .did id ⟨.ledger (.append (.terminal acknowledgement)), .ok ()⟩ :: later) c ∧
      ∃ current, outcome.Tells current ∧ (current = acknowledgement ∨
        acknowledgement.isInterrupted = true ∧ HostRecorded
          (log ++ .did id ⟨.ledger (.append (.terminal acknowledgement)), .ok ()⟩ :: later)
          current) := by
  obtain ⟨c, run⟩ := @Bench.run objectReader.format
    [(Bench.executes .host, 100), (Bench.queries .host, 100)] []
  change Config.Run (Bench.log _ Bench.new) c at run
  have found : isStoredAndReturned ((Bench.log [(Bench.executes .host, 100),
      (Bench.queries .host, 100)] Bench.new).drop 30) = true := by decide +kernel
  obtain ⟨id, id', acknowledgement, outcome, later, same, member, succeeded, about⟩ :=
    stored_and_returned found
  rw [← List.take_append_drop 30 (Bench.log _ Bench.new), same] at run
  exact ⟨_, later, id, acknowledgement, outcome, c, run,
    terminal_stable run member succeeded about⟩

end Praefectus
