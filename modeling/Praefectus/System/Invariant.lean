import Praefectus.System.Desk

/-!
# The invariant of the desk

The records are consistent, what was stored stays, an operation is dispatched at most
once and only with a durable claim, and the call at the desk knows what its phase says.
-/

namespace Praefectus

open Prog

variable {Id : Type} {host : Host}

/-! ### What a log tells -/

/-- The record of an append that returned. -/
def stored? : Entry Engine Id Call → Option LedgerRecord
  | .did _ ⟨.ledger (.append record), .ok ()⟩ => some record
  | _ => none

/-- The records whose append returned, in order. -/
def appended (log : Log Id) : List LedgerRecord := log.filterMap stored?

def EngineOp.dispatches (operationId : String) : EngineOp → Bool
  | .dispatch key .. => key.operationId = operationId
  | _ => false

/-- A dispatch of the operation, whether or not the call lived to see its answer. -/
def isDispatchOf (operationId : String) : Entry Engine Id Call → Bool
  | .did _ e => e.op.dispatches operationId
  | .died _ op => op.dispatches operationId
  | _ => false

/-- How often an operation was dispatched. -/
def dispatches (operationId : String) (log : Log Id) : Nat := log.countP (isDispatchOf operationId)

theorem appended_concat (log : Log Id) (e : Entry Engine Id Call) :
    appended (log ++ [e]) = appended log ++ (stored? e).toList := by
  rw [appended, List.filterMap_append]
  cases found : stored? e <;> simp [appended, found]

theorem appended_quiet {log : Log Id} {e : Entry Engine Id Call} (unstored : stored? e = none) :
    appended (log ++ [e]) = appended log := by
  rw [appended_concat, unstored, Option.toList_none, List.append_nil]

theorem dispatches_concat (operationId : String) (log : Log Id) (e : Entry Engine Id Call) :
    dispatches operationId (log ++ [e]) =
      dispatches operationId log + if isDispatchOf operationId e then 1 else 0 := by
  rw [dispatches, List.countP_append, List.countP_singleton]
  rfl

theorem dispatches_quiet {operationId : String} {log : Log Id} {e : Entry Engine Id Call}
    (quiet : isDispatchOf operationId e = false) :
    dispatches operationId (log ++ [e]) = dispatches operationId log := by
  rw [dispatches_concat, quiet]
  rfl

/-! ### The ledger -/

/-- The records that are on disk. -/
def Journal.durable {R : Type} (j : Journal R) : List R := j.records.take j.synced

/-- A ledger that never glued a record to a fragment, is consistent, and keeps what was
stored in it. -/
structure Sound (stored : List LedgerRecord) (j : Journal LedgerRecord) : Prop where
  glued : j.glued = false
  within : j.synced ≤ j.records.length
  consistent : Consistent j.records
  kept : stored.Sublist j.durable

section

variable {stored : List LedgerRecord} {j j' : Journal LedgerRecord} {record : LedgerRecord}

theorem sound_repair (sound : Sound stored j) {ans : Except ProtocolError Unit}
    (step : j.Step .repairTail ans j') : Sound stored j' ∧ j'.durable = j.durable := by
  obtain ⟨records, synced, glued, _⟩ := Journal.step_repair sound.glued step
  have durable : j'.durable = j.durable := by
    rw [Journal.durable, Journal.durable, records, synced]
  refine ⟨⟨glued, ?_, ?_, durable ▸ sound.kept⟩, durable⟩
  · rw [records, synced]
    exact sound.within
  · rw [records]
    exact sound.consistent

theorem sound_append_ok (sound : Sound stored j) (whole : j.torn = false)
    (consistent : Consistent (j.records ++ [record]))
    (step : j.Step (.append record) (.ok ()) j') :
    Sound (stored ++ [record]) j' ∧ j'.records = j.records ++ [record] ∧ j'.torn = false ∧
      j'.durable = j.records ++ [record] := by
  obtain rfl := Journal.step_append_ok sound.glued whole step
  have all : (j.push record).sync.durable = j.records ++ [record] := List.take_length
  refine ⟨⟨sound.glued, Nat.le_refl _, consistent, ?_⟩, rfl, whole, all⟩
  rw [all]
  exact (sound.kept.trans (List.take_sublist _ _)).append (List.Sublist.refl _)

theorem sound_append_error (sound : Sound stored j) (whole : j.torn = false)
    (consistent : Consistent (j.records ++ [record])) {e : ProtocolError}
    (step : j.Step (.append record) (.error e) j') :
    Sound stored j' ∧ (j'.records = j.records ∨ j'.records = j.records ++ [record]) ∧
      j'.durable = j.durable := by
  obtain ⟨records, synced, glued⟩ := Journal.step_append_error sound.glued whole step
  obtain ⟨_, within, before, kept⟩ := sound
  have durable : j'.durable = j.durable := by
    rw [Journal.durable, Journal.durable, synced]
    rcases records with same | same <;> rw [same]
    exact List.take_append_of_le_length within
  refine ⟨⟨glued, ?_, ?_, durable ▸ kept⟩, records, durable⟩
  · rw [synced]
    rcases records with same | same <;> rw [same]
    · exact within
    · rw [List.length_append]
      omega
  · rcases records with same | same <;> rw [same]
    · exact before
    · exact consistent

theorem sound_loses (sound : Sound stored j) (lost : j.Loses j') :
    Sound stored j' ∧ j'.durable = j.durable := by
  obtain ⟨kept, reach, records, synced, glued⟩ := Journal.loses_take sound.glued lost
  have durable : j'.durable = j.durable := by
    rw [Journal.durable, Journal.durable, synced, records, List.take_take, Nat.min_eq_left reach]
  refine ⟨⟨glued, ?_, ?_, durable ▸ sound.kept⟩, durable⟩
  · rw [synced, records, List.length_take]
    have := sound.within
    omega
  · rw [records]
    exact consistent_take sound.consistent kept

theorem sound_append (sound : Sound stored j) (whole : j.torn = false)
    (consistent : Consistent (j.records ++ [record])) {ans : Except ProtocolError Unit}
    (step : j.Step (.append record) ans j') :
    Sound stored j' ∧ ∀ r ∈ j.durable, r ∈ j'.durable := by
  cases ans with
  | ok =>
    obtain ⟨⟨glued, within, consistent, kept⟩, _, _, durable⟩ :=
      sound_append_ok sound whole consistent step
    refine ⟨⟨glued, within, consistent, (List.sublist_append_left _ _).trans kept⟩, ?_⟩
    intro r member
    rw [durable]
    exact List.mem_append_left _ (List.mem_of_mem_take member)
  | error e =>
    obtain ⟨sound, _, durable⟩ := sound_append_error sound whole consistent step
    exact ⟨sound, fun r member => durable ▸ member⟩

end

/-! ### The dispatches -/

/-- An operation is dispatched at most once, and only with a claim on disk. -/
structure Tallied (log : Log Id) (durable : List LedgerRecord) : Prop where
  claimed : ∀ operationId, 0 < dispatches operationId log →
    ∃ record ∈ durable, record.isClaimOf operationId = true
  once : ∀ operationId, dispatches operationId log ≤ 1

theorem tallied_grows {log : Log Id} {durable durable' : List LedgerRecord}
    (tallied : Tallied log durable) (grown : ∀ record ∈ durable, record ∈ durable')
    {e : Entry Engine Id Call} (quiet : ∀ operationId, isDispatchOf operationId e = false) :
    Tallied (log ++ [e]) durable' := by
  have same (operationId : String) := @dispatches_quiet _ operationId log e (quiet operationId)
  refine ⟨fun operationId happened => ?_, fun operationId => same operationId ▸ tallied.once _⟩
  rw [same] at happened
  obtain ⟨record, member, claims⟩ := tallied.claimed operationId happened
  exact ⟨record, grown record member, claims⟩

theorem tallied_dispatch {log : Log Id} {durable : List LedgerRecord}
    (tallied : Tallied log durable) {key : OutcomeKey}
    (fresh : dispatches key.operationId log = 0) (claimed : ∃ record ∈ durable, record.Claims key)
    {e : Entry Engine Id Call}
    (dispatch : ∀ operationId, isDispatchOf operationId e = decide (key.operationId = operationId)) :
    Tallied (log ++ [e]) durable := by
  constructor
  · intro operationId happened
    by_cases same : key.operationId = operationId
    · subst same
      obtain ⟨record, member, claims⟩ := claimed
      exact ⟨record, member, LedgerRecord.claims_isClaimOf claims⟩
    · rw [dispatches_concat, dispatch, decide_eq_false same] at happened
      exact tallied.claimed operationId happened
  · intro operationId
    rw [dispatches_concat, dispatch]
    by_cases same : key.operationId = operationId
    · subst same
      simp [fresh]
    · simpa [same] using tallied.once operationId

/-! ### What the call at the desk knows -/

/-- A claim of the key on disk, and no terminal of its operation. -/
structure Owns (j : Journal LedgerRecord) (key : OutcomeKey) : Prop where
  claimed : ∃ record ∈ j.durable, record.Claims key
  unsettled : ∀ record ∈ j.records, record.isTerminalOf key.operationId = false

/-- A claim of the key on disk, and no terminal of its operation there. -/
structure Pending (j : Journal LedgerRecord) (key : OutcomeKey) : Prop where
  claimed : ∃ record ∈ j.durable, record.Claims key
  unsettled : ∀ record ∈ j.durable, record.isTerminalOf key.operationId = false

def Knows (log : Log Id) (j : Journal LedgerRecord) : Phase → Prop
  | .idle | .held _ | .failed _ => True
  | .whole _ => j.torn = false
  | .reading _ records => j.torn = false ∧ j.records = records
  | .claimed key => j.torn = false ∧ Owns j key ∧ dispatches key.operationId log = 0
  | .consulted session key _ _ found =>
    j.torn = false ∧ key.operationId = session.operationId ∧
      (∃ record ∈ j.records, record.Claims key) ∧
      (scan session.operationId j.records).2 = found ∧
      ∀ acknowledgement ∈ found, acknowledgement.isInterrupted = true ∧ acknowledgement.key = key
  | .granted key dispatched =>
    j.torn = false ∧ Owns j key ∧ (dispatched = false → dispatches key.operationId log = 0)
  | .saving key _ acknowledgement _ => j.torn = false ∧ Owns j key ∧ acknowledgement.key = key
  | .retrying key _ acknowledgement => Pending j key ∧ acknowledgement.key = key
  | .mended key _ acknowledgement =>
    j.torn = false ∧ Pending j key ∧ acknowledgement.key = key
  | .answered session acknowledgement true =>
    (scan session.operationId j.records).2 = some acknowledgement
  | .answered session _ false =>
    ∀ record ∈ j.durable, record.isTerminalOf session.operationId = false

/-- The invariant of the desk. -/
structure Desk.Invariant (log : Log Id) (d : Desk Id host) : Prop where
  sound : Sound (appended log) d.ledgers.ledger
  tallied : Tallied log d.ledgers.ledger.durable
  knows : ∀ seat ∈ d.seat, Knows log d.ledgers.ledger seat.phase

theorem knows_quiet {log : Log Id} {j : Journal LedgerRecord} {φ : Phase}
    (knows : Knows log j φ) {e : Entry Engine Id Call}
    (quiet : ∀ operationId, isDispatchOf operationId e = false) : Knows (log ++ [e]) j φ := by
  have same (operationId : String) := @dispatches_quiet _ operationId log e (quiet operationId)
  cases φ with
  | answered session acknowledgement stored => cases stored <;> exact knows
  | claimed key | granted key dispatched =>
    simp only [Knows, same] at knows ⊢
    exact knows
  | _ => exact knows

/-! ### Steps of the call at the desk -/

/-- The part of the invariant that does not depend on the call at the desk. -/
structure Base (log : Log Id) (j : Journal LedgerRecord) : Prop where
  sound : Sound (appended log) j
  tallied : Tallied log j.durable

section

variable {log : Log Id} {j j' : Journal LedgerRecord}

theorem base_quiet (base : Base log j) {e : Entry Engine Id Call} (unstored : stored? e = none)
    (quiet : ∀ operationId, isDispatchOf operationId e = false) (sound : Sound (appended log) j')
    (grown : ∀ record ∈ j.durable, record ∈ j'.durable) : Base (log ++ [e]) j' where
  sound := (appended_quiet unstored).symm ▸ sound
  tallied := tallied_grows base.tallied grown quiet

theorem base_same (base : Base log j) {e : Entry Engine Id Call} (unstored : stored? e = none)
    (quiet : ∀ operationId, isDispatchOf operationId e = false) : Base (log ++ [e]) j :=
  base_quiet base unstored quiet base.sound fun _ member => member

/-- A call appends only to a whole ledger, and only what keeps it consistent. -/
theorem work_append {outcomes : Outcomes} {φ φ' : Phase} {record : LedgerRecord}
    {ans : Except ProtocolError Unit} (base : Base log j) (knows : Knows log j φ)
    (work : Phase.Work outcomes φ ⟨.ledger (.append record), ans⟩ φ') :
    j.torn = false ∧ Consistent (j.records ++ [record]) := by
  have owned {key : OutcomeKey} {acknowledgement : ActionAck} (owns : Owns j key)
      (same : acknowledgement.key = key) :
      Consistent (j.records ++ [.terminal acknowledgement]) := by
    obtain ⟨claim, member, claims⟩ := owns.claimed
    exact consistent_terminal base.sound.consistent
      ⟨claim, List.mem_of_mem_take member, same ▸ claims⟩
  have pending {key : OutcomeKey} {acknowledgement : ActionAck} (pending : Pending j key)
      (same : acknowledgement.key = key) :
      Consistent (j.records ++ [.terminal acknowledgement]) := by
    obtain ⟨claim, member, claims⟩ := pending.claimed
    exact consistent_terminal base.sound.consistent
      ⟨claim, List.mem_of_mem_take member, same ▸ claims⟩
  cases work with
  | claim fresh claims =>
    obtain ⟨whole, rfl⟩ := knows
    exact ⟨whole, consistent_claim base.sound.consistent claims fresh⟩
  | settle resolves =>
    obtain ⟨whole, _, claimed, _⟩ := knows
    refine ⟨whole, consistent_terminal base.sound.consistent ?_⟩
    cases resolves with
    | recorded same => exact same ▸ claimed
    | interrupted _ same => exact same ▸ claimed
  | save | unsaved | retry => exact ⟨knows.1, owned knows.2.1 knows.2.2⟩
  | resave | lose => exact ⟨knows.1, pending knows.2.1 knows.2.2⟩

/-- What the ledger is after a question of the call at the desk, whatever its answer. -/
theorem work_base {host : Host} {l l' : Ledgers journalStore host} {outcomes : Outcomes}
    {φ φ' : Phase} {op : JournalOp LedgerRecord} {ans ans' : Except ProtocolError op.Result}
    (base : Base log l.ledger) (knows : Knows log l.ledger φ)
    (work : Phase.Work outcomes φ ⟨.ledger op, ans⟩ φ') (step : l.ledger.Step op ans' l'.ledger) :
    Sound (appended log) l'.ledger ∧ ∀ record ∈ l.ledger.durable, record ∈ l'.ledger.durable := by
  cases op with
  | repairTail =>
    obtain ⟨sound, durable⟩ := sound_repair base.sound step
    exact ⟨sound, fun record member => durable ▸ member⟩
  | records =>
    have whole : l.ledger.torn = false := by
      cases work <;> exact knows
    obtain ⟨same, _⟩ := Journal.step_records base.sound.glued whole step
    rw [same]
    exact ⟨base.sound, fun _ member => member⟩
  | append record =>
    obtain ⟨whole, consistent⟩ := work_append base knows work
    exact sound_append base.sound whole consistent step

/-- A question to the host leaves the local ledger alone. -/
theorem answer_host {host : Host} {l l' : Ledgers journalStore host} {op : EngineOp}
    {ans : op.Answer} (asks : (∃ outcomes key, op = .begin outcomes key) ∨
      ∃ outcomes key terminal, op = .record outcomes key terminal)
    (answered : l.Answer ⟨op, ans⟩ l') : l'.ledger = l.ledger := by
  rcases asks with ⟨outcomes, key, rfl⟩ | ⟨outcomes, key, terminal, rfl⟩ <;> cases outcomes
  · rw [answered.2]
  · exact answered.2
  · rw [answered.2]
  · exact answered.2

theorem abandon_host {host : Host} {l l' : Ledgers journalStore host} {op : EngineOp}
    (asks : (∃ outcomes key, op = .begin outcomes key) ∨
      ∃ outcomes key terminal, op = .record outcomes key terminal)
    (abandoned : l.Abandon op l') : l'.ledger = l.ledger := by
  rcases asks with ⟨outcomes, key, rfl⟩ | ⟨outcomes, key, terminal, rfl⟩ <;> cases outcomes
  · obtain rfl := abandoned; rfl
  · rcases abandoned with rfl | ⟨_, _, same⟩
    · rfl
    · exact same
  · obtain rfl := abandoned; rfl
  · rcases abandoned with rfl | ⟨_, _, same⟩
    · rfl
    · exact same

variable {host : Host} {l l' : Ledgers journalStore host} {outcomes : Outcomes} {φ φ' : Phase}

theorem base_work {id : Id} {e : Event Engine} (base : Base log l.ledger)
    (knows : Knows log l.ledger φ) (work : Phase.Work outcomes φ e φ')
    (answered : l.Answer e l') : Base (log ++ [.did id e]) l'.ledger := by
  obtain ⟨op, ans⟩ := e
  cases op with
  | ledger op =>
    have kept := work_base base knows work answered.1
    cases op with
    | append record =>
      cases ans with
      | error e => exact base_quiet base rfl (fun _ => rfl) kept.1 kept.2
      | ok =>
        obtain ⟨whole, consistent⟩ := work_append base knows work
        obtain ⟨sound, _⟩ := sound_append_ok base.sound whole consistent answered.1
        refine ⟨?_, tallied_grows base.tallied kept.2 fun _ => rfl⟩
        rw [appended_concat]
        exact sound
    | repairTail => exact base_quiet base rfl (fun _ => rfl) kept.1 kept.2
    | records => exact base_quiet base rfl (fun _ => rfl) kept.1 kept.2
  | begin outcomes key =>
    rw [answer_host (.inl ⟨_, _, rfl⟩) answered]
    exact base_same base rfl fun _ => rfl
  | record outcomes key terminal =>
    rw [answer_host (.inr ⟨_, _, _, rfl⟩) answered]
    exact base_same base rfl fun _ => rfl
  | dispatch =>
    obtain rfl : l' = l := answered
    cases work with
    | dispatch =>
      obtain ⟨_, owns, fresh⟩ := knows
      refine ⟨?_, tallied_dispatch base.tallied (fresh rfl) owns.claimed fun _ => rfl⟩
      rw [appended_concat]
      exact (List.append_nil _).symm ▸ base.sound
  | _ => cases work

/-- A call that dies leaves a ledger of the same form. -/
theorem base_crash {id : Id} {op : EngineOp} {ans : op.Answer} (base : Base log l.ledger)
    (knows : Knows log l.ledger φ) (work : Phase.Work outcomes φ ⟨op, ans⟩ φ')
    (abandoned : l.Abandon op l') : Base (log ++ [.died id op]) l'.ledger := by
  cases op with
  | ledger op =>
    obtain ⟨⟨ans', step⟩, _⟩ := abandoned
    obtain ⟨sound, grown⟩ := work_base base knows work step
    exact base_quiet base rfl (fun _ => rfl) sound grown
  | begin outcomes key =>
    rw [abandon_host (.inl ⟨_, _, rfl⟩) abandoned]
    exact base_same base rfl fun _ => rfl
  | record outcomes key terminal =>
    rw [abandon_host (.inr ⟨_, _, _, rfl⟩) abandoned]
    exact base_same base rfl fun _ => rfl
  | dispatch =>
    obtain rfl : l' = l := abandoned
    cases work with
    | dispatch =>
      obtain ⟨_, owns, fresh⟩ := knows
      refine ⟨?_, tallied_dispatch base.tallied (fresh rfl) owns.claimed fun _ => rfl⟩
      rw [appended_concat]
      exact (List.append_nil _).symm ▸ base.sound
  | _ => cases work

theorem scan_stored {records : List LedgerRecord} {acknowledgement : ActionAck} {key : OutcomeKey}
    {operationId : String} (same : acknowledgement.key = key)
    (operation : key.operationId = operationId) :
    (scan operationId (records ++ [.terminal acknowledgement])).2 = some acknowledgement := by
  subst same operation
  exact scan_concat_terminal records

theorem owns_pending {key : OutcomeKey} (owns : Owns j key) (durable : j'.durable = j.durable) :
    Pending j' key where
  claimed := durable ▸ owns.claimed
  unsettled record member :=
    owns.unsettled record (List.mem_of_mem_take (durable ▸ member : record ∈ j.durable))

theorem key_persistenceUnknownAck (acknowledgement : ActionAck) :
    (persistenceUnknownAck acknowledgement).key = acknowledgement.key := by
  unfold persistenceUnknownAck
  split <;> rfl

/-- After each question the call at the desk knows what its next phase says. -/
theorem knows_work {id : Id} {e : Event Engine} (base : Base log l.ledger)
    (knows : Knows log l.ledger φ) (work : Phase.Work outcomes φ e φ')
    (answered : l.Answer e l') : Knows (log ++ [.did id e]) l'.ledger φ' := by
  -- an append that returned is the last record of its operation
  have stored {acknowledgement : ActionAck} {key : OutcomeKey} {operationId : String} {φ'' : Phase}
      (work : Phase.Work outcomes φ ⟨.ledger (.append (.terminal acknowledgement)), .ok ()⟩ φ'')
      (answered : l.Answer ⟨.ledger (.append (.terminal acknowledgement)), .ok ()⟩ l')
      (same : acknowledgement.key = key) (operation : key.operationId = operationId) :
      (scan operationId l'.ledger.records).2 = some acknowledgement := by
    obtain ⟨whole, consistent⟩ := work_append base knows work
    obtain ⟨_, records, _, _⟩ := sound_append_ok base.sound whole consistent answered.1
    rw [records]
    exact scan_stored same operation
  -- an append that failed changed nothing on disk
  have unstored {record : LedgerRecord} {e : ProtocolError} {φ'' : Phase}
      (work : Phase.Work outcomes φ ⟨.ledger (.append record), .error e⟩ φ'')
      (answered : l.Answer ⟨.ledger (.append record), .error e⟩ l') :
      l'.ledger.durable = l.ledger.durable := by
    obtain ⟨whole, consistent⟩ := work_append base knows work
    exact (sound_append_error base.sound whole consistent answered.1).2.2
  cases work with
  | repair ans =>
    cases ans with
    | ok => exact (Journal.step_repair base.sound.glued answered.1).2.2.2 rfl
    | error e => trivial
  | read =>
    obtain ⟨same, records⟩ := Journal.step_records base.sound.glued knows answered.1
    rw [same]
    exact ⟨knows, (records _ rfl).symm⟩
  | claim fresh claims ans =>
    cases ans with
    | error e => trivial
    | ok =>
      obtain ⟨whole, rfl⟩ := knows
      obtain ⟨_, records, torn, durable⟩ := sound_append_ok base.sound whole
        (consistent_claim base.sound.consistent claims fresh) answered.1
      refine ⟨torn, ⟨⟨_, ?_, claims⟩, ?_⟩, ?_⟩
      · rw [durable]
        exact List.mem_append_right _ List.mem_cons_self
      · rw [records]
        refine List.forall_mem_append.mpr ⟨unclaimed_unsettled base.sound.consistent fresh, ?_⟩
        exact List.forall_mem_singleton.mpr (LedgerRecord.claims_not_terminal claims _)
      · refine (dispatches_quiet rfl).trans (Nat.eq_zero_of_not_pos fun happened => ?_)
        obtain ⟨claim, member, claims'⟩ := base.tallied.claimed _ happened
        rw [scan_claim_none.mp fresh claim (List.mem_of_mem_take member)] at claims'
        contradiction
  | grant =>
    rw [answer_host (.inl ⟨_, _, rfl⟩) answered]
    obtain ⟨whole, owns, fresh⟩ := knows
    exact ⟨whole, owns, fun _ => (dispatches_quiet rfl).trans fresh⟩
  | resolve =>
    rw [answer_host (.inl ⟨_, _, rfl⟩) answered]
    obtain ⟨whole, ⟨⟨claim, member, claims⟩, unsettled⟩, _⟩ := knows
    exact ⟨whole, rfl, ⟨claim, List.mem_of_mem_take member, claims⟩,
      scan_terminal_none.mpr unsettled, by simp⟩
  | consult seeks =>
    rw [answer_host (.inl ⟨_, _, rfl⟩) answered]
    obtain ⟨whole, rfl⟩ := knows
    cases seeks with
    | claim found fits =>
      exact ⟨whole, rfl, scan_claim_some (congrArg Prod.fst found), congrArg Prod.snd found,
        by simp⟩
    | interrupted found interrupted =>
      refine ⟨whole, (scan_terminal_some.mp found).1,
        terminal_claimed base.sound.consistent (scan_terminal_mem found), found, ?_⟩
      rintro _ ⟨rfl⟩
      exact ⟨interrupted, rfl⟩
  | settle resolves ans =>
    cases ans with
    | error e => trivial
    | ok =>
      obtain ⟨_, operation, _⟩ := knows
      refine stored (.settle resolves (.ok ())) answered ?_ operation
      cases resolves with
      | recorded same => exact same
      | interrupted _ same => exact same
  | dispatch =>
    obtain rfl : l' = l := answered
    exact ⟨knows.1, knows.2.1, nofun⟩
  | record same state | doubted same state =>
    rw [answer_host (.inr ⟨_, _, _, rfl⟩) answered]
    exact ⟨knows.1, knows.2.1, same⟩
  | save => exact stored .save answered knows.2.2 rfl
  | retry =>
    exact ⟨owns_pending knows.2.1 (unstored .retry answered),
      (key_persistenceUnknownAck _).trans knows.2.2⟩
  | mend =>
    obtain ⟨_, durable⟩ := sound_repair base.sound answered.1
    obtain ⟨⟨claimed, unsettled⟩, same⟩ := knows
    exact ⟨(Journal.step_repair base.sound.glued answered.1).2.2.2 rfl,
      ⟨durable ▸ claimed, durable ▸ unsettled⟩, same⟩
  | unmended =>
    obtain ⟨_, durable⟩ := sound_repair base.sound answered.1
    intro record member
    exact knows.1.unsettled record (durable ▸ member)
  | resave => exact stored .resave answered knows.2.2 rfl
  | lose =>
    intro record member
    exact knows.2.1.unsettled record (unstored .lose answered ▸ member)
  | unread | ungranted | unconsulted | unrecorded | unsaved => trivial

end

/-! ### Runs -/

theorem look_undispatched {op : EngineOp} (look : op.IsLook) (operationId : String) :
    op.dispatches operationId = false := by
  cases op <;> first | exact look.elim | rfl

theorem look_unstored {id : Id} {op : EngineOp} {ans : op.Answer} (look : op.IsLook) :
    stored? (.did id ⟨op, ans⟩ : Entry Engine Id Call) = none := by
  cases op <;> first | exact look.elim | rfl

namespace Desk

/-- A move that leaves the ledgers alone, stores nothing and dispatches nothing. -/
theorem invariant_quiet {log : Log Id} {ledgers : Ledgers journalStore host}
    {seat seat' : Option (Seat Id)} (invariant : Invariant log ⟨ledgers, seat⟩)
    {e : Entry Engine Id Call} (unstored : stored? e = none)
    (quiet : ∀ operationId, isDispatchOf operationId e = false)
    (knows : ∀ next ∈ seat', Knows log ledgers.ledger next.phase) :
    Invariant (log ++ [e]) ⟨ledgers, seat'⟩ := by
  have base : Base (log ++ [e]) ledgers.ledger :=
    base_same ⟨invariant.sound, invariant.tallied⟩ unstored quiet
  exact ⟨base.sound, base.tallied, fun next member => knows_quiet (knows next member) quiet⟩

theorem invariant_move {log : Log Id} {d d' : Desk Id host} {e : Entry Engine Id Call}
    (invariant : d.Invariant log) (move : Move d e d') : d'.Invariant (log ++ [e]) := by
  have base : Base log d.ledgers.ledger := ⟨invariant.sound, invariant.tallied⟩
  have free {ledgers : Ledgers journalStore host} {e : Entry Engine Id Call}
      (base : Base (log ++ [e]) ledgers.ledger) :
      (⟨ledgers, none⟩ : Desk Id host).Invariant (log ++ [e]) :=
    ⟨base.sound, base.tallied, fun _ none => nomatch none⟩
  cases move with
  | started | ended => exact invariant_quiet invariant rfl (fun _ => rfl) invariant.knows
  | look look =>
    exact invariant_quiet invariant (look_unstored look) (look_undispatched look) invariant.knows
  | refused => exact invariant_quiet invariant rfl (fun _ => rfl) invariant.knows
  | died _ away =>
    refine invariant_quiet invariant rfl ?_ invariant.knows
    rcases away with look | ⟨deadline, rfl⟩
    · exact look_undispatched look
    · exact fun _ => rfl
  | lock =>
    refine invariant_quiet invariant rfl (fun _ => rfl) ?_
    rintro _ ⟨rfl⟩
    trivial
  | @work _ _ id _ _ _ _ work answered =>
    have knows := invariant.knows _ rfl
    have base' := @base_work _ _ _ _ _ _ _ _ id _ base knows work answered
    refine ⟨base'.sound, base'.tallied, ?_⟩
    rintro _ ⟨rfl⟩
    exact knows_work base knows work answered
  | release => exact free (base_same base rfl fun _ => rfl)
  | leave away =>
    refine free (base_same base rfl ?_)
    rcases away with look | ⟨outcome, rfl⟩
    · exact look_undispatched look
    · exact fun _ => rfl
  | crash work abandoned => exact free (base_crash base (invariant.knows _ rfl) work abandoned)
  | loses lost =>
    obtain ⟨sound, durable⟩ := sound_loses base.sound lost.1
    exact free (base_quiet base rfl (fun _ => rfl) sound fun record member => durable ▸ member)

/-- **The invariant holds in every run.** -/
theorem invariant_run {log : Log Id} {d : Desk Id host} (run : Run log d) : d.Invariant log := by
  refine Reaches.invariant (fun log (d : Desk Id host) => d.Invariant log) ?_ ?_ run
  · refine ⟨⟨rfl, Nat.le_refl _, consistent_nil, .slnil⟩, ⟨?_, fun _ => Nat.zero_le _⟩,
      fun _ none => nomatch none⟩
    intro operationId happened
    exact absurd happened (Nat.lt_irrefl 0)
  · exact fun _ _ _ _ _ invariant move => invariant_move invariant move

end Desk

/-- Every run of the engines on the ledger file is a run at the desk, on the journal that
the file keeps. -/
theorem engines_serial [DecidableEq Id] {format : JsonLines LedgerRecord} {log : Log Id}
    {c : Config engines (World.shared Id (fileStore format) host)} (run : Config.Run log c) :
    ∃ d : Desk Id host, Desk.Run log d ∧ c.shared.ledgers.Keeps format d.ledgers := by
  obtain ⟨c', run', keeps, _⟩ := engines_refine run
  obtain ⟨d, run'', seen⟩ := phases_serial run'
  exact ⟨d, run'', seen.ledgers ▸ keeps.ledgers⟩

end Praefectus
