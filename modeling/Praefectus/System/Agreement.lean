import Praefectus.System.HostProtocol
import Praefectus.System.Realized

/-!
# Agreement of the two ledgers

Once the host has recorded a terminal, the local ledger never says anything else about
its key for good: what it holds is that terminal, the terminal with the durability of a
success in doubt, or an interrupted outcome that the next call with the host replaces.
-/

namespace Praefectus

open Prog

variable {Id : Type}

/-- The append of an acknowledgement with the terminal failed. -/
def Unsaved (log : Log Id) (key : OutcomeKey) (terminal : Terminal) : Prop :=
  ∃ (id : Id) (acknowledgement : ActionAck) (e : ProtocolError),
    (.did id ⟨.ledger (.append (.terminal acknowledgement)), .error e⟩ : Entry Engine Id Call) ∈ log ∧
      acknowledgement.key = key ∧ acknowledgement.state = .terminal terminal

/-- The acknowledgement has the terminal, or the one that doubts its durability after an
append of it failed. -/
def Agrees (log : Log Id) (key : OutcomeKey) (terminal : Terminal)
    (acknowledgement : ActionAck) : Prop :=
  acknowledgement.state = .terminal terminal ∨
    acknowledgement.state = .terminal (persistenceUnknown terminal) ∧ Unsaved log key terminal

/-- What a call at the desk may be about to do while the host has recorded the terminal. -/
def Abides (log : Log Id) (key : OutcomeKey) (terminal : Terminal) (outcomes : Outcomes) :
    Phase → Prop
  | .claimed key' | .granted key' _ => key' ≠ key
  | .consulted _ key' decision _ _ => key' = key →
    decision = .recorded terminal ∨ outcomes = .null ∧ decision = .dispatch
  | .saving key' _ acknowledgement _ => key' = key → acknowledgement.state = .terminal terminal
  | .retrying key' _ acknowledgement | .mended key' _ acknowledgement =>
    key' = key → Agrees log key terminal acknowledgement
  | .answered session acknowledgement _ => session.operationId = key.operationId →
    outcomes = .host → Agrees log key terminal acknowledgement
  | _ => True

/-- The ledgers agree on the key. -/
structure Agreed (log : Log Id) (key : OutcomeKey) (terminal : Terminal)
    (l : Ledgers journalStore memoryHost) : Prop where
  entry : l.host.entries key = some (some terminal)
  claimed : ∃ record ∈ l.ledger.durable, record.Claims key
  terminals : ∀ acknowledgement, .terminal acknowledgement ∈ l.ledger.records →
    acknowledgement.operationId = key.operationId →
    acknowledgement.isInterrupted = true ∨ Agrees log key terminal acknowledgement

section

variable {log trace : Log Id} {key : OutcomeKey} {terminal : Terminal} {outcomes : Outcomes}
  {l l' : Ledgers journalStore memoryHost} {φ φ' : Phase}

theorem unsaved_grows (unsaved : Unsaved trace key terminal) (e : Entry Engine Id Call) :
    Unsaved (trace ++ [e]) key terminal := by
  obtain ⟨id, acknowledgement, error, member, named, state⟩ := unsaved
  exact ⟨id, acknowledgement, error, List.mem_append_left _ member, named, state⟩

theorem agrees_grows {acknowledgement : ActionAck} (agrees : Agrees trace key terminal acknowledgement)
    (e : Entry Engine Id Call) : Agrees (trace ++ [e]) key terminal acknowledgement :=
  agrees.imp_right fun ⟨state, unsaved⟩ => ⟨state, unsaved_grows unsaved e⟩

theorem abides_grows (abides : Abides trace key terminal outcomes φ) (e : Entry Engine Id Call) :
    Abides (trace ++ [e]) key terminal outcomes φ := by
  cases φ with
  | retrying | mended => exact fun same => agrees_grows (abides same) e
  | answered => exact fun same host => agrees_grows (abides same host) e
  | _ => exact abides

theorem agreed_grows (agreed : Agreed trace key terminal l) (e : Entry Engine Id Call) :
    Agreed (trace ++ [e]) key terminal l :=
  ⟨agreed.entry, agreed.claimed, fun acknowledgement member same =>
    (agreed.terminals acknowledgement member same).imp_right fun agrees => agrees_grows agrees e⟩

/-- A claim of the operation in the ledger is one of the key. -/
theorem agreed_key (agreed : Agreed trace key terminal l) (base : Base log l.ledger)
    {key' : OutcomeKey} (claimed : ∃ record ∈ l.ledger.records, record.Claims key')
    (same : key'.operationId = key.operationId) : key' = key := by
  obtain ⟨record, member, claims⟩ := agreed.claimed
  obtain ⟨record', member', claims'⟩ := claimed
  exact claims_unique base.sound.consistent member' (List.mem_of_mem_take member) claims' claims same

theorem durable_claimed {j : Journal LedgerRecord} {key : OutcomeKey}
    (claimed : ∃ record ∈ j.durable, record.Claims key) : ∃ record ∈ j.records, record.Claims key := by
  obtain ⟨record, member, claims⟩ := claimed
  exact ⟨record, List.mem_of_mem_take member, claims⟩

theorem resolves_key {key : OutcomeKey} {decision : LedgerDecision} {found : Option ActionAck}
    {acknowledgement : ActionAck} (resolves : Resolves key decision found acknowledgement) :
    acknowledgement.key = key := by
  cases resolves with
  | recorded named => exact named
  | interrupted _ named => exact named

/-- What a call appends while the host has recorded the terminal agrees with it, or is an
interrupted outcome. -/
theorem append_agrees {acknowledgement : ActionAck} {ans : Except ProtocolError Unit}
    (agreed : Agreed trace key terminal l) (base : Base log l.ledger) (knows : Knows log l.ledger φ)
    (abides : Abides trace key terminal outcomes φ)
    (work : Phase.Work outcomes φ ⟨.ledger (.append (.terminal acknowledgement)), ans⟩ φ')
    (same : acknowledgement.operationId = key.operationId) :
    acknowledgement.isInterrupted = true ∨ Agrees trace key terminal acknowledgement := by
  have about {key' : OutcomeKey} (named : acknowledgement.key = key') :
      key'.operationId = key.operationId := named ▸ same
  cases work with
  | claim _ claims => exact claims.elim
  | settle resolves =>
    obtain ⟨_, _, claimed, _⟩ := knows
    have mine := agreed_key agreed base claimed (about (resolves_key resolves))
    cases resolves with
    | recorded _ state =>
      rcases abides mine with recorded | ⟨_, granted⟩
      · cases recorded
        exact .inr (.inl state)
      · contradiction
    | interrupted _ _ interrupted => exact .inl interrupted
  | save | unsaved | retry =>
    have mine := agreed_key agreed base (durable_claimed knows.2.1.claimed) (about knows.2.2)
    exact .inr (.inl (abides mine))
  | resave | lose =>
    have mine := agreed_key agreed base (durable_claimed knows.2.1.claimed) (about knows.2.2)
    exact .inr (abides mine)

/-- Whatever a question of the call at the desk does to the local ledger. -/
theorem agreed_step {op : JournalOp LedgerRecord} {ans ans' : Except ProtocolError op.Result}
    (agreed : Agreed trace key terminal l) (base : Base log l.ledger) (knows : Knows log l.ledger φ)
    (abides : Abides trace key terminal outcomes φ) (work : Phase.Work outcomes φ ⟨.ledger op, ans⟩ φ')
    (step : l.ledger.Step op ans' l'.ledger) (host : l'.host = l.host) :
    Agreed trace key terminal l' := by
  obtain ⟨_, grown⟩ := work_base base knows work step
  obtain ⟨claim, member, claims⟩ := agreed.claimed
  refine ⟨host ▸ agreed.entry, ⟨claim, grown claim member, claims⟩, ?_⟩
  have same (records : l'.ledger.records = l.ledger.records) (acknowledgement : ActionAck)
      (member : .terminal acknowledgement ∈ l'.ledger.records) :
      acknowledgement.operationId = key.operationId →
      acknowledgement.isInterrupted = true ∨ Agrees trace key terminal acknowledgement :=
    agreed.terminals acknowledgement (records ▸ member)
  cases op with
  | repairTail => exact same (Journal.step_repair base.sound.glued step).1
  | records =>
    have whole : l.ledger.torn = false := by
      cases work <;> exact knows
    exact same (congrArg _ (Journal.step_records base.sound.glued whole step).1)
  | append record =>
    obtain ⟨whole, _⟩ := work_append base knows work
    have pushed (records : l'.ledger.records = l.ledger.records ++ [record])
        (acknowledgement : ActionAck) (member : .terminal acknowledgement ∈ l'.ledger.records)
        (about : acknowledgement.operationId = key.operationId) :
        acknowledgement.isInterrupted = true ∨ Agrees trace key terminal acknowledgement := by
      rw [records] at member
      rcases List.mem_append.mp member with member | member
      · exact agreed.terminals acknowledgement member about
      · obtain rfl := List.mem_singleton.mp member
        exact append_agrees agreed base knows abides work about
    cases ans' with
    | ok => exact pushed (congrArg _ (Journal.step_append_ok base.sound.glued whole step))
    | error e =>
      obtain ⟨records, _⟩ := Journal.step_append_error base.sound.glued whole step
      exact records.elim same pushed

theorem host_changes {op : EngineOp} {ans : op.Answer} (answered : l.Answer ⟨op, ans⟩ l') :
    Changes op l.host l'.host := by
  have still (same : l'.host = l.host) : Changes op l.host l'.host := same ▸ .same
  cases op with
  | ledger => exact still answered.2
  | begin outcomes key =>
    cases outcomes with
    | null => exact still (congrArg Ledgers.host answered.2)
    | host => exact @answer_changes Unit () (.begin .host key) ans _ _ answered.1
  | record outcomes key terminal =>
    cases outcomes with
    | null => exact still (congrArg Ledgers.host answered.2)
    | host => exact @answer_changes Unit () (.record .host key terminal) ans _ _ answered.1
  | _ => exact still (congrArg Ledgers.host answered)

theorem host_abandons {op : EngineOp} (abandoned : l.Abandon op l') : Changes op l.host l'.host := by
  have still (same : l'.host = l.host) : Changes op l.host l'.host := same ▸ .same
  cases op with
  | ledger => exact still abandoned.2
  | begin outcomes key =>
    cases outcomes with
    | null => exact still (congrArg Ledgers.host abandoned)
    | host =>
      rcases abandoned with same | ⟨ans, begun, _⟩
      · exact still (congrArg Ledgers.host same)
      · exact @answer_changes Unit () (.begin .host key) ans _ _ begun
  | record outcomes key terminal =>
    cases outcomes with
    | null => exact still (congrArg Ledgers.host abandoned)
    | host =>
      rcases abandoned with same | ⟨ans, recorded, _⟩
      · exact still (congrArg Ledgers.host same)
      · exact @answer_changes Unit () (.record .host key terminal) ans _ _ recorded
  | _ => exact still (congrArg Ledgers.host abandoned)

/-- A question that is not for the local ledger. -/
theorem agreed_elsewhere {op : EngineOp} {ans : op.Answer} (agreed : Agreed trace key terminal l)
    (abides : Abides trace key terminal outcomes φ) (work : Phase.Work outcomes φ ⟨op, ans⟩ φ')
    (same : l'.ledger = l.ledger) (changes : Changes op l.host l'.host) :
    Agreed trace key terminal l' := by
  refine ⟨entries_changed changes agreed.entry ?_, same ▸ agreed.claimed, same ▸ agreed.terminals⟩
  rintro terminal' rfl
  obtain ⟨dispatched, rfl⟩ := Phase.step_records (.work work)
  exact abides rfl

theorem agreed_work {e : Event Engine} (agreed : Agreed trace key terminal l) (base : Base log l.ledger)
    (knows : Knows log l.ledger φ) (abides : Abides trace key terminal outcomes φ)
    (work : Phase.Work outcomes φ e φ') (answered : l.Answer e l') : Agreed trace key terminal l' := by
  obtain ⟨op, ans⟩ := e
  have changes := host_changes answered
  cases op with
  | ledger op => exact agreed_step agreed base knows abides work answered.1 answered.2
  | begin outcomes key =>
    exact agreed_elsewhere agreed abides work (answer_host (.inl ⟨_, _, rfl⟩) answered) changes
  | record outcomes key terminal =>
    exact agreed_elsewhere agreed abides work (answer_host (.inr ⟨_, _, _, rfl⟩) answered) changes
  | dispatch => exact agreed_elsewhere agreed abides work (congrArg Ledgers.ledger answered) changes
  | _ => cases work

theorem agreed_crash {op : EngineOp} {ans : op.Answer} (agreed : Agreed trace key terminal l)
    (base : Base log l.ledger) (knows : Knows log l.ledger φ)
    (abides : Abides trace key terminal outcomes φ) (work : Phase.Work outcomes φ ⟨op, ans⟩ φ')
    (abandoned : l.Abandon op l') : Agreed trace key terminal l' := by
  have changes := host_abandons abandoned
  cases op with
  | ledger op =>
    obtain ⟨⟨ans', step⟩, host⟩ := abandoned
    exact agreed_step agreed base knows abides work step host
  | begin outcomes key =>
    exact agreed_elsewhere agreed abides work (abandon_host (.inl ⟨_, _, rfl⟩) abandoned) changes
  | record outcomes key terminal =>
    exact agreed_elsewhere agreed abides work (abandon_host (.inr ⟨_, _, _, rfl⟩) abandoned) changes
  | dispatch => exact agreed_elsewhere agreed abides work (congrArg Ledgers.ledger abandoned) changes
  | _ => cases work

/-- What the host answers about the key. -/
theorem begin_agrees {key' : OutcomeKey} {decision : LedgerDecision} (agreed : Agreed trace key terminal l)
    (answered : l.Answer ⟨.begin outcomes key', .ok decision⟩ l') (same : key' = key) :
    decision = .recorded terminal ∨ outcomes = .null ∧ decision = .dispatch := by
  subst same
  cases outcomes with
  | null => exact .inr ⟨rfl, Except.ok.inj answered.1⟩
  | host => exact .inl (@recorded_answer Unit () _ _ _ _ _ agreed.entry answered.1)

/-- A call that works while the host has recorded the terminal abides by it. -/
theorem abides_work {id : Id} {e : Event Engine} (agreed : Agreed trace key terminal l)
    (base : Base log l.ledger) (knows : Knows log l.ledger φ)
    (abides : Abides trace key terminal outcomes φ) (work : Phase.Work outcomes φ e φ')
    (answered : l.Answer e l') : Abides (trace ++ [.did id e]) key terminal outcomes φ' := by
  have grown {acknowledgement : ActionAck} (agrees : Agrees trace key terminal acknowledgement) :
      Agrees (trace ++ [.did id e]) key terminal acknowledgement := agrees_grows agrees _
  cases work with
  | repair ans => cases ans <;> trivial
  | claim fresh _ ans =>
    cases ans with
    | error => trivial
    | ok =>
      rintro rfl
      obtain ⟨_, rfl⟩ := knows
      obtain ⟨record, member, claims⟩ := durable_claimed agreed.claimed
      have unclaimed := scan_claim_none.mp fresh record member
      rw [LedgerRecord.claims_isClaimOf claims] at unclaimed
      contradiction
  | grant => exact abides
  | resolve => exact fun same => absurd same abides
  | consult => exact fun same => begin_agrees agreed answered same
  | settle resolves ans =>
    cases ans with
    | error => trivial
    | ok =>
      intro same host
      obtain ⟨_, operation, claimed, _⟩ := knows
      have mine := agreed_key agreed base claimed (operation.trans same)
      cases resolves with
      | recorded _ state =>
        rcases abides mine with recorded | ⟨_, granted⟩
        · cases recorded
          exact .inl state
        · contradiction
      | interrupted unrecorded =>
        rcases abides mine with rfl | ⟨null, _⟩
        · contradiction
        · rw [host] at null
          contradiction
  | dispatch => exact abides
  | record | doubted => exact fun same => absurd same abides
  | save =>
    intro same _
    have mine := agreed_key agreed base (durable_claimed knows.2.1.claimed) same
    exact .inl (abides mine)
  | @retry key' _ acknowledgement e =>
    rintro rfl
    have state := abides rfl
    refine .inr ⟨?_, id, acknowledgement, e, List.mem_append_right _ List.mem_cons_self, knows.2.2,
      state⟩
    rw [persistenceUnknownAck, state]
  | mend => exact fun same => grown (abides same)
  | unmended =>
    intro same _
    exact grown (abides (agreed_key agreed base (durable_claimed knows.1.claimed) same))
  | resave | lose =>
    intro same _
    exact grown (abides (agreed_key agreed base (durable_claimed knows.2.1.claimed) same))
  | read | unread | ungranted | unconsulted | unrecorded | unsaved => trivial

/-- The ledgers agree on a key as soon as the host has recorded its terminal. -/
theorem agreed_recorded (knows : Knows log l.ledger φ)
    (work : Phase.Work outcomes φ ⟨.record .host key terminal, .ok ()⟩ φ')
    (answered : l.Answer ⟨.record .host key terminal, .ok ()⟩ l') :
    Agreed trace key terminal l' ∧ Abides trace key terminal outcomes φ' := by
  obtain ⟨recorded, same⟩ := answered
  obtain ⟨dispatched, rfl⟩ := Phase.step_records (.work work)
  obtain ⟨_, owns, _⟩ := knows
  refine ⟨⟨?_, same ▸ owns.claimed, fun acknowledgement member about => ?_⟩, ?_⟩
  · have host : l'.host = l.host.record key terminal := recorded
    rw [host]
    exact MemoryOutcomeLedger.entries_insert_self ..
  · rw [same] at member
    have unsettled := owns.unsettled _ member
    rw [LedgerRecord.isTerminalOf, decide_eq_false_iff_not] at unsettled
    exact absurd about unsettled
  · cases work with
    | record _ state => exact fun _ => state

end

/-! ### Runs -/

namespace Desk

/-- The ledgers agree on the key, and so does the call at the desk. -/
structure Agreement (trace : Log Id) (key : OutcomeKey) (terminal : Terminal)
    (d : Desk Id memoryHost) : Prop where
  ledgers : Agreed trace key terminal d.ledgers
  seat : ∀ seat ∈ d.seat, Abides trace key terminal seat.outcomes seat.phase

variable {log trace : Log Id} {key : OutcomeKey} {terminal : Terminal} {d d' : Desk Id memoryHost}

theorem agreement_move {e : Entry Engine Id Call} (invariant : d.Invariant log)
    (agreement : d.Agreement trace key terminal) (move : Move d e d') :
    d'.Agreement (trace ++ [e]) key terminal := by
  have base : Base log d.ledgers.ledger := ⟨invariant.sound, invariant.tallied⟩
  have still (seat : Seat Id) (member : seat ∈ d.seat) :
      Abides (trace ++ [e]) key terminal seat.outcomes seat.phase :=
    abides_grows (agreement.seat seat member) e
  have free {ledgers : Ledgers journalStore memoryHost} (agreed : Agreed trace key terminal ledgers) :
      (⟨ledgers, none⟩ : Desk Id memoryHost).Agreement (trace ++ [e]) key terminal :=
    ⟨agreed_grows agreed e, fun _ none => nomatch none⟩
  cases move with
  | started | ended | refused | look | died => exact ⟨agreed_grows agreement.ledgers _, still⟩
  | lock =>
    refine ⟨agreed_grows agreement.ledgers _, ?_⟩
    rintro _ ⟨rfl⟩
    trivial
  | work work answered =>
    have knows := invariant.knows _ rfl
    have abides := agreement.seat _ rfl
    refine ⟨agreed_grows (agreed_work agreement.ledgers base knows abides work answered) _, ?_⟩
    rintro _ ⟨rfl⟩
    exact abides_work agreement.ledgers base knows abides work answered
  | release | leave => exact free agreement.ledgers
  | crash work abandoned =>
    exact free (agreed_crash agreement.ledgers base (invariant.knows _ rfl) (agreement.seat _ rfl)
      work abandoned)
  | loses lost =>
    obtain ⟨kept, _, records, _⟩ := Journal.loses_take base.sound.glued lost.1
    obtain ⟨_, durable⟩ := sound_loses base.sound lost.1
    refine free ⟨lost.2 ▸ agreement.ledgers.entry, ?_, fun acknowledgement member => ?_⟩
    · rw [durable]
      exact agreement.ledgers.claimed
    · rw [records] at member
      exact agreement.ledgers.terminals acknowledgement (List.mem_of_mem_take member)

/-- From the moment the host has recorded a terminal the ledgers agree on its key. -/
theorem agreement_run {id : Id} {later : Log Id}
    (run : Run (log ++ .did id ⟨.record .host key terminal, .ok ()⟩ :: later) d) :
    d.Agreement later key terminal := by
  rw [List.append_cons] at run
  obtain ⟨d₁, recorded, rest⟩ := Reaches.split run
  obtain ⟨d₀, before, move⟩ := Reaches.last recorded
  have initial : d₁.Agreement [] key terminal := by
    cases move with
    | look look => exact look.elim
    | work work answered =>
      have knows := (invariant_run before).knows _ rfl
      obtain ⟨agreed, abides⟩ := @agreed_recorded _ _ [] _ _ _ _ _ _ _ knows work answered
      refine ⟨agreed, ?_⟩
      rintro _ ⟨rfl⟩
      exact abides
  refine Reaches.invariant (fun trace (d : Desk Id memoryHost) =>
    d.Agreement trace key terminal) initial ?_ rest
  intro trace d e d' reached agreement move
  exact agreement_move (invariant_run (recorded.trans reached)) agreement move

end Desk

/-- What a call with the host reports agrees with what the host has recorded. -/
theorem reports_agree {log trace : Log Id} {key : OutcomeKey} {terminal : Terminal}
    {l : Ledgers journalStore memoryHost} {φ : Phase} {outcome : Outcome}
    (agreed : Agreed trace key terminal l) (base : Base log l.ledger) (knows : Knows log l.ledger φ)
    (abides : Abides trace key terminal .host φ) (reports : φ.Reports outcome)
    (succeeded : outcome.isOk = true) (same : outcome.operationId = key.operationId) :
    ∃ acknowledgement, outcome.Tells acknowledgement ∧ Agrees trace key terminal acknowledgement := by
  cases reports with
  | failed _ fails => cases fails <;> contradiction
  | @missing operationId records none =>
    obtain ⟨_, rfl⟩ := knows
    obtain ⟨record, member, claims⟩ := durable_claimed agreed.claimed
    have unclaimed := scan_claim_none.mp (congrArg Prod.fst none) record member
    have about : operationId = key.operationId := same
    rw [about, LedgerRecord.claims_isClaimOf claims] at unclaimed
    contradiction
  | replayed found interrupted tells =>
    obtain ⟨_, rfl⟩ := knows
    obtain ⟨operation, tells⟩ := tells_outcome tells
    have about := (scan_terminal_some.mp found).1.trans (operation.trans same)
    rcases agreed.terminals _ (scan_terminal_mem found) about with other | agrees
    · rw [interrupted] at other
      contradiction
    · exact ⟨_, tells, agrees⟩
  | kept unrecorded tells =>
    obtain ⟨operation, _⟩ := tells_outcome tells
    obtain ⟨_, about, claimed, _⟩ := knows
    have mine := agreed_key agreed base claimed (about.trans (operation.trans same))
    rcases abides mine with rfl | ⟨null, _⟩ <;> contradiction
  | answered tells =>
    obtain ⟨operation, tells⟩ := tells_outcome tells
    exact ⟨_, tells, abides (operation.trans same) rfl⟩

/-- A call that returns is at the desk, with the outcome ledger it was started with. -/
theorem release_seated [DecidableEq Id] {format : JsonLines LedgerRecord} {host : Host}
    {log : Log Id} {id : Id} {outcome : Outcome}
    {c : Config engines (World.shared Id (fileStore format) host)}
    (run : Config.Run (log ++ [.did id ⟨.release outcome, ()⟩]) c) :
    ∃ (d : Desk Id host) (call : Call) (φ : Phase), Desk.Run log d ∧
      d.seat = some ⟨id, call.outcomes, φ⟩ ∧ φ.Reports outcome ∧ .started id call ∈ log := by
  obtain ⟨c₀, before, move⟩ := Reaches.last run
  obtain ⟨c₁, phased, _, related⟩ := engines_refine before
  obtain ⟨d, serial, seen⟩ := phases_serial phased
  cases move with
  | @answer _ θ θ' _ w live stepped answered =>
    obtain ⟨call, p⟩ := θ
    obtain ⟨next, rfl, _⟩ := stepped
    obtain ⟨started, _⟩ := begins_run before id call _ live
    have both := related id
    rw [live] at both
    generalize stage : c₁.thread id = life at both
    cases both with
    | @live _ q both =>
      obtain ⟨call', φ⟩ := q
      obtain ⟨rfl, follows⟩ := both
      obtain ⟨φ', step, _⟩ := follows ()
      cases step with
      | look look => exact look.elim
      | release reports =>
        exact ⟨d, call, φ, serial, seen.working stage (reports_session reports), reports, started⟩
      | work work => cases work

/-- **Agreement**: once the host has recorded a terminal, each later call with that host
that is about the operation and returns no error returns the terminal, or, where an append
of it failed, the one that doubts the durability of a success. -/
theorem ledgers_agree [DecidableEq Id] {reader : LedgerReader} {log later : Log Id} {id id' : Id}
    {c : Config engines (World.shared Id (fileStore reader.format) memoryHost)} {key : OutcomeKey}
    {terminal : Terminal} {outcome : Outcome}
    (run : Config.Run (log ++ .did id ⟨.record .host key terminal, .ok ()⟩ :: later) c)
    (hosted : ∀ call, .started id' call ∈ log ++ .did id ⟨.record .host key terminal, .ok ()⟩ :: later →
      call.outcomes = .host)
    (returned : .did id' ⟨.release outcome, ()⟩ ∈ later) (succeeded : outcome.isOk = true)
    (same : outcome.operationId = key.operationId) :
    ∃ acknowledgement, outcome.Tells acknowledgement ∧
      (acknowledgement.state = .terminal terminal ∨
        acknowledgement.state = .terminal (persistenceUnknown terminal) ∧
          Unsaved later key terminal) := by
  obtain ⟨between, rest, rfl⟩ := List.append_of_mem returned
  -- the run up to the moment the call releases the lock
  rw [← List.cons_append, List.append_cons, ← List.append_assoc, ← List.append_assoc] at run
  obtain ⟨_, upto, _⟩ := Reaches.split run
  obtain ⟨d, call, φ, serial, seated, reports, started⟩ := release_seated upto
  have host : call.outcomes = .host := by
    refine hosted call ?_
    rw [← List.cons_append, ← List.append_assoc]
    exact List.mem_append_left _ started
  have invariant := Desk.invariant_run serial
  have agreement := Desk.agreement_run serial
  have abides := agreement.seat _ seated
  rw [host] at abides
  obtain ⟨acknowledgement, tells, agrees⟩ := reports_agree agreement.ledgers
    ⟨invariant.sound, invariant.tallied⟩ (invariant.knows _ seated) abides reports succeeded same
  refine ⟨acknowledgement, tells, agrees.imp_right fun ⟨state, unsaved⟩ => ⟨state, ?_⟩⟩
  obtain ⟨id, acknowledgement, e, member, named, state⟩ := unsaved
  exact ⟨id, acknowledgement, e, List.mem_append_left _ member, named, state⟩

/-! ### On the bench -/

def isSuccessRecord : Entry Engine Nat Call → Bool
  | .did _ ⟨.record .host key (.succeeded _), .ok ()⟩ => key.operationId = "operation-1"
  | _ => false

def isAnswerThat (check : ActionAck → Bool) : Entry Engine Nat Call → Bool
  | .did _ ⟨.release (.queried operationId (.ok (some acknowledgement))), ()⟩ =>
    operationId = "operation-1" && check acknowledgement
  | _ => false

/-- A success is recorded with the host, and a later query returns an acknowledgement that
passes a check. -/
def isRecordedThen (check : ActionAck → Bool) (log : Log Nat) : Bool :=
  log.head?.any isSuccessRecord && log.tail.any (isAnswerThat check)

theorem record_of_isSuccessRecord {e : Entry Engine Nat Call} (records : isSuccessRecord e = true) :
    ∃ id key receipt, e = .did id ⟨.record .host key (.succeeded receipt), .ok ()⟩ ∧
      key.operationId = "operation-1" := by
  unfold isSuccessRecord at records
  split at records
  next id key receipt => exact ⟨id, key, receipt, rfl, of_decide_eq_true records⟩
  next => contradiction

theorem answer_of_isAnswerThat {check : ActionAck → Bool} {e : Entry Engine Nat Call}
    (answers : isAnswerThat check e = true) : ∃ id acknowledgement,
      e = .did id ⟨.release (.queried "operation-1" (.ok (some acknowledgement))), ()⟩ ∧
      check acknowledgement = true := by
  unfold isAnswerThat at answers
  split at answers
  next id operationId acknowledgement =>
    obtain ⟨named, passes⟩ := Bool.and_eq_true_iff.mp answers
    rw [of_decide_eq_true named]
    exact ⟨id, acknowledgement, rfl, passes⟩
  next => contradiction

theorem recorded_then {check : ActionAck → Bool} {log : Log Nat}
    (found : isRecordedThen check log = true) :
    ∃ id id' key receipt acknowledgement later,
      log = .did id ⟨.record .host key (.succeeded receipt), .ok ()⟩ :: later ∧
      .did id' ⟨.release (.queried key.operationId (.ok (some acknowledgement))), ()⟩ ∈ later ∧
      check acknowledgement = true := by
  cases log with
  | nil => contradiction
  | cons e later =>
    obtain ⟨records, answers⟩ := Bool.and_eq_true_iff.mp found
    obtain ⟨id, key, receipt, rfl, about⟩ := record_of_isSuccessRecord records
    obtain ⟨e, member, answers⟩ := List.any_eq_true.mp answers
    obtain ⟨id', acknowledgement, rfl, passes⟩ := answer_of_isAnswerThat answers
    exact ⟨id, id', key, receipt, acknowledgement, later, rfl, about ▸ member, passes⟩

def ActionAck.isUnknown (acknowledgement : ActionAck) : Bool :=
  match acknowledgement.state with
  | .terminal (.outcomeUnknown ..) => true
  | _ => false

/-- A success that is recorded, stored, and returned by a query. -/
theorem ledgers_agree_bench :
    ∃ (log later : Log Nat) (id id' : Nat) (key : OutcomeKey) (terminal : Terminal)
      (acknowledgement : ActionAck)
      (c : Config engines (World.shared Nat (fileStore objectReader.format) memoryHost)),
      Config.Run (log ++ .did id ⟨.record .host key terminal, .ok ()⟩ :: later) c ∧
      .did id' ⟨.release (.queried key.operationId (.ok (some acknowledgement))), ()⟩ ∈ later ∧
      acknowledgement.state = .terminal terminal := by
  obtain ⟨c, run⟩ := @Bench.run objectReader.format
    [(Bench.executes .host, 100), (Bench.queries .host, 100)] []
  change Config.Run (Bench.log _ Bench.new) c at run
  have facts : (Bench.log [(Bench.executes .host, 100), (Bench.queries .host, 100)]
        Bench.new).all isHostedStart = true ∧
      isRecordedThen (!ActionAck.isUnknown ·) ((Bench.log [(Bench.executes .host, 100),
        (Bench.queries .host, 100)] Bench.new).drop 29) = true := by decide +kernel
  have hosted := allHosted_of_all facts.1
  obtain ⟨id, id', key, receipt, returned, later, same, member, known⟩ := recorded_then facts.2
  rw [← List.take_append_drop 29 (Bench.log _ Bench.new), same] at run hosted
  obtain ⟨acknowledgement, tells, agrees⟩ :=
    ledgers_agree run (fun call started => hosted id' call started) member rfl rfl
  obtain rfl : returned = acknowledgement := Option.some.inj tells
  refine ⟨_, later, id, id', key, _, returned, c, run, member, ?_⟩
  rcases agrees with agrees | ⟨doubted, _⟩
  · exact agrees
  · -- the query did not return that the outcome is unknown
    simp [ActionAck.isUnknown, doubted, persistenceUnknown] at known

/-- Where the append of a recorded success fails and its retry succeeds, the ledgers do not
agree: queries return that the outcome is unknown. -/
theorem ledgers_disagree :
    ∃ (log later : Log Nat) (id id' : Nat) (key : OutcomeKey) (terminal : Terminal)
      (acknowledgement : ActionAck)
      (c : Config engines (World.shared Nat (fileStore objectReader.format) memoryHost)),
      Config.Run (log ++ .did id ⟨.record .host key terminal, .ok ()⟩ :: later) c ∧
      AllHosted (log ++ .did id ⟨.record .host key terminal, .ok ()⟩ :: later) ∧
      .did id' ⟨.release (.queried key.operationId (.ok (some acknowledgement))), ()⟩ ∈ later ∧
      acknowledgement.state ≠ .terminal terminal := by
  obtain ⟨c, run⟩ := @Bench.run objectReader.format
    [(Bench.executes .host, 100), (Bench.queries .host, 100)] [false, true]
  have facts : (Bench.log [(Bench.executes .host, 100), (Bench.queries .host, 100)]
        { Bench.new with failures := [false, true] }).all isHostedStart = true ∧
      isRecordedThen ActionAck.isUnknown ((Bench.log [(Bench.executes .host, 100),
        (Bench.queries .host, 100)] { Bench.new with failures := [false, true] }).drop 29) = true := by
    decide +kernel
  have hosted := allHosted_of_all facts.1
  obtain ⟨id, id', key, receipt, acknowledgement, later, same, member, unknown⟩ :=
    recorded_then facts.2
  rw [← List.take_append_drop 29 (Bench.log ..), same] at run hosted
  generalize (Bench.log ..).take 29 = log at run hosted
  refine ⟨log, later, id, id', key, _, acknowledgement, c, run, hosted, member, fun state => ?_⟩
  rw [ActionAck.isUnknown, state] at unknown
  exact Bool.false_ne_true unknown

end Praefectus
