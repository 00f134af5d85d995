import Praefectus.System.HostProtocol
import Praefectus.System.Realized

/-!
# Grants and recorded terminals

A call dispatches and records only what the host granted it, and one that finds no
terminal of its own while the host has recorded one stores and returns the host's.
-/

namespace Praefectus

open Prog

variable {Id : Type}

/-! ### What a session finds -/

/-- The session a call reports on. -/
def Outcome.session : Outcome → Session
  | .executed key _ => .executes key
  | .queried operationId _ => .queries operationId

/-- The last terminal of the operation is an interrupted one of the key. -/
def FindsInterrupted (key : OutcomeKey) (records : List LedgerRecord) : Prop :=
  ∃ acknowledgement, (scan key.operationId records).2 = some acknowledgement ∧
    acknowledgement.isInterrupted = true ∧ acknowledgement.key = key

/-- The session finds no terminal of the key, or an interrupted one. A query that finds no
terminal must find a claim of the key. -/
def Session.Finds (key : OutcomeKey) (records : List LedgerRecord) : Session → Prop
  | .executes key' =>
    key' = key ∧ ((scan key.operationId records).2 = none ∨ FindsInterrupted key records)
  | .queries operationId => operationId = key.operationId ∧
    ((∃ claim, scan key.operationId records = (some claim, none) ∧ claim.actionHash = key.actionHash) ∨
      FindsInterrupted key records)

theorem finds_operation {key : OutcomeKey} {records : List LedgerRecord} {session : Session}
    (finds : session.Finds key records) : session.operationId = key.operationId := by
  cases session with
  | executes key' => exact congrArg OutcomeKey.operationId finds.1
  | queries operationId => exact finds.1

/-- What it finds settles nothing. -/
theorem finds_unsettled {key : OutcomeKey} {records : List LedgerRecord} {session : Session}
    (finds : session.Finds key records) :
    (scan key.operationId records).2 = none ∨ FindsInterrupted key records := by
  cases session with
  | executes => exact finds.2
  | queries =>
    rcases finds.2 with ⟨claim, scanned, _⟩ | interrupted
    · exact .inl (congrArg Prod.snd scanned)
    · exact .inr interrupted

/-- What such a session asks the host about is the key. -/
theorem finds_seeks {key key' : OutcomeKey} {records : List LedgerRecord} {session : Session}
    {found : Option ActionAck} (finds : session.Finds key records)
    (seeks : Seeks session records key' found) : key' = key := by
  have about := finds_operation finds
  cases seeks with
  | @claim claim scanned fits =>
    rw [about] at scanned
    cases session with
    | executes key'' =>
      obtain rfl : key'' = key := finds.1
      exact congrArg (OutcomeKey.mk _) fits
    | queries operationId =>
      obtain ⟨rfl, ⟨claim', found, hash⟩ | ⟨_, found, _⟩⟩ := finds <;> rw [scanned] at found
      · obtain rfl : claim = claim' := Option.some.inj (congrArg Prod.fst found)
        exact congrArg (OutcomeKey.mk _) hash
      · contradiction
  | interrupted found interrupted =>
    rw [about] at found
    rcases finds_unsettled finds with none | ⟨_, found', _, named⟩
    · rw [found] at none
      contradiction
    · rw [found] at found'
      obtain rfl := Option.some.inj found'
      exact named

/-! ### The way to the host's terminal -/

/-- How far a session has come that read `records` while the host had the terminal. -/
inductive Stage (id : Id) (key : OutcomeKey) (terminal : Terminal) (records : List LedgerRecord)
    (session : Session) (trace : Log Id) : Phase → Prop where
  | reading : Stage id key terminal records session trace (.reading session records)
  | claimed : session = .executes key → Stage id key terminal records session trace (.claimed key)
  | consulted {fresh : Bool} {found : Option ActionAck} :
      Stage id key terminal records session trace
        (.consulted session key (.recorded terminal) fresh found)
  | answered {acknowledgement : ActionAck} : acknowledgement.state = .terminal terminal →
      .did id ⟨.ledger (.append (.terminal acknowledgement)), .ok ()⟩ ∈ trace →
      Stage id key terminal records session trace (.answered session acknowledgement true)
  | failed : Stage id key terminal records session trace (.failed session)

section

variable {id : Id} {key : OutcomeKey} {terminal : Terminal} {records : List LedgerRecord}
  {session : Session} {trace : Log Id} {φ φ' : Phase}

theorem stage_grows (stage : Stage id key terminal records session trace φ)
    (e : Entry Engine Id Call) : Stage id key terminal records session (trace ++ [e]) φ := by
  cases stage with
  | reading => exact .reading
  | claimed same => exact .claimed same
  | consulted => exact .consulted
  | answered state stored => exact .answered state (List.mem_append_left _ stored)
  | failed => exact .failed

theorem stage_work {e : Event Engine} {s s' : MemoryOutcomeLedger}
    (finds : session.Finds key records) (stage : Stage id key terminal records session trace φ)
    (recorded : s.entries key = some (some terminal)) (work : Phase.Work .host φ e φ')
    (answered : (scattered Id).answer id e s s') :
    Stage id key terminal records session (trace ++ [.did id e]) φ' := by
  cases stage with
  | reading =>
    cases work with
    | claim _ _ ans =>
      obtain rfl := finds.1
      cases ans with
      | ok => exact .claimed rfl
      | error => exact .failed
    | consult seeks =>
      obtain rfl := finds_seeks finds seeks
      obtain rfl := recorded_answer recorded answered
      exact .consulted
    | unconsulted => exact .failed
  | claimed same =>
    subst same
    cases work with
    | grant => cases recorded_answer recorded answered
    | resolve =>
      obtain rfl := recorded_answer recorded answered
      exact .consulted
    | ungranted => exact .failed
  | consulted =>
    cases work with
    | settle resolves ans =>
      cases ans with
      | error => exact .failed
      | ok =>
        cases resolves with
        | recorded _ state => exact .answered state (List.mem_append_right _ List.mem_cons_self)
        | interrupted unrecorded => contradiction
  | answered => cases work
  | failed => cases work

/-- A session that returns no error returns the host's terminal, which it has stored. -/
theorem stage_reports {outcome : Outcome} (finds : session.Finds key records)
    (stage : Stage id key terminal records session trace φ) (reports : φ.Reports outcome)
    (succeeded : outcome.isOk = true) :
    ∃ acknowledgement, outcome.Tells acknowledgement ∧
      acknowledgement.state = .terminal terminal ∧
      .did id ⟨.ledger (.append (.terminal acknowledgement)), .ok ()⟩ ∈ trace := by
  cases reports with
  | failed _ fails => cases fails <;> contradiction
  | missing none =>
    cases stage
    obtain ⟨rfl, ⟨_, found, _⟩ | ⟨_, found, _⟩⟩ := finds <;> rw [none] at found <;> cases found
  | replayed found interrupted _ =>
    cases stage
    rw [finds_operation finds] at found
    rcases finds_unsettled finds with none | ⟨_, found', interrupted', _⟩
    · rw [found] at none
      contradiction
    · rw [found] at found'
      obtain rfl := Option.some.inj found'
      rw [interrupted] at interrupted'
      contradiction
  | kept unrecorded _ =>
    cases stage
    contradiction
  | answered tells =>
    cases stage with
    | answered state stored => exact ⟨_, (tells_outcome tells).2, state, stored⟩

theorem tells_session {acknowledgement : ActionAck} {outcome : Outcome}
    (tells : session.Tells acknowledgement outcome) : outcome.session = session := by
  cases tells <;> rfl

/-- A call reports on the session it is in. -/
theorem reports_about {outcome : Outcome} (reports : φ.Reports outcome)
    (held : φ.session = some session) : outcome.session = session := by
  cases reports with
  | failed held' fails =>
    obtain rfl := Option.some.inj (held.symm.trans held')
    cases fails <;> rfl
  | missing none =>
    obtain rfl := Option.some.inj held
    rfl
  | replayed _ _ tells | kept _ tells | answered tells =>
    obtain rfl := Option.some.inj held
    exact tells_session tells

end

/-! ### Runs -/

variable [DecidableEq Id]

/-- What the host has recorded stays recorded. -/
theorem recorded_move {log : Log Id} {c c' : Config phases (scattered Id)} {e : Entry Engine Id Call}
    (invariant : Hosted log c) (move : Config.Move c e c') {key : OutcomeKey} {terminal : Terminal}
    (recorded : c.shared.entries key = some (some terminal)) :
    c'.shared.entries key = some (some terminal) := by
  -- only a granted session records, and its key is not recorded yet
  have other {id : Id} {call : Call} {φ φ' : Phase} {op : EngineOp} {ans : op.Answer}
      (live : c.thread id = .live (call, φ)) (step : Phase.Step call.outcomes φ ⟨op, ans⟩ φ')
      (terminal' : Terminal) : op ≠ .record .host key terminal' := by
    rintro rfl
    obtain ⟨dispatched, rfl⟩ := Phase.step_records step
    have granted := (invariant.held id call key dispatched live).1
    rw [recorded] at granted
    cases granted
  cases move with
  | start | finish => exact recorded
  | @answer id θ θ' e s live stepped answered =>
    exact entries_changed (answer_changes answered) recorded (other live stepped.2)
  | @die id θ op s live asks abandoned =>
    obtain ⟨ans, φ', step⟩ := asks
    exact entries_changed (abandon_changes abandoned) recorded (other live step)
  | @outside s _ struck =>
    obtain rfl : s = c.shared := struck
    exact recorded

/-- A call that read `records` while the host had recorded the terminal, and has not ended. -/
structure Pursues (id : Id) (key : OutcomeKey) (terminal : Terminal) (records : List LedgerRecord)
    (session : Session) (trace : Log Id) (c : Config phases (scattered Id)) : Prop where
  recorded : c.shared.entries key = some (some terminal)
  pursues : (∃ e ∈ trace, Ends id e) ∨ ∃ call φ, c.thread id = .live (call, φ) ∧
    φ.session = some session ∧
    (session.Finds key records → Stage id key terminal records session trace φ)

theorem pursues_move {log trace : Log Id} {c c' : Config phases (scattered Id)}
    {e : Entry Engine Id Call} {id : Id} {key : OutcomeKey} {terminal : Terminal}
    {records : List LedgerRecord} {session : Session} (invariant : Hosted log c)
    (pursues : Pursues id key terminal records session trace c) (move : Config.Move c e c') :
    Pursues id key terminal records session (trace ++ [e]) c' := by
  refine ⟨recorded_move invariant move pursues.recorded, ?_⟩
  rcases pursues.pursues with ⟨e', member, ends⟩ | ⟨call, φ, live, held, stage⟩
  · exact .inl ⟨e', List.mem_append_left _ member, ends⟩
  have grown (finds : session.Finds key records) :
      Stage id key terminal records session (trace ++ [e]) φ := stage_grows (stage finds) e
  have still {thread : Id → Life (Call × Phase)} (same : thread id = c.thread id) :
      ∃ call φ, thread id = .live (call, φ) ∧ φ.session = some session ∧
        (session.Finds key records → Stage id key terminal records session (trace ++ [e]) φ) :=
    ⟨call, φ, same.trans live, held, grown⟩
  cases move with
  | @start id' call' θ unborn started =>
    refine .inr (still (Function.update_of_ne ?_ ..))
    rintro rfl
    rw [live] at unborn
    contradiction
  | @answer id' θ θ' e s live' stepped answered =>
    by_cases same : id = id'
    · subst same
      obtain ⟨call', φ'⟩ := θ'
      obtain rfl := Life.live.inj (live.symm.trans live')
      obtain ⟨rfl, step⟩ := stepped
      rw [invariant.hosted id _ φ live] at step
      cases step with
      | look => exact .inr ⟨_, _, Function.update_self .., held, grown⟩
      | refused | lock => contradiction
      | release => exact .inl ⟨_, List.mem_append_right _ List.mem_cons_self, .returned _⟩
      | work work =>
        obtain ⟨session', before, after⟩ := Phase.work_session work
        obtain rfl := Option.some.inj (held.symm.trans before)
        exact .inr ⟨_, _, Function.update_self .., after, fun finds =>
          stage_work finds (stage finds) pursues.recorded work answered⟩
    · exact .inr (still (Function.update_of_ne same ..))
  | @die id' θ op s live' asks abandoned =>
    by_cases same : id = id'
    · subst same
      exact .inl ⟨_, List.mem_append_right _ List.mem_cons_self, .died op⟩
    · exact .inr (still (Function.update_of_ne same ..))
  | @finish id' θ live' done =>
    refine .inr (still (Function.update_of_ne ?_ ..))
    rintro rfl
    obtain rfl := Life.live.inj (live.symm.trans live')
    obtain rfl : φ = .idle := done
    contradiction
  | outside => exact .inr (still rfl)

theorem pursues_read {log : Log Id} {c c' : Config phases (scattered Id)} {id : Id}
    {records : List LedgerRecord} {key : OutcomeKey} {terminal : Terminal} (invariant : Hosted log c)
    (recorded : c.shared.entries key = some (some terminal))
    (move : Config.Move c (.did id ⟨.ledger .records, .ok records⟩) c') :
    ∃ session, Pursues id key terminal records session [.did id ⟨.ledger .records, .ok records⟩] c' := by
  have kept := recorded_move invariant move recorded
  cases move with
  | @answer _ θ θ' _ s live stepped answered =>
    obtain ⟨call, φ⟩ := θ
    obtain ⟨call', φ'⟩ := θ'
    obtain ⟨rfl, step⟩ := stepped
    cases step with
    | look look => exact look.elim
    | work work =>
      cases work with
      | @read session =>
        exact ⟨session, kept, .inr ⟨_, _, Function.update_self .., rfl, fun _ => .reading⟩⟩

theorem pursues_run {before middle : Log Id} {c c' : Config phases (scattered Id)} {id : Id}
    {records : List LedgerRecord} {key : OutcomeKey} {terminal : Terminal}
    (run : Config.Run before c) (recorded : c.shared.entries key = some (some terminal))
    (after : Reaches Config.Move c (.did id ⟨.ledger .records, .ok records⟩ :: middle) c')
    (host : AllHosted (before ++ .did id ⟨.ledger .records, .ok records⟩ :: middle)) :
    ∃ session, Pursues id key terminal records session
      (.did id ⟨.ledger .records, .ok records⟩ :: middle) c' := by
  have hosted : AllHosted before := fun id call member => host id call (List.mem_append_left _ member)
  obtain ⟨first, read, rest⟩ := @Reaches.split _ _ _ _ _ [_] middle after
  obtain ⟨c₀, none, move⟩ := @Reaches.last _ _ _ _ _ [] _ read
  obtain rfl : c₀ = c := by
    generalize same : ([] : Log Id) = trace at none
    cases none with
    | nil => rfl
    | snoc => simp at same
  obtain ⟨session, pursues⟩ := pursues_read (hosted_run run hosted) recorded move
  have runs : Config.Run (before ++ [.did id ⟨.ledger .records, .ok records⟩]) first := .snoc run move
  refine ⟨session, ?_⟩
  refine Reaches.invariant (fun trace (c : Config phases (scattered Id)) =>
    AllHosted (before ++ .did id ⟨.ledger .records, .ok records⟩ :: trace) →
    Pursues id key terminal records session (.did id ⟨.ledger .records, .ok records⟩ :: trace) c)
    (fun _ => pursues) ?_ rest host
  intro trace c e c' reached earlier move host
  rw [← List.cons_append, ← List.append_assoc] at host
  have host' : AllHosted (before ++ .did id ⟨.ledger .records, .ok records⟩ :: trace) :=
    fun id call member => host id call (List.mem_append_left _ member)
  have now := runs.trans reached
  rw [List.append_assoc, List.singleton_append] at now
  exact pursues_move (hosted_run now host') (earlier host') move

/-- A pursued call that returns no error returns the host's terminal, stored. -/
theorem pursues_release {trace : Log Id} {c c' : Config phases (scattered Id)} {id : Id}
    {records : List LedgerRecord} {key : OutcomeKey} {terminal : Terminal} {session : Session}
    {outcome : Outcome} (pursues : Pursues id key terminal records session trace c)
    (unended : ∀ e ∈ trace, ¬ Ends id e)
    (move : Config.Move c (.did id ⟨.release outcome, ()⟩) c')
    (finds : outcome.session.Finds key records) (succeeded : outcome.isOk = true) :
    ∃ acknowledgement, outcome.Tells acknowledgement ∧
      acknowledgement.state = .terminal terminal ∧
      .did id ⟨.ledger (.append (.terminal acknowledgement)), .ok ()⟩ ∈ trace := by
  rcases pursues.pursues with ⟨e, member, ends⟩ | ⟨call, φ, live, held, stage⟩
  · exact absurd ends (unended e member)
  cases move with
  | @answer _ θ θ' _ s live' stepped answered =>
    obtain rfl := Life.live.inj (live.symm.trans live')
    obtain ⟨call', φ'⟩ := θ'
    obtain ⟨rfl, step⟩ := stepped
    cases step with
    | look look => exact look.elim
    | release reports =>
      rw [reports_about reports held] at finds
      exact stage_reports finds (stage finds) reports succeeded
    | work work => cases work

/-! ### The protocol -/

/-- What holds of every run with a shared host. -/
structure HostProtocol (log : Log Id) (c : Config engines (scattered Id)) : Prop where
  /-- A dispatch is asked for by a call that executes and was granted this key, and no
  other answer of the host precedes it in that call. -/
  dispatched : ∀ before e after id key, log = before ++ e :: after → Dispatches id key e →
    (∃ call, .started id call ∈ before ∧ call.queries = false) ∧ Begun before id key .dispatch ∧
    ∀ key' decision, Begun before id key' decision → key' = key ∧ decision = .dispatch
  /-- So is a record. -/
  recorded : ∀ before e after id key, log = before ++ e :: after → Records id key e →
    Begun before id key .dispatch
  /-- No key is dispatched twice. -/
  once : ∀ key, keyDispatches key log ≤ 1
  /-- A call that finds no terminal while the host has recorded one, and returns no error,
  returns and stores the host's. -/
  agreed : ∀ (before : Log Id) (c₀ : Config engines (scattered Id)) id records middle outcome
      (after : Log Id) key terminal, log = before ++ (.did id ⟨.ledger .records, .ok records⟩ :: middle) ++
      .did id ⟨.release outcome, ()⟩ :: after →
    Config.Run before c₀ → c₀.shared.entries key = some (some terminal) →
    Reaches Config.Move c₀ ((.did id ⟨.ledger .records, .ok records⟩ :: middle) ++
      .did id ⟨.release outcome, ()⟩ :: after) c →
    (∀ e ∈ middle, ¬ Ends id e) → outcome.session.Finds key records → outcome.isOk = true →
    ∃ acknowledgement, outcome.Tells acknowledgement ∧
      acknowledgement.state = .terminal terminal ∧
      .did id ⟨.ledger (.append (.terminal acknowledgement)), .ok ()⟩ ∈ middle

/-- Only a session that was granted the key asks for its dispatch. -/
theorem dispatches_granted {c c' : Config phases (scattered Id)} {e : Entry Engine Id Call} {id : Id}
    {key : OutcomeKey} (move : Config.Move c e c') (dispatches : Dispatches id key e) :
    ∃ call, c.thread id = .live (call, .granted key false) := by
  have granted {call : Call} {φ φ' : Phase} {e : Event Engine}
      (live : c.thread id = .live (call, φ)) (step : Phase.Step call.outcomes φ e φ')
      (dispatches : e.op.dispatchesKey key = true) :
      ∃ call, c.thread id = .live (call, .granted key false) :=
    ⟨call, Phase.step_dispatches step dispatches ▸ live⟩
  cases dispatches with
  | did =>
    cases move with
    | answer live stepped => exact granted live stepped.2 (decide_eq_true rfl)
  | died =>
    cases move with
    | die live asks =>
      obtain ⟨ans, φ', step⟩ := asks
      exact granted live step (decide_eq_true rfl)

theorem records_granted {c c' : Config phases (scattered Id)} {e : Entry Engine Id Call} {id : Id}
    {key : OutcomeKey} (move : Config.Move c e c') (records : Records id key e) :
    ∃ call dispatched, c.thread id = .live (call, .granted key dispatched) := by
  have granted {call : Call} {φ φ' : Phase} {terminal : Terminal} {ans : Except ProtocolError Unit}
      (live : c.thread id = .live (call, φ))
      (step : Phase.Step call.outcomes φ ⟨.record .host key terminal, ans⟩ φ') :
      ∃ call dispatched, c.thread id = .live (call, .granted key dispatched) := by
    obtain ⟨dispatched, rfl⟩ := Phase.step_records step
    exact ⟨call, dispatched, live⟩
  cases records with
  | did =>
    cases move with
    | answer live stepped => exact granted live stepped.2
  | died =>
    cases move with
    | die live asks =>
      obtain ⟨ans, φ', step⟩ := asks
      exact granted live step

/-- A program asks for a dispatch only in a call that may. -/
theorem dispatches_executes {before : Log Id} {c c' : Config engines (scattered Id)}
    {e : Entry Engine Id Call} {id : Id} {key : OutcomeKey} (run : Config.Run before c)
    (move : Config.Move c e c') (dispatches : Dispatches id key e) :
    ∃ call, .started id call ∈ before ∧ call.queries = false := by
  have executes {call : Call} {op : EngineOp} {next : op.Answer → Prog Engine Unit}
      (live : c.thread id = .live (call, .ask op next)) (dispatch : op.IsDispatch) :
      ∃ call, .started id call ∈ before ∧ call.queries = false := by
    obtain ⟨started, only⟩ := begins_run run id call _ live
    refine ⟨call, started, Bool.eq_false_iff.mpr fun queries => ?_⟩
    exact (only queries).1 dispatch
  cases dispatches with
  | did =>
    cases move with
    | @answer _ θ θ' _ s live stepped answered =>
      obtain ⟨call, p⟩ := θ
      obtain ⟨next, rfl, _⟩ := stepped
      exact executes live trivial
  | died =>
    cases move with
    | @die _ θ op s live asks abandoned =>
      obtain ⟨call, p⟩ := θ
      obtain ⟨next, rfl⟩ := asks
      exact executes live trivial

/-- **The host's ledger protocol**: every run of engines that share a host keeps it,
whatever their local ledgers answer. -/
theorem host_protocol {log : Log Id} {c : Config engines (scattered Id)} (run : Config.Run log c)
    (host : AllHosted log) : HostProtocol log c := by
  have earlier {before after : Log Id} (same : log = before ++ after) : AllHosted before :=
    fun id call member => host id call (same ▸ List.mem_append_left _ member)
  -- the states around a move of the log, for the programs and for their phases
  have around {before after : Log Id} {e : Entry Engine Id Call} (same : log = before ++ e :: after) :
      ∃ (c c' : Config engines (scattered Id)) (d d' : Config phases (scattered Id)),
        Config.Run before c ∧ Config.Move c e c' ∧ Hosted before d ∧ Config.Move d e d' := by
    subst same
    obtain ⟨c, c', reached, move⟩ := Reaches.at_move run
    obtain ⟨d, reached', related⟩ := simulate (programs_follow Call.body_follows) reached
    obtain ⟨d', move', _⟩ := simulate_move (programs_follow Call.body_follows) related move
    exact ⟨c, c', d, d', reached, move, hosted_run reached' (earlier rfl), move'⟩
  refine ⟨?_, ?_, ?_, ?_⟩
  · intro before e after id key same dispatches
    obtain ⟨c, c', d, d', reached, move, hosted, move'⟩ := around same
    obtain ⟨call, live⟩ := dispatches_granted move' dispatches
    refine ⟨dispatches_executes reached move dispatches, hosted.granted id call key false live, ?_⟩
    intro key' decision begun
    obtain ⟨call', φ, live', after⟩ := hosted.begun id key' decision begun
    obtain ⟨rfl, rfl⟩ := Prod.mk.inj (Life.live.inj (live.symm.trans live'))
    exact ⟨after.1.symm, after.2⟩
  · intro before e after id key same records
    obtain ⟨_, _, d, d', _, _, hosted, move'⟩ := around same
    obtain ⟨call, dispatched, live⟩ := records_granted move' records
    exact hosted.granted id call key dispatched live
  · obtain ⟨d, run', _⟩ := simulate (programs_follow Call.body_follows) run
    exact (hosted_run run' host).once
  · intro before c₀ id records middle outcome after key terminal same reached recorded rest unended
      finds succeeded
    obtain ⟨d₀, reached', related⟩ := simulate (programs_follow Call.body_follows) reached
    obtain ⟨d, rest', _⟩ := simulate_from (programs_follow Call.body_follows) related rest
    rw [← related.shared] at recorded
    obtain ⟨d₁, d₂, read, move⟩ := Reaches.at_move rest'
    have hosted : AllHosted (before ++ .did id ⟨.ledger .records, .ok records⟩ :: middle) :=
      earlier same
    obtain ⟨session, pursues⟩ := pursues_run reached' recorded read hosted
    have unended' : ∀ e ∈ .did id ⟨.ledger .records, .ok records⟩ :: middle, ¬ Ends id e := by
      rintro e (_ | ⟨_, member⟩) ends
      · cases ends
      · exact unended e member ends
    obtain ⟨acknowledgement, tells, state, stored⟩ :=
      pursues_release pursues unended' move finds succeeded
    refine ⟨acknowledgement, tells, state, ?_⟩
    rcases List.mem_cons.mp stored with same | stored
    · cases same
    · exact stored

/-! ### A host and the bench -/

/-- The bench answers as its host and some local ledger may. -/
theorem Bench.realizes_scattered :
    environment.Realizes (scattered Nat) fun bench s => s = bench.outcomes := by
  -- a file that holds the records of the bench
  have backed (bench : Bench) : ∃ w : World Nat (fileStore objectReader.format) memoryHost,
      bench.Backs objectReader.format w :=
    ⟨⟨⟨⟨some (unlines (bench.records.map objectReader.format.line)), 0⟩, bench.outcomes⟩,
      bench.holder⟩, rfl, rfl, rfl⟩
  have refines := @world_scattered Nat _ (fileStore objectReader.format)
  constructor
  · rintro id op bench _ rfl
    obtain ⟨w, backs⟩ := backed bench
    obtain ⟨w', answered, backs'⟩ := realizes.respond id op bench w backs
    obtain ⟨s', answered', same⟩ := refines.answer id _ w w' _ backs.host.symm answered
    exact ⟨s', answered', same.trans backs'.host⟩
  · rintro id op bench _ rfl
    obtain ⟨w, backs⟩ := backed bench
    obtain ⟨w', abandoned, backs'⟩ := realizes.bury id op bench w backs
    obtain ⟨s', abandoned', same⟩ := refines.abandon id op w w' _ backs.host.symm abandoned
    exact ⟨s', abandoned', same.trans backs'.host⟩

/-- An execution whose terminal is recorded but not stored, and a query that recovers it. -/
theorem host_protocol_bench :
    ∃ (log : Log Nat) (c : Config engines (scattered Nat)), Config.Run log c ∧ AllHosted log ∧
      keyDispatches (benchKey .interactive) log = 1 ∧ HostProtocol log c := by
  let calls := [(Bench.executes .host, 100), (Bench.queries .host, 100)]
  let bench : Bench := { Bench.new with failures := [false, true, true] }
  obtain ⟨c, run, _⟩ : ∃ c : Config engines (scattered Nat), Config.Run (Bench.log calls bench) c ∧
      c.shared = (Bench.environment.serveAll Call.body 0 calls bench).2.outcomes :=
    serveAll_run Bench.realizes_scattered calls rfl
  have facts : (Bench.log calls bench).all isHostedStart = true ∧
      keyDispatches (benchKey .interactive) (Bench.log calls bench) = 1 := by decide +kernel
  have hosted := allHosted_of_all facts.1
  exact ⟨_, c, run, hosted, facts.2, host_protocol run hosted⟩

/-- The run of one call on a new bench. -/
theorem Bench.reaches_scattered (call : Call) (fuel : Nat) :
    ∃ w, Reaches Config.Move (Config.init : Config engines (scattered Nat))
        (environment.serve Call.body 0 call fuel new).1
        ⟨w, Function.update (fun _ => .unborn) 0 .over⟩ ∧
      w = (environment.serve Call.body 0 call fuel new).2.outcomes :=
  serve_reaches realizes_scattered call fuel rfl rfl

/-- After one execution the host has recorded a terminal. -/
theorem recorded_bench :
    ∃ (log : Log Nat) (w : MemoryOutcomeLedger) (terminal : Terminal),
      Reaches Config.Move (Config.init : Config engines (scattered Nat)) log
        ⟨w, Function.update (fun _ => .unborn) 0 .over⟩ ∧
      AllHosted log ∧ w.entries (benchKey .interactive) = some (some terminal) := by
  obtain ⟨w, executed, same⟩ := Bench.reaches_scattered (Bench.executes .host) 100
  have facts : (Bench.environment.serve Call.body 0 (Bench.executes .host) 100 .new).1.all
        isHostedStart = true ∧
      ((Bench.environment.serve Call.body 0 (Bench.executes .host) 100 .new).2.outcomes.entries
        (benchKey .interactive)).join.isSome = true := by decide +kernel
  obtain ⟨hosted, recorded⟩ := facts
  rw [← same] at recorded
  obtain ⟨terminal, recorded⟩ := Option.isSome_iff_exists.mp recorded
  exact ⟨_, w, terminal, executed, allHosted_of_all hosted, Option.join_eq_some_iff.mp recorded⟩

/-- The host while a query runs after an execution. -/
def querying (w : MemoryOutcomeLedger) (p : Prog Engine Unit) : Config engines (scattered Nat) :=
  ⟨w, Function.update (Function.update (fun _ => .unborn) 0 .over) 1 (.live (Bench.queries .host, p))⟩

/-- What the query asks of its local ledger leaves the host alone. -/
theorem querying_reaches {w : MemoryOutcomeLedger} {p p' : Prog Engine Unit} {trace : History}
    (steps : Steps p trace p') (still : ∀ e ∈ trace, (scattered Nat).answer 1 e w w) :
    Reaches Config.Move (querying w p) (trace.map (.did 1)) (querying w p') := by
  induction steps with
  | refl => exact .nil
  | @step op next _ _ ans _ ih =>
    obtain ⟨first, rest⟩ := List.forall_mem_cons.mp still
    have live : (querying w (.ask op next)).thread 1 = .live (Bench.queries .host, .ask op next) := by
      simp [querying]
    have moved := @Config.Move.answer _ _ _ engines (scattered Nat) _ _ 1 _
      (Bench.queries .host, next ans) ⟨op, ans⟩ w live ⟨next, rfl, rfl⟩ first
    rw [querying, Function.update_idem] at moved
    exact (Reaches.single moved).trans (ih rest)

/-- A query that finds nothing of the operation does not ask the host: after its claim was
lost with the local ledger, the terminal the host recorded is not returned. -/
theorem host_unheard :
    ∃ (before : Log Nat) (c₀ c : Config engines (scattered Nat)) (terminal : Terminal),
      Config.Run before c₀ ∧ AllHosted before ∧
      c₀.shared.entries (benchKey .interactive) = some (some terminal) ∧
      Reaches Config.Move c₀ [.did 1 ⟨.ledger .records, .ok []⟩,
        .did 1 ⟨.release (.queried "operation-1" (.ok none)), ()⟩] c := by
  obtain ⟨log, w, terminal, executed, hosted, recorded⟩ := recorded_bench
  have started : Config.Move ⟨w, Function.update (fun _ => .unborn) 0 .over⟩
      (.started 1 (Bench.queries .host)) (querying w (Bench.queries .host).body) := .start rfl rfl
  obtain ⟨p, p', repairs, reads⟩ : ∃ p p', Steps (Bench.queries .host).body
      [⟨.lock none, .ok ()⟩, ⟨.ledger .repairTail, .ok ()⟩] p ∧
      Steps p [⟨.ledger .records, .ok []⟩, ⟨.release (.queried "operation-1" (.ok none)), ()⟩] p' :=
    ⟨_, _, .step _ (.step _ (.refl _)), .step _ (.step _ (.refl _))⟩
  have repaired := @querying_reaches w _ _ _ repairs (by simp)
  have released := @querying_reaches w _ _ _ reads (by simp)
  refine ⟨_, _, _, terminal, (executed.trans (.single started)).trans repaired, ?_, recorded, released⟩
  intro id call member
  simp only [List.append_assoc, List.mem_append, List.mem_singleton] at member
  rcases member with member | same | same
  · exact hosted id call member
  · cases same
    rfl
  · simp at same

end Praefectus
