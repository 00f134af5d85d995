import Praefectus.Engine.RecoveryAgreement

/-!
# The phases of a call

Seen from the two ledgers a call goes through a few phases between taking the lock and
releasing it. The automaton here says which question each phase allows next and what
the phase after it remembers. Every program of the engine follows it, so what holds of
all runs of the automaton holds of all runs of the engine.
-/

namespace Praefectus

open Prog

/-- What a call that holds the ledger lock is about. -/
inductive Session where
  | executes (key : OutcomeKey)
  | queries (operationId : String)

namespace Session

def operationId : Session → String
  | .executes key => key.operationId
  | .queries operationId => operationId

/-- An execution goes on only with a claim of its own action hash. -/
def Fits : Session → String → Prop
  | .executes key, actionHash => actionHash = key.actionHash
  | .queries _, _ => True

/-- The result that reports an acknowledgement; an execution may mark it as replayed. -/
inductive Tells : Session → ActionAck → Outcome → Prop where
  | executed {key : OutcomeKey} {report : ExecuteReport} {acknowledgement : ActionAck}
      (replayed : Bool) :
      report.acknowledgements.getLast? = some { acknowledgement with replayed := replayed } →
      Tells (.executes key) acknowledgement (.executed key (.ok report))
  | queried {operationId : String} {acknowledgement : ActionAck} :
      Tells (.queries operationId) acknowledgement (.queried operationId (.ok (some acknowledgement)))

inductive Fails : Session → Outcome → Prop where
  | executed {key : OutcomeKey} {e : ProtocolError} : Fails (.executes key) (.executed key (.error e))
  | queried {operationId : String} {e : ProtocolError} :
      Fails (.queries operationId) (.queried operationId (.error e))

end Session

def LedgerDecision.isRecorded : LedgerDecision → Bool
  | .recorded _ => true
  | _ => false

/-- The key a session that read `records` asks the host about, and the acknowledgement
it would replace: a claim without a terminal, or an interrupted terminal. -/
inductive Seeks (session : Session) (records : List LedgerRecord) :
    OutcomeKey → Option ActionAck → Prop where
  | claim {claim : ClaimFacts} : scan session.operationId records = (some claim, none) →
      session.Fits claim.actionHash →
      Seeks session records ⟨session.operationId, claim.actionHash⟩ none
  | interrupted {acknowledgement : ActionAck} :
      (scan session.operationId records).2 = some acknowledgement →
      acknowledgement.isInterrupted = true →
      Seeks session records acknowledgement.key (some acknowledgement)

/-- The acknowledgement that settles a key after the host's decision: the terminal the
host recorded, or an interrupted one where there was none. -/
inductive Resolves (key : OutcomeKey) :
    LedgerDecision → Option ActionAck → ActionAck → Prop where
  | recorded {terminal : Terminal} {found : Option ActionAck} {acknowledgement : ActionAck} :
      acknowledgement.key = key → acknowledgement.state = .terminal terminal →
      Resolves key (.recorded terminal) found acknowledgement
  | interrupted {decision : LedgerDecision} {acknowledgement : ActionAck} :
      decision.isRecorded = false → acknowledgement.key = key →
      acknowledgement.isInterrupted = true → Resolves key decision none acknowledgement

inductive Phase where
  | idle
  | held (session : Session)
  | whole (session : Session)
  | reading (session : Session) (records : List LedgerRecord)
  | claimed (key : OutcomeKey)
  | consulted (session : Session) (key : OutcomeKey) (decision : LedgerDecision) (fresh : Bool)
      (found : Option ActionAck)
  | granted (key : OutcomeKey) (dispatched : Bool)
  | saving (key : OutcomeKey) (terminal : Terminal) (acknowledgement : ActionAck) (effect : Bool)
  | retrying (key : OutcomeKey) (terminal : Terminal) (acknowledgement : ActionAck)
  | mended (key : OutcomeKey) (terminal : Terminal) (acknowledgement : ActionAck)
  | answered (session : Session) (acknowledgement : ActionAck) (stored : Bool)
  | failed (session : Session)

namespace Phase

/-- The session a phase belongs to, while the lock is held. -/
def session : Phase → Option Session
  | .idle => none
  | .held session | .whole session | .reading session _ | .consulted session ..
  | .answered session .. | .failed session => some session
  | .claimed key | .granted key _ | .saving key .. | .retrying key .. | .mended key .. =>
    some (.executes key)

/-- The phase after a question that may fail. -/
def after {α : Type} (next : Phase) (session : Session) : Except ProtocolError α → Phase
  | .ok _ => next
  | .error _ => .failed session

/-- What a call may report as it releases the lock. -/
inductive Reports : Phase → Outcome → Prop where
  | failed {φ : Phase} {session : Session} {outcome : Outcome} :
      φ.session = some session → session.Fails outcome → Reports φ outcome
  | missing {operationId : String} {records : List LedgerRecord} :
      scan operationId records = (none, none) →
      Reports (.reading (.queries operationId) records) (.queried operationId (.ok none))
  | replayed {session : Session} {records : List LedgerRecord} {acknowledgement : ActionAck}
      {outcome : Outcome} : (scan session.operationId records).2 = some acknowledgement →
      acknowledgement.isInterrupted = false → session.Tells acknowledgement outcome →
      Reports (.reading session records) outcome
  | kept {session : Session} {key : OutcomeKey} {decision : LedgerDecision} {fresh : Bool}
      {acknowledgement : ActionAck} {outcome : Outcome} : decision.isRecorded = false →
      session.Tells acknowledgement outcome →
      Reports (.consulted session key decision fresh (some acknowledgement)) outcome
  | answered {session : Session} {acknowledgement : ActionAck} {stored : Bool} {outcome : Outcome} :
      session.Tells acknowledgement outcome →
      Reports (.answered session acknowledgement stored) outcome

end Phase

/-- Questions that touch neither the lock nor a ledger, and dispatch nothing. -/
def EngineOp.IsLook : EngineOp → Prop
  | .directories | .verifyAuthority .. | .sessionIsolation | .capabilities
  | .observeWithBoundary .. | .resolveWithBoundary .. | .contextHashWithBoundary _
  | .isCancelled | .now | .trajectory _ => True
  | _ => False

theorem quiet_look {op : EngineOp} (quiet : op.IsQuiet) : op.IsLook := by
  cases op <;> simp_all [EngineOp.IsQuiet, EngineOp.IsLook]

/-- The work of a call that holds the lock: what it asks the two ledgers, and the
dispatch. -/
inductive Phase.Work (outcomes : Outcomes) : Phase → Event Engine → Phase → Prop where
  | repair {session : Session} (ans : Except ProtocolError Unit) :
      Work outcomes (.held session) ⟨.ledger .repairTail, ans⟩ (.after (.whole session) session ans)
  | read {session : Session} {records : List LedgerRecord} :
      Work outcomes (.whole session) ⟨.ledger .records, .ok records⟩ (.reading session records)
  | unread {session : Session} {e : ProtocolError} :
      Work outcomes (.whole session) ⟨.ledger .records, .error e⟩ (.failed session)
  | claim {key : OutcomeKey} {records : List LedgerRecord} {record : LedgerRecord} :
      (scan key.operationId records).1 = none → record.Claims key →
      (ans : Except ProtocolError Unit) →
      Work outcomes (.reading (.executes key) records) ⟨.ledger (.append record), ans⟩
        (.after (.claimed key) (.executes key) ans)
  | grant {key : OutcomeKey} :
      Work outcomes (.claimed key) ⟨.begin outcomes key, .ok .dispatch⟩ (.granted key false)
  | resolve {key : OutcomeKey} {decision : LedgerDecision} : decision ≠ .dispatch →
      Work outcomes (.claimed key) ⟨.begin outcomes key, .ok decision⟩
        (.consulted (.executes key) key decision true none)
  | ungranted {key : OutcomeKey} {e : ProtocolError} :
      Work outcomes (.claimed key) ⟨.begin outcomes key, .error e⟩ (.failed (.executes key))
  | consult {session : Session} {records : List LedgerRecord} {key : OutcomeKey}
      {found : Option ActionAck} {decision : LedgerDecision} : Seeks session records key found →
      Work outcomes (.reading session records) ⟨.begin outcomes key, .ok decision⟩
        (.consulted session key decision false found)
  | unconsulted {session : Session} {records : List LedgerRecord} {key : OutcomeKey}
      {found : Option ActionAck} {e : ProtocolError} : Seeks session records key found →
      Work outcomes (.reading session records) ⟨.begin outcomes key, .error e⟩ (.failed session)
  | settle {session : Session} {key : OutcomeKey} {decision : LedgerDecision} {fresh : Bool}
      {found : Option ActionAck} {acknowledgement : ActionAck} :
      Resolves key decision found acknowledgement → (ans : Except ProtocolError Unit) →
      Work outcomes (.consulted session key decision fresh found)
        ⟨.ledger (.append (.terminal acknowledgement)), ans⟩
        (.after (.answered session acknowledgement true) session ans)
  | dispatch {key : OutcomeKey} {action : Action} {target : ResolvedTarget}
      {verification : VerificationPolicy} {deadlineAtMs : Int64}
      {ans : Except DispatchError DispatchReceipt} :
      Work outcomes (.granted key false)
        ⟨.dispatch key action target verification deadlineAtMs, ans⟩ (.granted key true)
  | record {key : OutcomeKey} {dispatched : Bool} {terminal : Terminal}
      {acknowledgement : ActionAck} {effect : Bool} : acknowledgement.key = key →
      acknowledgement.state = .terminal terminal →
      Work outcomes (.granted key dispatched) ⟨.record outcomes key terminal, .ok ()⟩
        (.saving key terminal acknowledgement effect)
  | unrecorded {key : OutcomeKey} {dispatched : Bool} {terminal : Terminal} {e : ProtocolError} :
      Work outcomes (.granted key dispatched) ⟨.record outcomes key terminal, .error e⟩
        (.failed (.executes key))
  | doubted {key : OutcomeKey} {terminal : Terminal} {acknowledgement : ActionAck}
      {e : ProtocolError} : acknowledgement.key = key →
      acknowledgement.state = .terminal (persistenceUnknown terminal) →
      Work outcomes (.granted key true) ⟨.record outcomes key terminal, .error e⟩
        (.saving key terminal acknowledgement true)
  | save {key : OutcomeKey} {terminal : Terminal} {acknowledgement : ActionAck} {effect : Bool} :
      Work outcomes (.saving key terminal acknowledgement effect)
        ⟨.ledger (.append (.terminal acknowledgement)), .ok ()⟩
        (.answered (.executes key) acknowledgement true)
  | unsaved {key : OutcomeKey} {terminal : Terminal} {acknowledgement : ActionAck}
      {e : ProtocolError} :
      Work outcomes (.saving key terminal acknowledgement false)
        ⟨.ledger (.append (.terminal acknowledgement)), .error e⟩ (.failed (.executes key))
  | retry {key : OutcomeKey} {terminal : Terminal} {acknowledgement : ActionAck}
      {e : ProtocolError} :
      Work outcomes (.saving key terminal acknowledgement true)
        ⟨.ledger (.append (.terminal acknowledgement)), .error e⟩
        (.retrying key terminal (persistenceUnknownAck acknowledgement))
  | mend {key : OutcomeKey} {terminal : Terminal} {acknowledgement : ActionAck} :
      Work outcomes (.retrying key terminal acknowledgement) ⟨.ledger .repairTail, .ok ()⟩
        (.mended key terminal acknowledgement)
  | unmended {key : OutcomeKey} {terminal : Terminal} {acknowledgement : ActionAck}
      {e : ProtocolError} :
      Work outcomes (.retrying key terminal acknowledgement) ⟨.ledger .repairTail, .error e⟩
        (.answered (.executes key) acknowledgement false)
  | resave {key : OutcomeKey} {terminal : Terminal} {acknowledgement : ActionAck} :
      Work outcomes (.mended key terminal acknowledgement)
        ⟨.ledger (.append (.terminal acknowledgement)), .ok ()⟩
        (.answered (.executes key) acknowledgement true)
  | lose {key : OutcomeKey} {terminal : Terminal} {acknowledgement : ActionAck}
      {e : ProtocolError} :
      Work outcomes (.mended key terminal acknowledgement)
        ⟨.ledger (.append (.terminal acknowledgement)), .error e⟩
        (.answered (.executes key) acknowledgement false)

/-- The automaton of a call of an engine with the given outcome ledger. -/
inductive Phase.Step (outcomes : Outcomes) : Phase → Event Engine → Phase → Prop where
  | look {φ : Phase} {op : EngineOp} {ans : op.Answer} : op.IsLook →
      Step outcomes φ ⟨op, ans⟩ φ
  | refused {deadline : Option Int64} {e : ProtocolError} :
      Step outcomes .idle ⟨.lock deadline, .error e⟩ .idle
  | lock {deadline : Option Int64} (session : Session) :
      Step outcomes .idle ⟨.lock deadline, .ok ()⟩ (.held session)
  | release {φ : Phase} {outcome : Outcome} : φ.Reports outcome →
      Step outcomes φ ⟨.release outcome, ()⟩ .idle
  | work {φ φ' : Phase} {e : Event Engine} : Work outcomes φ e φ' → Step outcomes φ e φ'

/-- Working stays within the session. -/
theorem Phase.work_session {outcomes : Outcomes} {φ φ' : Phase} {e : Event Engine}
    (work : Phase.Work outcomes φ e φ') : ∃ session, φ.session = some session ∧
      φ'.session = some session := by
  cases work with
  | repair ans | claim _ _ ans | settle _ ans => cases ans <;> exact ⟨_, rfl, rfl⟩
  | _ => exact ⟨_, rfl, rfl⟩

theorem reports_session {φ : Phase} {outcome : Outcome} (reports : φ.Reports outcome) :
    φ.session.isSome = true := by
  cases reports with
  | failed held _ => rw [held]; rfl
  | _ => rfl

end Praefectus
