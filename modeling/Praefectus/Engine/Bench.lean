import Praefectus.Engine.Effects
import Praefectus.Ledger.Outcomes
import Praefectus.Program.Play

/-!
# A test bench for the engine

A fixed request, and an environment that grants it, performs it, and keeps a local
ledger and the reference outcome ledger of a host. Some appends may be made to fail.
-/

namespace Praefectus

/-! ### A request -/

def benchTarget : SemanticTargetRef where
  observationId := "".pushn 'a' 64
  generation := 1
  provenanceHash := "".pushn 'b' 64
  elementId := "".pushn 'c' 64
  fingerprintHash := "".pushn 'd' 64

/-- A button press in the given mode; the signature is for the verifier to judge. -/
def benchRequest (interactionMode : InteractionMode) : ActionRequest where
  protocolVersion := protocolVersion
  actionVersion := protocolVersion
  targetVersion := protocolVersion
  verificationVersion := protocolVersion
  operationId := "operation-1"
  subject := "subject-1"
  sessionId := "session-1"
  authority :=
    { grant :=
        { protocolVersion := protocolVersion
          issuer := "issuer-1"
          keyId := "key-1"
          operationId := "operation-1"
          subject := "subject-1"
          sessionId := "session-1"
          risk := .reversible
          expiresAtMs := 1000
          policyGeneration := "policy-1"
          actionHash := "" }
      signature := "".pushn '0' 128 }
  action := .invoke
  target := .element benchTarget
  interactionMode := interactionMode
  deadlineAtMs := 1000
  verification := .none
  safety := .reversible

/-- The digest of what its hash covers. -/
def benchDigest : InteractionMode → List UInt8
  | .backgroundOnly =>
    [135, 129, 97, 214, 176, 26, 227, 242, 190, 91, 5, 169, 109, 108, 248, 81, 16, 88, 208, 89, 33,
      195, 198, 239, 149, 54, 67, 117, 35, 156, 62, 137]
  | _ =>
    [16, 210, 188, 236, 122, 13, 105, 143, 239, 252, 240, 247, 180, 211, 103, 53, 170, 171, 142, 29,
      190, 120, 140, 6, 122, 129, 185, 230, 210, 87, 187, 33]

/-- A build in which the digest is known of that request. -/
def benchBuild (interactionMode : InteractionMode) : Build :=
  ⟨false, fun _ => benchDigest interactionMode⟩

def benchKey (interactionMode : InteractionMode) : OutcomeKey :=
  ⟨"operation-1", hexEncode (benchDigest interactionMode)⟩

/-! ### Its environment -/

/-- What the ledgers hold, who holds the lock, and which of the next appends fail. -/
structure Bench where
  records : List LedgerRecord
  outcomes : MemoryOutcomeLedger
  holder : Option Nat
  failures : List Bool

namespace Bench

def new : Bench := ⟨[], .new, none, []⟩

def release (bench : Bench) (id : Nat) : Bench :=
  if bench.holder = some id then { bench with holder := none } else bench

def failure : ProtocolError := .io "no space left on device"

def append (bench : Bench) (record : LedgerRecord) : Except ProtocolError Unit × Bench :=
  match bench.failures with
  | true :: failures => (.error failure, { bench with failures := failures })
  | failures => (.ok (), { bench with
      records := bench.records ++ [record]
      failures := failures.tail })

def capability : ActionCapability := ⟨"invoke", .targetAddressed, .guarded⟩

def observation : Observation := ⟨⟨"".pushn 'e' 64, none, "".pushn 'f' 64, 1⟩, ⟨.null, rfl⟩⟩

def respond (id : Nat) : (op : EngineOp) → Bench → op.Answer × Bench
  | .directories, bench => (fun _ => true, bench)
  | .verifyAuthority request _, bench => (.ok ⟨request.authority.grant.expiresAtMs⟩, bench)
  | .sessionIsolation, bench => (.sharedDesktop, bench)
  | .capabilities, bench => (.ok ⟨["invoke"], [capability]⟩, bench)
  | .observeWithBoundary .., bench => (.ok observation, bench)
  | .resolveWithBoundary .., bench => (.ok (.semantic benchTarget), bench)
  | .contextHashWithBoundary _, bench => (.ok ("".pushn '9' 64), bench)
  | .dispatch .., bench => (.ok ⟨"bench", []⟩, bench)
  | .isCancelled, bench => (false, bench)
  | .now, bench => (5, bench)
  | .lock _, bench =>
    match bench.holder with
    | none => (.ok (), { bench with holder := some id })
    | some _ => (.error (.ledger "operation ledger is busy"), bench)
  | .release _, bench => ((), bench.release id)
  | .ledger .repairTail, bench => (.ok (), bench)
  | .ledger .records, bench => (.ok bench.records, bench)
  | .ledger (.append record), bench => bench.append record
  | .trajectory _, bench => (.ok (), bench)
  | .begin .null _, bench => (.ok .dispatch, bench)
  | .begin .host key, bench =>
    let (decision, outcomes) := bench.outcomes.begin key
    (.ok decision, { bench with outcomes := outcomes })
  | .record .null _ _, bench => (.ok (), bench)
  | .record .host key terminal, bench =>
    (.ok (), { bench with outcomes := bench.outcomes.record key terminal })

/-- The bench as an environment of calls. A call that dies leaves the ledgers alone. -/
def environment : Environment Engine Bench := ⟨respond, fun id _ bench => bench.release id⟩

end Bench

/-- A call that returned a report that passes a check. -/
def reportsThat (check : ExecuteReport → Bool) : Except ProtocolError ExecuteReport → Bool
  | .ok report => check report
  | .error _ => false

/-- What the bench answers to an execution of its request. -/
def benchHistory (outcomes : Outcomes) (interactionMode : InteractionMode) (bench : Bench) :
    History × Prog Engine (Except ProtocolError ExecuteReport) × Bench :=
  Prog.play (Bench.respond 0) 100
    (execute (benchBuild interactionMode) outcomes (benchRequest interactionMode)).run bench

theorem bench_steps (outcomes : Outcomes) (interactionMode : InteractionMode) (bench : Bench) :
    Prog.Steps (execute (benchBuild interactionMode) outcomes (benchRequest interactionMode)).run
      (benchHistory outcomes interactionMode bench).1
      (benchHistory outcomes interactionMode bench).2.1 := by
  unfold benchHistory
  exact Prog.steps_play _ _ _ _

theorem bench_reports {outcomes : Outcomes} {interactionMode : InteractionMode} {bench : Bench}
    {check : ExecuteReport → Bool}
    (checked : (benchHistory outcomes interactionMode bench).2.1.returned?.any
      (reportsThat check) = true) :
    ∃ report, check report = true ∧
      Prog.Steps (execute (benchBuild interactionMode) outcomes (benchRequest interactionMode)).run
        (benchHistory outcomes interactionMode bench).1 (.ret (.ok report)) := by
  obtain ⟨result, checked, run⟩ := Prog.steps_returned checked
  cases result with
  | ok report => exact ⟨report, checked, run⟩
  | error => contradiction

/-- What it answers to a status query. -/
def benchQuery (outcomes : Outcomes) (bench : Bench) :
    History × Prog Engine (Except ProtocolError (Option ActionAck)) × Bench :=
  Prog.play (Bench.respond 0) 100 (status outcomes "operation-1").run bench

theorem benchQuery_steps (outcomes : Outcomes) (bench : Bench) :
    Prog.Steps (status outcomes "operation-1").run (benchQuery outcomes bench).1
      (benchQuery outcomes bench).2.1 := by
  unfold benchQuery
  exact Prog.steps_play _ _ _ _

end Praefectus
