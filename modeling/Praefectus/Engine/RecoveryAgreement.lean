import Praefectus.Engine.BackgroundSafety

/-!
# The two ways to recover a claim

An execution and a status query that find a claim without a terminal each write one.
The execution takes the context preservation from the request, the query from the
claim, so they agree exactly where both give the same.
-/

namespace Praefectus

open Prog

/-! ### Acknowledgements without their times -/

def Receipt.untimed (receipt : Receipt) : Receipt :=
  { receipt with startedAtMs := 0, finishedAtMs := 0 }

def Terminal.untimed : Terminal → Terminal
  | .succeeded receipt => .succeeded receipt.untimed
  | .outcomeUnknown receipt message => .outcomeUnknown receipt.untimed message
  | terminal => terminal

def ActionAck.untimed (acknowledgement : ActionAck) : ActionAck :=
  match acknowledgement.state with
  | .terminal terminal => { acknowledgement with state := .terminal terminal.untimed }
  | _ => acknowledgement

/-! ### What each of them writes -/

/-- The terminal a recovery writes: the host's if it has one. -/
def recoveredTerminal (decision : LedgerDecision) (interrupted : Terminal) : Terminal :=
  match decision with
  | .recorded terminal => terminal
  | _ => interrupted

/-- The host gave this decision, each time it was asked. -/
def Decided (history : History) (decision : LedgerDecision) : Prop :=
  ∀ outcomes key answer, (⟨.begin outcomes key, answer⟩ : Event Engine) ∈ history →
    answer = .ok decision

/-- The records of the ledger, each time they were read. -/
def Reads (history : History) (records : List LedgerRecord) : Prop :=
  ∀ answer, (⟨.ledger .records, answer⟩ : Event Engine) ∈ history → answer = .ok records

namespace Execution

variable {execution : Execution}

/-- The terminal of a claim that an execution found interrupted. -/
def interruptedTerminal (execution : Execution) (claim : ClaimFacts)
    (startedAtMs finishedAtMs : Int64) : Terminal :=
  .outcomeUnknown (recoveredReceipt claim (Praefectus.emptyReceipt execution.build
    execution.request execution.actionHash .unknown (claim.sessionIsolation.getD .unknown)
    startedAtMs finishedAtMs)) interruptedOutcomeMessage

theorem recovered_report {claim : ClaimFacts} {history : History} {report : ExecuteReport}
    {decision : LedgerDecision}
    (run : Steps (execution.recovered claim).run history (.ret (.ok report)))
    (decided : Decided history decision) :
    ∃ startedAtMs finishedAtMs, report = ⟨[execution.terminalAck
      (recoveredTerminal decision
        (execution.interruptedTerminal claim startedAtMs finishedAtMs))]⟩ := by
  have finishing {terminal : Terminal} {rest : History}
      (run : Steps (do
        finish (execution.terminalAck terminal)
        pure ⟨[execution.terminalAck terminal]⟩ : EngineM ExecuteReport).run rest
          (.ret (.ok report))) : report = ⟨[execution.terminalAck terminal]⟩ := by
    replace run := steps_try_ok run
    obtain ⟨_, _, _, _, _, run⟩ := run
    obtain ⟨_, same⟩ := steps_ret.mp run
    exact (Except.ok.inj same).symm
  replace run := steps_try_ok run
  obtain ⟨_, receipt, rest, rfl, emptied, run⟩ := run
  obtain ⟨_, emptied, same⟩ := steps_lift.mp emptied
  obtain rfl := Except.ok.inj same
  replace emptied := steps_bind.mp emptied
  obtain ⟨_, startedAtMs, _, rfl, _, emptied⟩ := emptied
  replace emptied := steps_bind.mp emptied
  obtain ⟨_, finishedAtMs, _, rfl, _, emptied⟩ := emptied
  obtain ⟨_, rfl⟩ := steps_ret.mp emptied
  replace run := steps_try_ok run
  obtain ⟨_, answered, rest, rfl, begun, run⟩ := run
  obtain rfl := steps_ask.mp begun
  obtain rfl : answered = decision := by
    refine Except.ok.inj (decided execution.outcomes execution.key _ ?_)
    simp only [List.mem_append, List.mem_cons, true_or, or_true]
  refine ⟨startedAtMs, finishedAtMs, ?_⟩
  cases answered <;> exact finishing run

/-- An execution that finds a claim and no terminal recovers it. -/
theorem locked_recovers {claim : ClaimFacts} {records : List LedgerRecord} {history : History}
    {report : ExecuteReport} {decision : LedgerDecision}
    (run : Steps execution.locked.run history (.ret (.ok report))) (reads : Reads history records)
    (decided : Decided history decision)
    (found : scan execution.request.operationId records = (some claim, none)) :
    claim.actionHash = execution.actionHash ∧
    ∃ startedAtMs finishedAtMs, report = ⟨[execution.terminalAck
      (recoveredTerminal decision
        (execution.interruptedTerminal claim startedAtMs finishedAtMs))]⟩ := by
  replace run := steps_try_ok run
  obtain ⟨mending, _, rest, rfl, _, run⟩ := run
  replace run := steps_try_ok run
  obtain ⟨claiming, result, rest, rfl, claimed, run⟩ := run
  replace claimed := steps_try_ok claimed
  obtain ⟨reading, read, others, rfl, asked, claimed⟩ := claimed
  obtain rfl := steps_ask.mp asked
  obtain rfl : read = records := by
    refine Except.ok.inj (reads _ ?_)
    simp only [List.mem_append, List.mem_cons, true_or, or_true]
  simp only [found] at claimed
  split at claimed
  · obtain ⟨_, same⟩ := steps_ret.mp claimed; contradiction
  next agrees =>
    obtain ⟨_, same⟩ := steps_ret.mp claimed
    obtain rfl := Except.ok.inj same
    refine ⟨not_not.mp agrees, recovered_report run fun outcomes key answer member => ?_⟩
    refine decided outcomes key answer ?_
    simp only [List.mem_append, member, or_true]

end Execution

/-- The acknowledgement a status query writes for an interrupted claim. -/
def reportedAck (operationId : String) (claim : ClaimFacts) (decision : LedgerDecision)
    (finishedAtMs : Int64) : ActionAck :=
  match decision with
  | .recorded terminal =>
    { generateInterruptedAck operationId claim finishedAtMs with state := .terminal terminal }
  | _ => generateInterruptedAck operationId claim finishedAtMs

/-- A status query that finds a claim and no terminal recovers it. -/
theorem statusLocked_recovers {outcomes : Outcomes} {operationId : String} {claim : ClaimFacts}
    {records : List LedgerRecord} {history : History} {found : Option ActionAck}
    {decision : LedgerDecision}
    (run : Steps (statusLocked outcomes operationId).run history (.ret (.ok found)))
    (reads : Reads history records) (decided : Decided history decision)
    (scanned : scan operationId records = (some claim, none)) :
    ∃ finishedAtMs, found = some (reportedAck operationId claim decision finishedAtMs) := by
  have finishing {acknowledgement : ActionAck} {rest : History}
      (run : Steps (do
        finish acknowledgement
        pure (some acknowledgement) : EngineM (Option ActionAck)).run rest (.ret (.ok found))) :
      found = some acknowledgement := by
    replace run := steps_try_ok run
    obtain ⟨_, _, _, _, _, run⟩ := run
    obtain ⟨_, same⟩ := steps_ret.mp run
    exact (Except.ok.inj same).symm
  replace run := steps_try_ok run
  obtain ⟨mending, _, rest, rfl, _, run⟩ := run
  replace run := steps_try_ok run
  obtain ⟨reading, read, rest, rfl, asked, run⟩ := run
  obtain rfl := steps_ask.mp asked
  obtain rfl : read = records := by
    refine Except.ok.inj (reads _ ?_)
    simp only [List.mem_append, List.mem_cons, true_or, or_true]
  simp only [scanned] at run
  replace run := steps_try_ok run
  obtain ⟨clock, finishedAtMs, rest, rfl, _, run⟩ := run
  replace run := steps_try_ok run
  obtain ⟨_, answered, rest, rfl, begun, run⟩ := run
  obtain rfl := steps_ask.mp begun
  obtain rfl : answered = decision := by
    refine Except.ok.inj (decided outcomes ⟨operationId, claim.actionHash⟩ _ ?_)
    simp only [List.mem_append, List.mem_cons, true_or, or_true]
  refine ⟨finishedAtMs, ?_⟩
  cases answered <;> exact finishing run

/-! ### Where they agree -/

/-- The host knows the outcome, or the claim gives the same context preservation as the
request: it stores the mode of the request, or no mode while the request is a background
one and the claimed session was not isolated by its host. -/
def RecoveriesAgree (request : ActionRequest) (claim : ClaimFacts) (decision : LedgerDecision) :
    Prop :=
  (∃ terminal, decision = .recorded terminal) ∨
  claim.interactionMode = some request.interactionMode ∨
  (claim.interactionMode.getD .unknown = .unknown ∧
    request.interactionMode = .backgroundOnly ∧ claim.sessionIsolation ≠ some .hostIsolated)

/-- The two derivations of the context preservation, one from the mode of the request
and one from the claimed mode. -/
theorem recoveredContextPreservation_agree {mode : InteractionMode}
    (claimed : Option InteractionMode) (isolation : Option SessionIsolation)
    (accepted : mode ≠ .unknown) :
    recoveredContextPreservation mode (isolation.getD .unknown) =
        recoveredContextPreservation (claimed.getD .unknown) (isolation.getD .unknown) ↔
      claimed = some mode ∨ (claimed.getD .unknown = .unknown ∧ mode = .backgroundOnly ∧
        isolation ≠ some .hostIsolated) := by
  cases mode with
  | unknown => contradiction
  | interactive =>
    rcases claimed with _ | _ | _ | _ <;> rcases isolation with _ | _ | _ | _ <;>
      simp [recoveredContextPreservation]
  | backgroundOnly =>
    rcases claimed with _ | _ | _ | _ <;> rcases isolation with _ | _ | _ | _ <;>
      simp [recoveredContextPreservation]

namespace Execution

variable {execution : Execution}

theorem recovered_agree {claim : ClaimFacts} (decision : LedgerDecision)
    (startedAtMs finishedAtMs finishedAtMs' : Int64)
    (accepted : execution.request.interactionMode ≠ .unknown)
    (claimed : claim.actionHash = execution.actionHash) :
    (execution.terminalAck (recoveredTerminal decision
        (execution.interruptedTerminal claim startedAtMs finishedAtMs))).untimed =
      (reportedAck execution.request.operationId claim decision finishedAtMs').untimed ↔
    RecoveriesAgree execution.request claim decision := by
  have facts := recoveredContextPreservation_agree claim.interactionMode claim.sessionIsolation
    accepted
  cases decision with
  | recorded terminal =>
    refine iff_of_true ?_ (.inl ⟨terminal, rfl⟩)
    simp only [terminalAck, Praefectus.terminalAck, ack, recoveredTerminal, reportedAck,
      generateInterruptedAck, ActionAck.untimed, claimed]
  | dispatch | interrupted =>
    rw [RecoveriesAgree, ← facts]
    simp only [terminalAck, Praefectus.terminalAck, ack, recoveredTerminal, reportedAck,
      interruptedTerminal, recoveredReceipt, Praefectus.emptyReceipt, generateInterruptedAck,
      ActionAck.untimed, Terminal.untimed, Receipt.untimed, claimed, ActionAck.mk.injEq,
      AckState.terminal.injEq, Terminal.outcomeUnknown.injEq, Receipt.mk.injEq, true_and, and_true,
      reduceCtorEq, exists_false, false_or]

end Execution

theorem accepted_mode {build : Build} {isDir : PathBuf → Bool} {request : ActionRequest}
    (accepted : validateRequest build isDir request = .ok ()) :
    request.interactionMode ≠ .unknown := by
  intro unknown
  simp only [validateRequest, unknown, decide_true, Bool.or_true, if_true] at accepted
  contradiction

theorem execute_accepted {build : Build} {outcomes : Outcomes} {request : ActionRequest}
    {history : History} {report : ExecuteReport}
    (run : Steps (execute build outcomes request).run history (.ret (.ok report))) :
    ∃ isDir, validateRequest build isDir request = .ok () := by
  replace run := steps_try_ok run
  obtain ⟨_, isDir, rest, rfl, _, run⟩ := run
  replace run := steps_try_ok run
  obtain ⟨_, _, rest, rfl, valid, run⟩ := run
  exact ⟨isDir, (steps_ret.mp valid).2⟩

theorem status_cases {outcomes : Outcomes} {operationId : String} {history : History}
    {found : Option ActionAck}
    (run : Steps (status outcomes operationId).run history (.ret (.ok found))) :
    ∃ before inside after, history = before ++ (inside ++ after) ∧
      Steps (statusLocked outcomes operationId).run inside (.ret (.ok found)) := by
  unfold status at run
  split at run
  · replace run := steps_try_ok run
    obtain ⟨_, _, _, _, failed, _⟩ := run
    obtain ⟨_, same⟩ := steps_ret.mp failed
    contradiction
  replace run := steps_try_ok run
  obtain ⟨locking, _, rest, rfl, _, run⟩ := run
  replace run := steps_bind.mp run
  obtain ⟨inside, result, rest, rfl, body, run⟩ := run
  replace run := steps_bind.mp run
  obtain ⟨after, _, rest, rfl, _, run⟩ := run
  obtain ⟨rfl, rfl⟩ := steps_ret.mp run
  rw [List.append_nil]
  exact ⟨locking, inside, after, rfl, body⟩

/-- **The two recoveries**: for a ledger with a claim and no terminal, an execution and a
status query that get the same answer from the host write the same acknowledgement, up
to its times, exactly where the claim and the request give the same context
preservation. -/
theorem recoveries_agree_iff {build : Build} {outcomes : Outcomes} {request : ActionRequest}
    {records : List LedgerRecord} {claim : ClaimFacts} {decision : LedgerDecision}
    {executing querying : History} {report : ExecuteReport} {found : Option ActionAck}
    (executed : Steps (execute build outcomes request).run executing (.ret (.ok report)))
    (queried : Steps (status outcomes request.operationId).run querying (.ret (.ok found)))
    (scanned : scan request.operationId records = (some claim, none))
    (reads : Reads executing records) (reads' : Reads querying records)
    (decided : Decided executing decision) (decided' : Decided querying decision) :
    (∃ recovered reported, report.acknowledgements = [recovered] ∧ found = some reported ∧
      recovered.untimed = reported.untimed) ↔ RecoveriesAgree request claim decision := by
  obtain ⟨isDir, valid⟩ := execute_accepted executed
  obtain ⟨execution, opening, inside, rfl, _, opened, body⟩ := execute_cases executed
  obtain rfl := opened.requested
  obtain ⟨before, within, after, rfl, body'⟩ := status_cases queried
  obtain ⟨claimed, startedAtMs, finishedAtMs, rfl⟩ := Execution.locked_recovers body
    (fun answer member => reads answer (by simp only [List.mem_append, member, true_or, or_true]))
    (fun outcomes key answer member => decided outcomes key answer
      (by simp only [List.mem_append, member, true_or, or_true])) scanned
  obtain ⟨finishedAtMs', rfl⟩ := statusLocked_recovers body'
    (fun answer member => reads' answer (by simp only [List.mem_append, member, true_or, or_true]))
    (fun outcomes key answer member => decided' outcomes key answer
      (by simp only [List.mem_append, member, true_or, or_true])) scanned
  rw [← Execution.recovered_agree decision startedAtMs finishedAtMs finishedAtMs'
    (accepted_mode valid) claimed]
  constructor
  · rintro ⟨recovered, reported, same, same', equal⟩
    obtain rfl := List.singleton_inj.mp same
    obtain rfl := Option.some.inj same'
    exact equal
  · intro equal
    exact ⟨_, _, rfl, rfl, equal⟩

/-! ### Recoveries on the bench -/

def isDecided (decision : LedgerDecision) : Event Engine → Bool
  | ⟨.begin .., answer⟩ => answer = .ok decision
  | _ => true

theorem decided_of_all {history : History} {decision : LedgerDecision}
    (all : history.all (isDecided decision) = true) : Decided history decision :=
  fun _ _ _ member => of_decide_eq_true (List.all_eq_true.mp all _ member)

def isRead (records : List LedgerRecord) : Event Engine → Bool
  | ⟨.ledger .records, answer⟩ => answer = .ok records
  | _ => true

theorem reads_of_all {history : History} {records : List LedgerRecord}
    (all : history.all (isRead records) = true) : Reads history records :=
  fun _ member => of_decide_eq_true (List.all_eq_true.mp all _ member)

/-- A ledger with one claim of the request of the bench, made in the given mode. -/
def benchClaim (claimed : Option InteractionMode) : ClaimFacts :=
  ⟨hexEncode (benchDigest .interactive), 1, some "invoke", some .targetAddressed,
    some .sharedDesktop, claimed⟩

def benchClaimed (claimed : Option InteractionMode) : Bench :=
  { Bench.new with records := [.claim "operation-1" (hexEncode (benchDigest .interactive)) 1
    (some "invoke") (some .targetAddressed) (some .sharedDesktop) claimed] }

/-- Both recoveries of a claim on the bench: with the ledger and the host as assumed, both
report, and their acknowledgements are as `check` says. -/
def benchRecoveries (bench : Bench) (check : List ActionAck → List ActionAck → Bool) : Bool :=
  let executed := benchHistory .null .interactive bench
  let queried := benchQuery .null bench
  executed.1.all (isRead bench.records) && queried.1.all (isRead bench.records) &&
    executed.1.all (isDecided .dispatch) && queried.1.all (isDecided .dispatch) &&
    match executed.2.1.returned?, queried.2.1.returned? with
    | some (.ok report), some (.ok found) => check report.acknowledgements found.toList
    | _, _ => false

theorem benchRecoveries_runs {bench : Bench} {check : List ActionAck → List ActionAck → Bool}
    (checked : benchRecoveries bench check = true) :
    ∃ executing querying report found,
      Steps (execute (benchBuild .interactive) .null (benchRequest .interactive)).run executing
        (.ret (.ok report)) ∧
      Steps (status .null (benchRequest .interactive).operationId).run querying (.ret (.ok found)) ∧
      Reads executing bench.records ∧ Reads querying bench.records ∧
      Decided executing .dispatch ∧ Decided querying .dispatch ∧
      check report.acknowledgements found.toList = true := by
  simp only [benchRecoveries, Bool.and_eq_true] at checked
  obtain ⟨⟨⟨⟨reads, reads'⟩, decided⟩, decided'⟩, checked⟩ := checked
  have run := bench_steps .null .interactive bench
  have run' := benchQuery_steps .null bench
  split at checked
  next report found returned returned' =>
    rw [returned_ret returned] at run
    rw [returned_ret returned'] at run'
    exact ⟨_, _, report, found, run, run', reads_of_all reads, reads_of_all reads',
      decided_of_all decided, decided_of_all decided', checked⟩
  next => exact absurd checked Bool.false_ne_true

theorem scan_benchClaimed (claimed : Option InteractionMode) :
    scan "operation-1" (benchClaimed claimed).records = (some (benchClaim claimed), none) := by
  simp [scan, benchClaimed, benchClaim]

/-- A claim that stores its mode is recovered alike. -/
theorem recoveries_agree_bench :
    ∃ executing querying report found,
      Steps (execute (benchBuild .interactive) .null (benchRequest .interactive)).run executing
        (.ret (.ok report)) ∧
      Steps (status .null (benchRequest .interactive).operationId).run querying (.ret (.ok found)) ∧
      ∃ recovered reported, report.acknowledgements = [recovered] ∧ found = some reported ∧
        recovered.untimed = reported.untimed := by
  obtain ⟨executing, querying, report, found, run, run', reads, reads', decided, decided', _⟩ :=
    @benchRecoveries_runs (benchClaimed (some .interactive)) (fun _ _ => true)
      (by decide +kernel)
  have exactly := recoveries_agree_iff run run' (scan_benchClaimed _) reads reads' decided decided'
  exact ⟨executing, querying, report, found, run, run', exactly.mpr (.inr (.inl rfl))⟩

/-- A claim that an older version wrote without a mode is not. -/
theorem recoveries_disagree :
    ∃ executing querying report found recovered reported,
      Steps (execute (benchBuild .interactive) .null (benchRequest .interactive)).run executing
        (.ret (.ok report)) ∧
      Steps (status .null (benchRequest .interactive).operationId).run querying (.ret (.ok found)) ∧
      scan (benchRequest .interactive).operationId (benchClaimed none).records =
        (some (benchClaim none), none) ∧
      Reads executing (benchClaimed none).records ∧ Reads querying (benchClaimed none).records ∧
      Decided executing .dispatch ∧ Decided querying .dispatch ∧
      report.acknowledgements = [recovered] ∧ found = some reported ∧
      recovered.untimed ≠ reported.untimed := by
  obtain ⟨executing, querying, report, found, run, run', reads, reads', decided, decided', checked⟩ :=
    @benchRecoveries_runs (benchClaimed none) (fun recovered reported =>
      decide (recovered.length = 1) && decide (reported.length = 1) &&
        decide (recovered.map ActionAck.untimed ≠ reported.map ActionAck.untimed))
      (by decide +kernel)
  simp only [Bool.and_eq_true, decide_eq_true_eq] at checked
  obtain ⟨⟨one, one'⟩, differ⟩ := checked
  obtain ⟨recovered, same⟩ := List.length_eq_one_iff.mp one
  cases found with
  | none => simp at one'
  | some reported =>
    refine ⟨executing, querying, report, _, recovered, reported, run, run', scan_benchClaimed _,
      reads, reads', decided, decided', same, rfl, fun equal => differ ?_⟩
    rw [same]
    simp [equal]

end Praefectus
