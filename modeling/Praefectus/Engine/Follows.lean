import Praefectus.Engine.Phases

/-!
# The engine follows its phases

Each part of a call is followed from the phase it starts in to a phase that may report
what the part returns.
-/

namespace Praefectus

open Prog

variable {outcomes : Outcomes}

theorem look_still : ∀ (φ : Phase) (op : EngineOp) (ans : op.Answer), op.IsLook →
    Phase.Step outcomes φ ⟨op, ans⟩ φ :=
  fun _ _ _ look => .look look

theorem look_ask {op : EngineOp} (look : op.IsLook) : (ask op).Only EngineOp.IsLook :=
  ⟨look, fun _ => trivial⟩

theorem look_trajectory (acknowledgement : ActionAck) :
    (trajectory acknowledgement).Only EngineOp.IsLook :=
  only_bind (look_ask trivial) fun _ => trivial

theorem look_emptyReceipt (execution : Execution) (sessionIsolation : SessionIsolation) :
    (execution.emptyReceipt sessionIsolation).Only EngineOp.IsLook :=
  only_mono (execution.quiet_emptyReceipt _) fun _ => quiet_look

/-- Storing an acknowledgement takes one step, whatever becomes of it. -/
theorem follows_finish {φ stored : Phase} {unstored : ProtocolError → Phase}
    {acknowledgement : ActionAck} {Q : Except ProtocolError Unit → Phase → Prop}
    (done : Phase.Step outcomes φ ⟨.ledger (.append (.terminal acknowledgement)), .ok ()⟩ stored)
    (failed : ∀ e, Phase.Step outcomes φ ⟨.ledger (.append (.terminal acknowledgement)), .error e⟩
      (unstored e))
    (onDone : Q (.ok ()) stored) (onFailed : ∀ e, Q (.error e) (unstored e)) :
    (finish acknowledgement).run.Follows (Phase.Step outcomes) Q φ := by
  refine follows_try fun ans => ?_
  cases ans with
  | error e => exact ⟨_, failed e, onFailed e⟩
  | ok =>
    refine ⟨stored, done, ?_⟩
    rw [run_monadLift]
    refine follows_bind (follows_mono (only_follows look_still (look_trajectory _) stored) ?_)
    rintro _ _ rfl
    exact onDone

namespace Execution

variable {execution : Execution}

theorem fails_executed (e : ProtocolError) :
    (Session.executes execution.key).Fails (.executed execution.key (.error e)) := .executed

/-- The last acknowledgement of a report is told as it is. -/
theorem tells_last (acknowledgements : List ActionAck) (acknowledgement : ActionAck) :
    (Session.executes execution.key).Tells acknowledgement
      (.executed execution.key (.ok ⟨acknowledgements ++ [acknowledgement]⟩)) :=
  .executed acknowledgement.replayed (by rw [List.getLast?_concat])

theorem follows_finishWithoutEffect (acknowledgements : List ActionAck) (terminal : Terminal)
    (dispatched : Bool) :
    (execution.finishWithoutEffect acknowledgements terminal).run.Follows
      (Phase.Step execution.outcomes)
      (fun result φ => φ.Reports (.executed execution.key result))
      (.granted execution.key dispatched) := by
  refine follows_try fun ans => ?_
  cases ans with
  | error e => exact ⟨_, .work .unrecorded, .failed rfl (fails_executed e)⟩
  | ok =>
    refine ⟨.saving execution.key terminal (execution.terminalAck terminal) false,
      .work (.record rfl rfl), ?_⟩
    refine follows_try (follows_finish (.work .save) (fun _ => .work .unsaved) ?_ fun e => ?_)
    · exact .answered (tells_last acknowledgements _)
    · exact .failed rfl (fails_executed e)

theorem follows_finishAfterEffect (key : OutcomeKey) (terminal : Terminal)
    (acknowledgement : ActionAck) :
    (finishAfterEffect acknowledgement).Follows (Phase.Step outcomes)
      (fun told φ => ∃ stored, φ = .answered (.executes key) told stored)
      (.saving key terminal acknowledgement true) := by
  refine follows_bind (follows_finish (.work .save) (fun _ => .work .retry) ⟨true, rfl⟩ fun e => ?_)
  refine follows_bind (follows_try fun ans => ?_)
  cases ans with
  | error e => exact ⟨_, .work .unmended, false, rfl⟩
  | ok => exact ⟨_, .work .mend, follows_finish (.work .resave) (fun _ => .work .lose) ⟨true, rfl⟩ fun _ => ⟨false, rfl⟩⟩

theorem follows_finishWithEffect (terminal : Terminal) :
    (execution.finishWithEffect terminal).run.Follows (Phase.Step execution.outcomes)
      (fun result φ => φ.Reports (.executed execution.key result))
      (.granted execution.key true) := by
  have saving {acknowledgement : ActionAck} :
      (do
        let acknowledgement ← finishAfterEffect acknowledgement
        pure ⟨[execution.accepted, execution.executing, acknowledgement]⟩ :
          EngineM ExecuteReport).run.Follows (Phase.Step execution.outcomes)
        (fun result φ => φ.Reports (.executed execution.key result))
        (.saving execution.key terminal acknowledgement true) := by
    refine follows_try ?_
    rw [run_monadLift]
    refine follows_bind (follows_mono (follows_finishAfterEffect execution.key terminal _) ?_)
    rintro told _ ⟨stored, rfl⟩
    exact .answered (tells_last [execution.accepted, execution.executing] told)
  refine follows_try fun ans => ?_
  cases ans with
  | ok => exact ⟨_, .work (.record rfl rfl), saving⟩
  | error e => exact ⟨_, .work (.doubted rfl rfl), saving⟩

theorem follows_dispatchAction (prepared : Prepared) :
    (execution.dispatchAction prepared).Follows (Phase.Step outcomes)
      (fun _ φ => φ = .granted execution.key true) (.granted execution.key false) := by
  have clock : (now).Only EngineOp.IsLook := look_ask trivial
  refine follows_bind (follows_mono (only_follows look_still clock _) ?_)
  rintro startedAtMs _ rfl
  refine fun answer => ⟨_, .work .dispatch, ?_⟩
  exact only_follows look_still
    (only_mono (execution.quiet_settleDispatch _ _ _) fun _ => quiet_look) _

theorem follows_granted :
    execution.granted.run.Follows (Phase.Step execution.outcomes)
      (fun result φ => φ.Reports (.executed execution.key result))
      (.granted execution.key false) := by
  refine follows_after look_still (only_mono execution.quiet_prepare fun _ => quiet_look)
    fun prepared => ?_
  cases prepared with
  | error terminal => exact follows_finishWithoutEffect _ _ _
  | ok prepared =>
    refine follows_try ?_
    rw [run_monadLift]
    refine follows_bind (follows_mono (follows_dispatchAction prepared) ?_)
    rintro ⟨terminal, effect⟩ _ rfl
    cases effect with
    | true => exact follows_finishWithEffect terminal
    | false => exact follows_finishWithoutEffect _ _ _

/-- A terminal that resolves the key is stored and reported. -/
theorem follows_settle {acknowledgements : List ActionAck} {terminal : Terminal}
    {decision : LedgerDecision} {fresh : Bool} {found : Option ActionAck}
    (resolves : Resolves execution.key decision found (execution.terminalAck terminal)) :
    (do
      finish (execution.terminalAck terminal)
      pure ⟨acknowledgements ++ [execution.terminalAck terminal]⟩ :
        EngineM ExecuteReport).run.Follows (Phase.Step outcomes)
      (fun result φ => φ.Reports (.executed execution.key result))
      (.consulted (.executes execution.key) execution.key decision fresh found) := by
  refine follows_try (follows_finish (.work (.settle resolves (.ok ())))
    (fun e => .work (.settle resolves (.error e))) ?_ fun e => ?_)
  · exact .answered (tells_last acknowledgements _)
  · exact .failed rfl (fails_executed e)

theorem interrupted_terminalAck (receipt : Receipt) :
    (execution.terminalAck (.outcomeUnknown receipt interruptedOutcomeMessage)).isInterrupted =
      true := by
  simp only [terminalAck, Praefectus.terminalAck, ack, ActionAck.isInterrupted,
    Terminal.isInterrupted, decide_true]

theorem follows_claimed :
    execution.claimed.run.Follows (Phase.Step execution.outcomes)
      (fun result φ => φ.Reports (.executed execution.key result))
      (.claimed execution.key) := by
  refine follows_try fun ans => ?_
  cases ans with
  | error e => exact ⟨_, .work .ungranted, .failed rfl (fails_executed e)⟩
  | ok decision =>
    cases decision with
    | dispatch => exact ⟨_, .work .grant, follows_granted⟩
    | recorded terminal =>
      exact ⟨_, .work (.resolve nofun),
        @follows_settle _ _ [execution.accepted] _ _ _ _ (.recorded rfl rfl)⟩
    | interrupted =>
      refine ⟨_, .work (.resolve nofun), ?_⟩
      refine follows_try (follows_bind (follows_bind
        (follows_mono (only_follows look_still (look_emptyReceipt execution _) _) ?_)))
      rintro receipt _ rfl
      exact @follows_settle _ _ [execution.accepted] _ _ _ _
        (.interrupted rfl rfl (interrupted_terminalAck receipt))

/-- A claim of this action hash that was found without a terminal. -/
theorem follows_recovered {claim : ClaimFacts} {records : List LedgerRecord}
    (found : scan execution.request.operationId records = (some claim, none))
    (fits : claim.actionHash = execution.actionHash) :
    (execution.recovered claim).run.Follows (Phase.Step execution.outcomes)
      (fun result φ => φ.Reports (.executed execution.key result))
      (.reading (.executes execution.key) records) := by
  have seeks : Seeks (.executes execution.key) records execution.key none := by
    have sought : Seeks (.executes execution.key) records _ none := .claim found fits
    rwa [fits] at sought
  refine follows_after look_still (look_emptyReceipt execution _) fun receipt => ?_
  refine follows_try fun ans => ?_
  cases ans with
  | error e => exact ⟨_, .work (.unconsulted seeks), .failed rfl (fails_executed e)⟩
  | ok decision =>
    refine ⟨_, .work (.consult seeks), ?_⟩
    cases decision with
    | recorded terminal => exact @follows_settle _ _ [] _ _ _ _ (.recorded rfl rfl)
    | dispatch | interrupted =>
      exact @follows_settle _ _ [] _ _ _ _ (.interrupted rfl rfl (interrupted_terminalAck _))

end Execution

theorem interrupted_generated (operationId : String) (claim : ClaimFacts) (finishedAtMs : Int64) :
    (generateInterruptedAck operationId claim finishedAtMs).isInterrupted = true := by
  simp only [generateInterruptedAck, ActionAck.isInterrupted, Terminal.isInterrupted, decide_true]

/-- A found terminal is told as it is, or as the host recorded it. -/
theorem follows_reconcileInterrupted {session : Session} {records : List LedgerRecord}
    {acknowledgement : ActionAck}
    (found : (scan session.operationId records).2 = some acknowledgement) :
    (reconcileInterrupted outcomes acknowledgement).run.Follows (Phase.Step outcomes)
      (fun result φ =>
        match result with
        | .ok current => ∀ outcome, session.Tells current outcome → φ.Reports outcome
        | .error _ => φ.session = some session)
      (.reading session records) := by
  unfold reconcileInterrupted
  split
  next interrupted =>
    have seeks : Seeks session records acknowledgement.key (some acknowledgement) :=
      .interrupted found interrupted
    refine follows_try fun ans => ?_
    cases ans with
    | error e => exact ⟨_, .work (.unconsulted seeks), rfl⟩
    | ok decision =>
      refine ⟨_, .work (.consult seeks), ?_⟩
      cases decision with
      | recorded terminal =>
        have resolves : Resolves acknowledgement.key (.recorded terminal) (some acknowledgement)
            { acknowledgement with state := .terminal terminal } := .recorded rfl rfl
        refine follows_try (follows_finish (.work (.settle resolves (.ok ())))
          (fun e => .work (.settle resolves (.error e))) ?_ fun _ => rfl)
        exact fun outcome tells => .answered tells
      | dispatch | interrupted => exact fun outcome tells => .kept rfl tells
  next whole =>
    exact fun outcome tells => .replayed found (Bool.not_eq_true _ ▸ whole) tells

/-- What a call knows after it tried to claim its operation. -/
inductive Attempted (key : OutcomeKey) : Except ProtocolError ClaimResult → Phase → Prop where
  | new : Attempted key (.ok .new) (.claimed key)
  | replay {records : List LedgerRecord} {acknowledgement : ActionAck} :
      (scan key.operationId records).2 = some acknowledgement →
      Attempted key (.ok (.replay acknowledgement)) (.reading (.executes key) records)
  | recovered {records : List LedgerRecord} {claim : ClaimFacts} :
      scan key.operationId records = (some claim, none) → claim.actionHash = key.actionHash →
      Attempted key (.ok (.recoveredUnknown claim)) (.reading (.executes key) records)
  | failed {e : ProtocolError} {φ : Phase} : φ.session = some (.executes key) →
      Attempted key (.error e) φ

theorem follows_claim (build : Build) (request : ActionRequest) (actionHash : String)
    (sessionIsolation : SessionIsolation) :
    (claim build request actionHash sessionIsolation).run.Follows (Phase.Step outcomes)
      (Attempted ⟨request.operationId, actionHash⟩)
      (.whole (.executes ⟨request.operationId, actionHash⟩)) := by
  refine follows_try fun ans => ?_
  cases ans with
  | error e => exact ⟨_, .work .unread, .failed rfl⟩
  | ok records =>
    refine ⟨_, .work .read, follows_ret.mpr ?_⟩
    dsimp only
    rcases found : scan request.operationId records with ⟨_ | claim, terminal⟩
    · have clock : (now).Only EngineOp.IsLook := look_ask trivial
      refine follows_after look_still clock fun claimedAtMs => ?_
      have claims : (claimRecord build request actionHash sessionIsolation claimedAtMs).Claims
          ⟨request.operationId, actionHash⟩ := ⟨rfl, rfl⟩
      refine follows_try fun ans => ⟨_, .work (.claim (congrArg Prod.fst found) claims ans), ?_⟩
      cases ans with
      | error e => exact .failed rfl
      | ok => exact .new
    · dsimp only
      split
      · exact .failed rfl
      next fits =>
        cases terminal with
        | none => exact .recovered found (not_not.mp fits)
        | some acknowledgement => exact .replay (congrArg Prod.snd found)

namespace Execution

variable {execution : Execution}

theorem follows_locked :
    execution.locked.run.Follows (Phase.Step execution.outcomes)
      (fun result φ => φ.Reports (.executed execution.key result))
      (.held (.executes execution.key)) := by
  refine follows_try fun ans => ⟨_, .work (.repair ans), ?_⟩
  cases ans with
  | error e => exact .failed rfl (fails_executed e)
  | ok =>
    refine follows_try (follows_mono (follows_claim _ _ _ _) ?_)
    rintro _ _ (_ | ⟨found⟩ | ⟨found, fits⟩ | ⟨held⟩)
    · exact follows_claimed
    · refine follows_try (follows_mono
        (@follows_reconcileInterrupted _ (.executes execution.key) _ _ found)
        fun result φ told => ?_)
      cases result with
      | error e => exact .failed told (fails_executed e)
      | ok current => exact told _ (.executed true rfl)
    · exact follows_recovered found fits
    · exact .failed held (fails_executed _)

end Execution

theorem follows_statusLocked (operationId : String) :
    (statusLocked outcomes operationId).run.Follows (Phase.Step outcomes)
      (fun result φ => φ.Reports (.queried operationId result)) (.held (.queries operationId)) := by
  have fails {φ : Phase} (e : ProtocolError) (held : φ.session = some (.queries operationId)) :
      φ.Reports (.queried operationId (.error e)) := .failed held .queried
  refine follows_try fun ans => ⟨_, .work (.repair ans), ?_⟩
  cases ans with
  | error e => exact fails e rfl
  | ok =>
    refine follows_try fun ans => ?_
    cases ans with
    | error e => exact ⟨_, .work .unread, fails e rfl⟩
    | ok records =>
      refine ⟨_, .work .read, follows_ret.mpr ?_⟩
      dsimp only
      rcases found : scan operationId records with ⟨claim, _ | acknowledgement⟩
      · cases claim with
        | none => exact .missing found
        | some claim =>
          have clock : (now).Only EngineOp.IsLook := look_ask trivial
          refine follows_after look_still clock fun finishedAtMs => ?_
          have seeks : Seeks (.queries operationId) records ⟨operationId, claim.actionHash⟩ none :=
            .claim found trivial
          refine follows_try fun ans => ?_
          cases ans with
          | error e => exact ⟨_, .work (.unconsulted seeks), fails e rfl⟩
          | ok decision =>
            have settling {acknowledgement : ActionAck}
                (resolves : Resolves ⟨operationId, claim.actionHash⟩ decision none acknowledgement) :
                (do
                  finish acknowledgement
                  pure (some acknowledgement) : EngineM (Option ActionAck)).run.Follows
                    (Phase.Step outcomes)
                    (fun result φ => φ.Reports (.queried operationId result))
                    (.consulted (.queries operationId) ⟨operationId, claim.actionHash⟩ decision
                      false none) :=
              follows_try (follows_finish (.work (.settle resolves (.ok ())))
                (fun e => .work (.settle resolves (.error e))) (.answered .queried) fun e => fails e rfl)
            refine ⟨_, .work (.consult seeks), ?_⟩
            cases decision with
            | recorded terminal => exact settling (.recorded rfl rfl)
            | dispatch | interrupted =>
              exact settling (.interrupted rfl rfl (interrupted_generated _ _ _))
      · refine follows_try (follows_mono
          (@follows_reconcileInterrupted _ (.queries operationId) _ _ (congrArg Prod.snd found))
          fun result φ told => ?_)
        cases result with
        | error e => exact fails e told
        | ok current => exact told _ .queried

/-! ### Whole calls -/

theorem follows_releasing {α : Type} {outcome : Except ProtocolError α → Outcome}
    {body : EngineM α} {φ : Phase}
    (follows : body.run.Follows (Phase.Step outcomes) (fun result φ' => φ'.Reports (outcome result))
      φ) :
    (releasing outcome body).run.Follows (Phase.Step outcomes) (fun _ φ' => φ' = .idle) φ := by
  refine follows_bind (follows_mono follows fun result φ' reports => ?_)
  exact fun _ => ⟨.idle, .release reports, rfl⟩

theorem follows_execute (build : Build) (request : ActionRequest) :
    (execute build outcomes request).run.Follows (Phase.Step outcomes) (fun _ φ => φ = .idle)
      .idle := by
  have look {op : EngineOp} (looks : op.IsLook) : (ask op).Only EngineOp.IsLook := look_ask looks
  refine follows_after look_still (@look .directories trivial) fun isDir => ?_
  refine follows_try (follows_ret.mpr ?_)
  cases validateRequest build isDir request with
  | error e => rfl
  | ok =>
    refine follows_try (follows_ret.mpr ?_)
    cases normalizedActionHash build request with
    | error e => rfl
    | ok actionHash =>
      refine follows_try fun ans => ⟨.idle, .look trivial, ?_⟩
      cases ans with
      | error e => rfl
      | ok authority =>
        refine follows_after look_still (@look .sessionIsolation trivial) fun isolation => ?_
        refine follows_try fun ans => ?_
        cases ans with
        | error e => exact ⟨_, .refused, rfl⟩
        | ok =>
          exact ⟨_, .lock (.executes ⟨request.operationId, actionHash⟩),
            follows_releasing (@Execution.follows_locked ⟨build, outcomes, request, actionHash,
              isolation, min request.deadlineAtMs authority.expiresAtMs⟩)⟩

theorem follows_status (operationId : String) :
    (status outcomes operationId).run.Follows (Phase.Step outcomes) (fun _ φ => φ = .idle)
      .idle := by
  unfold status
  split
  · rfl
  · refine follows_try fun ans => ?_
    cases ans with
    | error e => exact ⟨_, .refused, rfl⟩
    | ok =>
      exact ⟨_, .lock (.queries operationId), follows_releasing (follows_statusLocked operationId)⟩

theorem follows_executeBatch (build : Build) (requests : List ActionRequest) :
    (executeBatch build outcomes requests).Follows (Phase.Step outcomes) (fun _ φ => φ = .idle)
      .idle := by
  induction requests with
  | nil => rfl
  | cons request requests ih =>
    refine follows_bind (follows_mono (follows_execute build request) ?_)
    rintro result _ rfl
    split
    · exact follows_bind (follows_mono ih fun _ _ idle => idle)
    · rfl

end Praefectus
